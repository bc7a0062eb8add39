/-
Reading a unit file.

The text is read line by line.  What a line means depends only on whether the line before
it asked to be continued, so reading is a machine with two states.  A line contributes at
most one `Piece`: a section header, the start of an entry, or a further segment of the
value of the entry before it.  The pieces are then gathered into sections.

No text is refused: a line that is neither a header, an entry, a comment nor a
continuation contributes nothing.
-/
import UnitCheck.Document.Basic
import UnitCheck.Document.Line

namespace UnitCheck

/-- What one line contributes to a document. -/
inductive Piece where
  /-- The header of a section. -/
  | header (name : List Char) (span : Span)
  /-- The key of an entry and the first segment of its value. -/
  | entry (key : List Char) (span : Span) (segment : List Char)
  /-- A further segment of the value of the entry before. -/
  | segment (text : List Char)
deriving DecidableEq, Repr

/-! ### One line -/

/-- Is a trimmed line a comment? -/
def isComment (trimmed : List Char) : Bool :=
  trimmed.head? == some '#' || trimmed.head? == some ';'

/-- The name in a section header: the trimmed line is a bracketed name, which is not empty
and has no bracket in it. -/
def headerName? : List Char → Option (List Char)
  | [] => none
  | c :: rest =>
    let name := rest.dropLast
    if c = '[' ∧ rest.getLast? = some ']' ∧ name ≠ [] ∧ '[' ∉ name ∧ ']' ∉ name then
      some name
    else none

/-- A trimmed stretch of a value without the backslash at its end that asks for a
continuation, and whether there was one. -/
def splitContinuation (trimmed : List Char) : List Char × Bool :=
  if trimmed.getLast? = some '\\' then (trimEnd trimmed.dropLast, true) else (trimmed, false)

/-- The span of a part at the front of a line, without the blank characters at its ends. -/
def Line.trimmedSpan (line : Line) (part : List Char) : Span :=
  Span.ofLength (line.offset + byteLength (indentation part)) (byteLength (trim part))

/-- An entry: the key is what stands before the first equals sign of the line. -/
def readEntry (line : Line) : Option Piece × Bool :=
  match line.text.dropWhile (· != '=') with
  | [] => (none, false)
  | _ :: right =>
    let left := line.text.takeWhile (· != '=')
    let (segment, more) := splitContinuation (trim right)
    (some (.entry (trim left) (line.trimmedSpan left) segment), more)

/-- A line that continues the value before it.  Comments between the lines of a value are
passed over. -/
def readContinued (line : Line) : Option Piece × Bool :=
  let trimmed := trim line.text
  if isComment trimmed then (none, true)
  else
    let (segment, more) := splitContinuation trimmed
    (some (.segment segment), more)

/-- A line that stands on its own. -/
def readFresh (line : Line) : Option Piece × Bool :=
  let trimmed := trim line.text
  if trimmed.isEmpty || isComment trimmed then (none, false)
  else if trimmed.head? == some '[' then
    ((headerName? trimmed).map (.header · (line.trimmedSpan line.text)), false)
  else readEntry line

/-- What a line contributes and whether it asks to be continued, given whether the line
before it did. -/
def readLine (continued : Bool) (line : Line) : Option Piece × Bool :=
  if continued then readContinued line else readFresh line

/-! ### All lines -/

/-- The contributions of lines, given whether the line before the first asked to be
continued. -/
def pieces (continued : Bool) : List Line → List Piece
  | [] => []
  | line :: lines =>
    let (piece, more) := readLine continued line
    piece.toList ++ pieces more lines

/-- The value made of segments: those that are not empty, with a space between them. -/
def joinSegments (segments : List (List Char)) : List Char :=
  [' '].intercalate (segments.filter (· ≠ []))

/-- What has been gathered from the pieces behind a certain point. -/
structure Gathered where
  /-- Segments that belong to an entry before this point. -/
  segments : List (List Char) := []
  /-- Directives that belong to a section before this point. -/
  directives : List Directive := []
  /-- The sections whose headers stand behind this point. -/
  sections : List Section := []

/-- Gather one more piece, in front of the others.  An entry without a key is dropped, with
its value. -/
def Gathered.cons (piece : Piece) (behind : Gathered) : Gathered :=
  match piece with
  | .header name span =>
    { sections := ⟨String.ofList name, span, behind.directives⟩ :: behind.sections }
  | .entry key span segment =>
    let value := joinSegments (segment :: behind.segments)
    let directive : Directive := ⟨String.ofList key, span, String.ofList value⟩
    { behind with
      segments := []
      directives := if key = [] then behind.directives else directive :: behind.directives }
  | .segment text => { behind with segments := text :: behind.segments }

/-- The document of a sequence of pieces.  Entries before the first header are dropped. -/
def Document.ofPieces (ps : List Piece) : Document :=
  ⟨(ps.foldr Gathered.cons {}).sections⟩

/-- Read a unit file. -/
def Document.parse (text : List Char) : Document :=
  .ofPieces (pieces false (linesOf text))

end UnitCheck
