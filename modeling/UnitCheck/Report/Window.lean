/-
Windows: the lines of a text around a span.

The bytes of a text are passed one by one, from its front, until enough lines behind the span have
ended.  On the way the scan keeps the offsets of the last lines before the span.  Line feeds and
carriage returns end a line, and a return directly in front of a feed ends it together with the feed.
-/
import UnitCheck.Span

namespace UnitCheck

/-- What a scan passes in one step. -/
inductive ScanUnit where
  /-- A line end of the given number of bytes. -/
  | lineEnd (size : Nat)
  /-- A byte of any other character. -/
  | byte
deriving DecidableEq, Repr

/-- The steps in which a scan passes a text. -/
def scanUnits : List Char → List ScanUnit
  | [] => []
  | '\r' :: '\n' :: text => .lineEnd 2 :: scanUnits text
  | c :: text =>
    if c = '\n' ∨ c = '\r' then .lineEnd 1 :: scanUnits text
    else List.replicate c.utf8Size .byte ++ scanUnits text

/-- How far a scan has come. -/
structure Scan where
  /-- The number of bytes passed. -/
  offset : Nat := 0
  /-- The number of line ends passed. -/
  lineEnds : Nat := 0
  /-- The offset at which the present line begins. -/
  lineStart : Nat := 0
  /-- The offsets of the last lines before the span, as many as the window has room for. -/
  before : List Nat := []
  /-- The number of lines before these. -/
  linesBefore : Nat := 0
  /-- The number of bytes before the span on its first line. -/
  column : Nat := 0
  /-- Has the last byte of the span been passed? -/
  reached : Bool := false
  /-- Has the last line of the span ended? -/
  closed : Bool := false
  /-- The number of lines behind the span that have ended. -/
  linesBehind : Nat := 0
  /-- Is all of the window passed? -/
  stopped : Bool := false
deriving DecidableEq, Repr

namespace Scan

/-- Keep the line that ends before the span, and let go of the first line kept if there is no room
for another one. -/
def keepLine (context : Nat) (scan : Scan) : Scan :=
  let before := scan.before ++ [scan.lineStart]
  if context < before.length then
    { scan with column := 0, before := before.tail, linesBefore := scan.linesBefore + 1 }
  else { scan with column := 0, before := before }

/-- Count the end of a line that holds the end of the span or comes behind it. -/
def countBehind (scan : Scan) : Scan :=
  if scan.closed then { scan with column := 0, linesBehind := scan.linesBehind + 1 }
  else { scan with column := 0, closed := true }

/-- Go on to the next byte, or stop if the window is complete. -/
def advance (context : Nat) (span : Span) (scan : Scan) : Scan :=
  if span.start + span.length - 1 ≤ scan.offset then
    { scan with
      offset := scan.offset + 1, reached := true, stopped := context ≤ scan.linesBehind }
  else { scan with offset := scan.offset + 1 }

/-- Come to the last byte of a line end and deal with the line. -/
def endLine (context : Nat) (span : Span) (size : Nat) (scan : Scan) : Scan :=
  let atEnd := { scan with offset := scan.offset + (size - 1), lineEnds := scan.lineEnds + 1 }
  let counted :=
    if atEnd.offset < span.start then atEnd.keepLine context
    else if span.start + (span.length - 1) ≤ atEnd.offset ∧ atEnd.reached then atEnd.countBehind
    else atEnd
  { counted with lineStart := counted.offset + 1 }

/-- One step of a scan for the window of a span with `context` lines before and behind. -/
def step (context : Nat) (span : Span) (scan : Scan) (unit : ScanUnit) : Scan :=
  if scan.stopped then scan
  else match unit with
    | .lineEnd size => (scan.endLine context span size).advance context span
    | .byte =>
      let column := if scan.offset < span.start then scan.column + 1 else scan.column
      { scan with column := column }.advance context span

end Scan

/-- A part of a text around a span. -/
structure Window where
  /-- The bytes of the window. -/
  span : Span
  /-- The number of lines before the window. -/
  linesBefore : Nat
  /-- The number of bytes before the window on its first line. -/
  column : Nat
  /-- The number of line ends up to the end of the window. -/
  lineEnds : Nat
deriving DecidableEq, Repr

/-- The window of a span with `context` lines before and behind; without such lines it begins with
the span. -/
def Window.around (context : Nat) (span : Span) (text : List Char) : Window :=
  let scan := (scanUnits text).foldl (Scan.step context span) {}
  let start := scan.before.head?.getD (if context = 0 then span.start else 0)
  { span := ⟨start, scan.offset⟩
    linesBefore := scan.linesBefore
    column := if context = 0 then scan.column else 0
    lineEnds := scan.lineEnds }

end UnitCheck
