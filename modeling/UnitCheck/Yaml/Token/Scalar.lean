/-
Reading scalars: plain, quoted and block.

Each reader walks along the rest of the text character by character.  What it has read so far
is a `Folding`: the text up to the last word, and the white space behind it, of which the next
word decides what becomes.
-/
import UnitCheck.Yaml.Cursor
import UnitCheck.Yaml.Token

namespace UnitCheck.Yaml

/-! ### Folding -/

/-- A text that is being put together, last character first, with the white space behind it. -/
structure Folding where
  text : List Char := []
  /-- Spaces and tabs on the line of the last word. -/
  spaces : List Char := []
  /-- Has the line of the last word ended? -/
  broken : Bool := false
  /-- The line end of the line of the last word. -/
  firstBreak : List Char := []
  /-- The line ends behind the first one. -/
  moreBreaks : List Char := []

namespace Folding

/-- A space or tab behind the last word.  It counts only on the line of the word. -/
def space (folding : Folding) (c : Char) : Folding :=
  if folding.broken then folding else { folding with spaces := c :: folding.spaces }

/-- A line end behind the last word. -/
def lineEnd (folding : Folding) (c : Char) : Folding :=
  if folding.broken then { folding with moreBreaks := breakText c :: folding.moreBreaks }
  else { folding with spaces := [], broken := true, firstBreak := [breakText c] }

/-- Settle the white space before a word: a single line end becomes a space, of several the
first is dropped. -/
def settle (folding : Folding) : Folding :=
  let gap :=
    if !folding.broken then folding.spaces
    else if folding.firstBreak = ['\n'] then
      (if folding.moreBreaks = [] then [' '] else folding.moreBreaks)
    else folding.moreBreaks ++ folding.firstBreak
  { text := gap ++ folding.text }

/-- A character of a word. -/
def char (folding : Folding) (c : Char) : Folding :=
  let settled := folding.settle
  { settled with text := c :: settled.text }

/-- The text up to the last word. -/
def result (folding : Folding) : List Char :=
  folding.text.reverse

end Folding

/-! ### Plain scalars -/

/-- A plain scalar as read, with the cursor behind it. -/
structure PlainScalar where
  text : List Char
  cursor : Cursor
  /-- Did the reading end on a later line than the last word? -/
  broken : Bool

/-- May a colon in a flow collection not stand before this character? -/
def isFlowMark (c : Char) : Bool :=
  c == ',' || c == '?' || c == '[' || c == ']' || c == '\x7b' || c == '\x7d'

/-- Does a plain scalar end before `c`, which `next` follows? -/
def endsPlain (flow : Bool) (c : Char) (next : Option Char) : Bool :=
  (c == ':' && endsWord next) || (flow && isFlowMark c && c != '?')

/-- Read a plain scalar that began at `start`.  Its lines have to be indented by `indent`
columns, except in a flow collection.  `inWord` tells whether the character before belongs to
a word. -/
def readPlain (flow : Bool) (indent : Int) (start : Mark) (inWord : Bool) (folding : Folding)
    (mark : Mark) : List Char → Except Fault PlainScalar
  | [] => .ok ⟨folding.result, ⟨[], mark⟩, folding.broken⟩
  | c :: rest =>
    let here : Cursor := ⟨c :: rest, mark⟩
    let stop : PlainScalar := ⟨folding.result, here, folding.broken⟩
    if isSpace c then
      if folding.broken && mark.column < indent && c == '\t' then
        here.fail .tabInPlain .plainScalar start
      else readPlain flow indent start false (folding.space c) (mark.right 1) rest
    else if isBreak c then
      match c, rest with
      | '\r', '\n' :: rest =>
        readPlain flow indent start false (folding.lineEnd '\n') (mark.down 2) rest
      | c, rest => readPlain flow indent start false (folding.lineEnd c) (mark.down 1) rest
    else if !inWord && ((!flow && mark.column < indent) || c == '#' ||
        (mark.column == 0 && startsWithDocumentMark (c :: rest))) then .ok stop
    else if flow && c == ':' && rest.head?.any isFlowMark then
      here.fail .colonInFlow .plainScalar start
    else if endsPlain flow c rest.head? then .ok stop
    else readPlain flow indent start true (folding.char c) (mark.right 1) rest

/-! ### Quoted scalars -/

/-- The character of an escape of one letter. -/
def simpleEscape? (c : Char) : Option Char :=
  match c with
  | '0' => some '\x00'
  | 'a' => some '\x07'
  | 'b' => some '\x08'
  | 't' | '\t' => some '\t'
  | 'n' => some '\n'
  | 'v' => some '\x0b'
  | 'f' => some '\x0c'
  | 'r' => some '\r'
  | 'e' => some '\x1b'
  | ' ' => some ' '
  | '"' => some '"'
  | '/' => some '/'
  | '\\' => some '\\'
  | 'N' => some '\x85'
  | '_' => some '\xa0'
  | 'L' => some '\u2028'
  | 'P' => some '\u2029'
  | _ => none

/-- The number of hexadecimal digits behind the letter of an escape by number. -/
def escapeLength? (c : Char) : Option Nat :=
  match c with
  | 'x' => some 2
  | 'u' => some 4
  | 'U' => some 8
  | _ => none

/-- The character of an escape by number, whose digits begin the text at the cursor. -/
def numericEscape (digits : Nat) (start : Mark) (cursor : Cursor) : Except Fault Char :=
  let shown := cursor.rest.take digits
  match ofDigits? 16 shown with
  | some n =>
    if shown.length < digits then cursor.fail .missingHexDigit .quotedEscape start
    else if (0xD800 ≤ n ∧ n ≤ 0xDFFF) ∨ 0x10FFFF < n then
      cursor.fail .badEscapedCharacter .quotedEscape start
    else .ok (Char.ofNat n)
  | none => cursor.fail .missingHexDigit .quotedEscape start

/-- Read a quoted scalar behind its opening quote, which stands at `start`.  The first `pass`
characters belong to what has been read before. -/
def readQuoted (single : Bool) (start : Mark) (pass : Nat) (folding : Folding) (mark : Mark) :
    List Char → Except Fault (List Char × Cursor)
  | [] => Cursor.fail ⟨[], mark⟩ .endInQuotes .quotedScalar start
  | c :: rest =>
    let here : Cursor := ⟨c :: rest, mark⟩
    match pass with
    | pass + 1 => readQuoted single start pass folding mark rest
    | 0 =>
      if isSpace c then readQuoted single start 0 (folding.space c) (mark.right 1) rest
      else if isBreak c then
        match c, rest with
        | '\r', '\n' :: rest =>
          readQuoted single start 0 (folding.lineEnd '\n') (mark.down 2) rest
        | c, rest => readQuoted single start 0 (folding.lineEnd c) (mark.down 1) rest
      else if mark.column == 0 && startsWithDocumentMark (c :: rest) then
        here.fail .documentInQuotes .quotedScalar start
      else if single then
        if c == '\x27' then
          if rest.head? == some '\x27' then
            readQuoted single start 1 (folding.char c) (mark.right 2) rest
          else .ok (folding.settle.result, ⟨rest, mark.right 1⟩)
        else readQuoted single start 0 (folding.char c) (mark.right 1) rest
      else if c == '"' then .ok (folding.settle.result, ⟨rest, mark.right 1⟩)
      else if c == '\\' then
        match rest with
        | '\r' :: '\n' :: rest =>
          readQuoted single start 0 { folding.settle with broken := true }
            ((mark.right 1).down 2) rest
        | e :: rest =>
          if isBreak e then
            readQuoted single start 0 { folding.settle with broken := true }
              ((mark.right 1).down 1) rest
          else match simpleEscape? e, escapeLength? e with
            | some d, _ => readQuoted single start 0 (folding.char d) (mark.right 2) rest
            | none, some digits => do
              let d ← numericEscape digits start ⟨rest, mark.right 2⟩
              readQuoted single start digits (folding.char d) (mark.right (2 + digits)) rest
            | none, none => here.fail .unknownEscape .quotedEscape start
        | [] => here.fail .unknownEscape .quotedEscape start
      else readQuoted single start 0 (folding.char c) (mark.right 1) rest

/-! ### Block scalars -/

/-- What becomes of the line ends at the end of a block scalar. -/
inductive Chomping where
  /-- None is kept. -/
  | strip
  /-- One is kept. -/
  | clip
  /-- All are kept. -/
  | keep
deriving DecidableEq, Repr

/-- A block scalar that is being read.  Texts are held last character first. -/
structure BlockScalar where
  literal : Bool
  chomping : Chomping
  /-- The place of its indicator. -/
  start : Mark
  /-- The least indentation that its content can have. -/
  least : Nat
  /-- The indentation of its content, once it is known. -/
  indent : Option Nat
  /-- The deepest indentation of the empty lines seen so far. -/
  deepest : Nat := 0
  text : List Char := []
  /-- The line end of the last line with content. -/
  lastBreak : List Char := []
  /-- The line ends of the empty lines behind it. -/
  emptyBreaks : List Char := []
  /-- Did the last line with content begin with white space? -/
  lastBlank : Bool := false
  /-- Is the reading inside a line with content? -/
  inLine : Bool := false

namespace BlockScalar

/-- Is a column short of the indentation of the content, or that indentation not known? -/
def short (scalar : BlockScalar) (column : Nat) : Bool :=
  scalar.indent.all (column < ·)

/-- The indentation of the content: where it is not given, that of the first line, but no less
than that of an empty line before it. -/
def settledIndent (scalar : BlockScalar) (column : Nat) : Nat :=
  scalar.indent.getD (max (max scalar.deepest column) scalar.least)

/-- Begin a line with content, whose first character is given. -/
def beginLine (scalar : BlockScalar) (c : Char) : BlockScalar :=
  let fold := !scalar.literal && scalar.lastBreak == ['\n'] && !scalar.lastBlank && !isSpace c
  let joint :=
    if fold then (if scalar.emptyBreaks = [] then [' '] else []) else scalar.lastBreak
  { scalar with
    text := c :: (scalar.emptyBreaks ++ joint ++ scalar.text)
    lastBreak := []
    emptyBreaks := []
    lastBlank := isSpace c
    inLine := true }

/-- The value, with the line ends at its end treated as wanted. -/
def result (scalar : BlockScalar) : List Char :=
  let last := if scalar.chomping = .strip then [] else scalar.lastBreak
  let empty := if scalar.chomping = .keep then scalar.emptyBreaks else []
  (empty ++ last ++ scalar.text).reverse

/-- End a line. -/
def lineEnd (scalar : BlockScalar) (c : Char) : BlockScalar :=
  if scalar.inLine then { scalar with lastBreak := [breakText c], inLine := false }
  else { scalar with emptyBreaks := breakText c :: scalar.emptyBreaks }

end BlockScalar

/-- Read the lines of a block scalar. -/
def readBlock (scalar : BlockScalar) (mark : Mark) :
    List Char → Except Fault (List Char × Cursor)
  | [] => .ok (scalar.result, ⟨[], mark⟩)
  | c :: rest =>
    let here : Cursor := ⟨c :: rest, mark⟩
    if isBreak c then
      let scalar :=
        if scalar.inLine then scalar
        else { scalar with deepest := max scalar.deepest mark.column }
      match c, rest with
      | '\r', '\n' :: rest => readBlock (scalar.lineEnd '\n') (mark.down 2) rest
      | c, rest => readBlock (scalar.lineEnd c) (mark.down 1) rest
    else if scalar.inLine then
      readBlock { scalar with text := c :: scalar.text } (mark.right 1) rest
    else if c == ' ' && scalar.short mark.column then readBlock scalar (mark.right 1) rest
    else if c == '\t' && scalar.short mark.column then
      here.fail .tabForIndentation .blockScalar scalar.start
    else
      let indent := scalar.settledIndent mark.column
      if mark.column = indent then
        readBlock ({ scalar with indent := some indent }.beginLine c) (mark.right 1) rest
      else .ok (scalar.result, here)

/-- The indicators behind `|` or `>`: an indentation and a way of chomping, in any order. -/
def readBlockHeader (start : Mark) (cursor : Cursor) :
    Except Fault (Option Nat × Chomping × Cursor) := do
  let chomping? := fun (c : Cursor) =>
    if c.isAt '+' then some Chomping.keep else if c.isAt '-' then some Chomping.strip else none
  let (chomping, cursor) :=
    match chomping? cursor with
    | some chomping => (some chomping, cursor.skip 1)
    | none => (none, cursor)
  let (increment, cursor) ←
    match cursor.peek?.bind (digitValue? 10) with
    | some 0 => cursor.fail .zeroIndentation .blockScalar start
    | some n => pure (some n, cursor.skip 1)
    | none => pure (none, cursor)
  let (chomping, cursor) :=
    match chomping, increment, chomping? cursor with
    | none, some _, some chomping => (some chomping, cursor.skip 1)
    | chomping, _, _ => (chomping, cursor)
  return (increment, chomping.getD .clip, cursor)

/-- Read a block scalar in a block with the given indentation, -1 outside of all blocks. -/
def scanBlockScalar (literal : Bool) (indent : Int) (cursor : Cursor) :
    Except Fault (List Char × Cursor) := do
  let start := cursor.mark
  let (increment, chomping, cursor) ← readBlockHeader start (cursor.skip 1)
  let cursor := cursor.skipToLineEnd
  if endsLine cursor.peek? then
    let cursor := cursor.skipBreak
    let scalar : BlockScalar := {
      literal, chomping, start
      least := max 1 (indent + 1).toNat
      indent := increment.map fun n => indent.toNat + n }
    readBlock scalar cursor.mark cursor.rest
  else cursor.fail .missingLineEnd .blockScalar start

/-- Read a quoted scalar whose opening quote is next. -/
def scanQuoted (single : Bool) (cursor : Cursor) : Except Fault (List Char × Cursor) :=
  readQuoted single cursor.mark 0 {} (cursor.mark.right 1) cursor.rest.tail

/-- Read a plain scalar in a block with the given indentation. -/
def scanPlain (flow : Bool) (indent : Int) (cursor : Cursor) : Except Fault PlainScalar :=
  readPlain flow (indent + 1) cursor.mark true {} cursor.mark cursor.rest

end UnitCheck.Yaml
