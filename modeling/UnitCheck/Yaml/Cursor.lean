/-
Where the reading of a YAML text stands, and the classes of characters that matter to it.
-/
import UnitCheck.Text.Numeral
import UnitCheck.Yaml.Fault

namespace UnitCheck.Yaml

/-! ### Characters -/

/-- Is the character a space or a tab? -/
def isSpace (c : Char) : Bool :=
  c == ' ' || c == '\t'

/-- Does the character end a line? -/
def isBreak (c : Char) : Bool :=
  c == '\n' || c == '\r' || c == '\x85' || c == '\u2028' || c == '\u2029'

/-- Does a word end before this character, or at the end of the text? -/
def endsWord (c : Option Char) : Bool :=
  c.all fun c => isSpace c || isBreak c

/-- Does a line end before this character, or at the end of the text? -/
def endsLine (c : Option Char) : Bool :=
  c.all isBreak

/-- May the character stand in the name of an anchor or a directive? -/
def isNameChar (c : Char) : Bool :=
  isDigit c || ('a' ≤ c && c ≤ 'z') || ('A' ≤ c && c ≤ 'Z') || c == '_' || c == '-'

/-- Does a text begin with the given mark between documents, followed by the end of a word? -/
def startsWithIndicator (c : Char) (text : List Char) : Bool :=
  [c, c, c].isPrefixOf text && endsWord (text.drop 3).head?

/-- Does a text begin with `---` or `...`, followed by the end of a word? -/
def startsWithDocumentMark (text : List Char) : Bool :=
  startsWithIndicator '-' text || startsWithIndicator '.' text

/-- May the character stand in a YAML text? -/
def isReadable (c : Char) : Bool :=
  let n := c.toNat
  n == 0x9 || n == 0xA || n == 0xD || (0x20 ≤ n && n ≤ 0x7E) || n == 0x85 ||
    (0xA0 ≤ n && n ≤ 0xD7FF) || (0xE000 ≤ n && n ≤ 0xFFFD) || 0x10000 ≤ n

/-- How a line end is written in the value of a scalar.  Only the line and paragraph separators
keep their kind. -/
def breakText (c : Char) : Char :=
  if c = '\u2028' ∨ c = '\u2029' then c else '\n'

/-! ### Cursors -/

/-- The rest of a text and the place where it begins. -/
structure Cursor where
  rest : List Char
  mark : Mark

namespace Cursor

/-- The next character. -/
def peek? (cursor : Cursor) : Option Char :=
  cursor.rest.head?

/-- The character behind the next one. -/
def peekSecond? (cursor : Cursor) : Option Char :=
  cursor.rest.tail.head?

/-- Is this the next character? -/
def isAt (cursor : Cursor) (c : Char) : Bool :=
  cursor.peek? == some c

/-- Pass over `n` characters of one line. -/
def skip (cursor : Cursor) (n : Nat) : Cursor :=
  ⟨cursor.rest.drop n, cursor.mark.right n⟩

/-- Pass over characters of one line as long as they satisfy `p`. -/
def skipWhile (cursor : Cursor) (p : Char → Bool) : Cursor :=
  ⟨cursor.rest.dropWhile p, cursor.mark.right (cursor.rest.takeWhile p).length⟩

/-- The characters that `skipWhile` passes over. -/
def takeWhile (cursor : Cursor) (p : Char → Bool) : List Char :=
  cursor.rest.takeWhile p

/-- Pass over a line end, if one is next. -/
def skipBreak (cursor : Cursor) : Cursor :=
  match cursor.rest with
  | '\r' :: '\n' :: rest => ⟨rest, cursor.mark.down 2⟩
  | c :: rest => if isBreak c then ⟨rest, cursor.mark.down 1⟩ else cursor
  | [] => cursor

/-- Pass over spaces, tabs and a comment up to the end of the line. -/
def skipToLineEnd (cursor : Cursor) : Cursor :=
  let cursor := cursor.skipWhile isSpace
  if cursor.isAt '#' then cursor.skipWhile (!isBreak ·) else cursor

/-- A fault at the cursor while reading something that began at `start`. -/
def fail {α : Type} (cursor : Cursor) (problem : Problem) (activity : Activity) (start : Mark) :
    Except Fault α :=
  .error (.malformed problem cursor.mark (some (activity, start)))

end Cursor

end UnitCheck.Yaml
