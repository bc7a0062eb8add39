/-
Line and column of a byte offset.

A `LineIndex` holds the offsets at which the lines of a text begin, so that the line of
an offset is found by bisection.  Lines end at a line feed only.  Lines and columns count
from one; a column counts characters.
-/
import UnitCheck.Span

namespace UnitCheck

/-- A place in a text as people count it. -/
structure Position where
  line : Nat
  column : Nat
deriving DecidableEq, Repr

/-- A text with its number of bytes and the offsets at which its lines begin, in increasing
order. -/
structure LineIndex where
  text : List Char
  size : Nat
  starts : Array Nat

namespace LineIndex

/-- The offsets just behind the line feeds of a text that begins at `offset`. -/
def startsFrom (offset : Nat) : List Char → List Nat
  | [] => []
  | c :: text =>
    let next := offset + c.utf8Size
    if c = '\n' then next :: startsFrom next text else startsFrom next text

/-- The line index of a text. -/
def ofText (text : List Char) : LineIndex :=
  ⟨text, byteLength text, (0 :: startsFrom 0 text).toArray⟩

/-- How many of the numbers below position `hi` are at most `bound`, given that the first
`lo` are and that the numbers increase. -/
def countAtMost (numbers : Array Nat) (bound lo hi : Nat) : Nat :=
  if _h : lo < hi then
    let middle := (lo + hi) / 2
    if numbers.getD middle (bound + 1) ≤ bound then countAtMost numbers bound (middle + 1) hi
    else countAtMost numbers bound lo middle
  else lo
termination_by hi - lo

/-- The position of a byte offset.  An offset beyond the text counts as its end; one inside
a character has no position. -/
def position? (index : LineIndex) (offset : Nat) : Option Position := do
  let offset := min offset index.size
  let line := countAtMost index.starts offset 0 index.starts.size
  let start ← index.starts[line - 1]?
  let before ← Span.slice? ⟨start, offset⟩ index.text
  return ⟨line, before.length + 1⟩

end LineIndex

/-- The position just behind a text, counted by a plain scan of it. -/
def Position.after (text : List Char) : Position where
  line := text.count '\n' + 1
  column := (text.reverse.takeWhile (· != '\n')).length + 1

end UnitCheck
