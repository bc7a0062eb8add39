/-
Texts in double quotes, as messages show them.

The quote, the backslash, the null character, the tab and the two line ends are escaped by a
letter, and every other character without a mark of its own by its code point in braces.
-/
import UnitCheck.Text.Numeral
import UnitCheck.Text.Visible

namespace UnitCheck

/-- How a character is shown inside quotes. -/
def showChar (c : Char) : List Char :=
  if c = '"' ∨ c = '\\' then ['\\', c]
  else if c = '\x00' then ['\\', '0']
  else if c = '\t' then ['\\', 't']
  else if c = '\n' then ['\\', 'n']
  else if c = '\r' then ['\\', 'r']
  else if isVisible c then [c]
  else ['\\', 'u', '\x7b'] ++ hexNumeral 1 c.toNat ++ ['\x7d']

/-- A text in double quotes. -/
def showQuoted (text : List Char) : List Char :=
  ['"'] ++ text.flatMap showChar ++ ['"']

end UnitCheck
