/-
Writing JSON.

Strings escape the quote, the backslash and the control characters below U+0020; all other
characters stand for themselves.  `pretty` puts each item and field on a line of its own,
indented by two spaces for each level; `compact` adds no white space.
-/
import UnitCheck.Json.Basic

namespace UnitCheck.Json

/-- How a character is written inside a string. -/
def escapeChar (c : Char) : List Char :=
  if c = '"' then ['\\', '"']
  else if c = '\\' then ['\\', '\\']
  else if c = '\x08' then ['\\', 'b']
  else if c = '\t' then ['\\', 't']
  else if c = '\n' then ['\\', 'n']
  else if c = '\x0c' then ['\\', 'f']
  else if c = '\r' then ['\\', 'r']
  else if c.toNat < 0x20 then ['\\', 'u'] ++ hexNumeral 4 c.toNat
  else [c]

/-- A string with its quotes. -/
def quote (text : List Char) : List Char :=
  ['"'] ++ text.flatMap escapeChar ++ ['"']

/-- A whole number. -/
def writeInt : Int → List Char
  | .ofNat n => Nat.toDigits 10 n
  | .negSucc n => '-' :: Nat.toDigits 10 (n + 1)

/-- A number with an exponent. -/
def writeReal (x : Decimal) : List Char :=
  (if x.negative then ['-'] else []) ++ Nat.toDigits 10 x.digits ++ ['e'] ++ writeInt x.exponent

/-- The line end and the indentation in front of an item at the given level. -/
def newLine (level : Nat) : List Char :=
  '\n' :: List.replicate (2 * level) ' '

mutual

/-- A value on several lines, at the given level of indentation. -/
def pretty (level : Nat) : Json → List Char
  | .null => ['n', 'u', 'l', 'l']
  | .bool true => ['t', 'r', 'u', 'e']
  | .bool false => ['f', 'a', 'l', 's', 'e']
  | .int n => writeInt n
  | .real x => writeReal x
  | .str text => quote text.toList
  | .arr [] => ['[', ']']
  | .arr (item :: items) =>
    ['['] ++ newLine (level + 1) ++ pretty (level + 1) item ++ prettyItems (level + 1) items ++
      newLine level ++ [']']
  | .obj [] => ['\x7b', '\x7d']
  | .obj ((name, value) :: fields) =>
    ['\x7b'] ++ newLine (level + 1) ++ quote name.toList ++ [':', ' '] ++
      pretty (level + 1) value ++ prettyFields (level + 1) fields ++ newLine level ++ ['\x7d']

/-- The items behind the first one. -/
def prettyItems (level : Nat) : List Json → List Char
  | [] => []
  | item :: items => [','] ++ newLine level ++ pretty level item ++ prettyItems level items

/-- The fields behind the first one. -/
def prettyFields (level : Nat) : List (String × Json) → List Char
  | [] => []
  | (name, value) :: fields =>
    [','] ++ newLine level ++ quote name.toList ++ [':', ' '] ++ pretty level value ++
      prettyFields level fields

end

mutual

/-- A value on one line. -/
def compact : Json → List Char
  | .null => ['n', 'u', 'l', 'l']
  | .bool true => ['t', 'r', 'u', 'e']
  | .bool false => ['f', 'a', 'l', 's', 'e']
  | .int n => writeInt n
  | .real x => writeReal x
  | .str text => quote text.toList
  | .arr [] => ['[', ']']
  | .arr (item :: items) => ['['] ++ compact item ++ compactItems items ++ [']']
  | .obj [] => ['\x7b', '\x7d']
  | .obj ((name, value) :: fields) =>
    ['\x7b'] ++ quote name.toList ++ [':'] ++ compact value ++ compactFields fields ++ ['\x7d']

/-- The items behind the first one. -/
def compactItems : List Json → List Char
  | [] => []
  | item :: items => [','] ++ compact item ++ compactItems items

/-- The fields behind the first one. -/
def compactFields : List (String × Json) → List Char
  | [] => []
  | (name, value) :: fields =>
    [','] ++ quote name.toList ++ [':'] ++ compact value ++ compactFields fields

end

end UnitCheck.Json
