/-
Reading JSON.

Each reader takes the rest of the text and gives back what it read with what is left.  The
readers of values, items and fields call each other; each call takes one from a bound on the
depth of the calls, and `ofText?` starts with a bound that no text exceeds.
-/
import UnitCheck.Json.Basic

namespace UnitCheck.Json

/-- The text without the white space in front of it. -/
def skipSpace (text : List Char) : List Char :=
  text.dropWhile fun c => c == ' ' || c == '\t' || c == '\n' || c == '\r'

/-- The text behind a character that has to come first. -/
def expect? (c : Char) : List Char → Option (List Char)
  | [] => none
  | d :: text => if d = c then some text else none

/-- The text behind a word that has to come first. -/
def expectAll? : List Char → List Char → Option (List Char)
  | [], text => some text
  | c :: word, text => do expectAll? word (← expect? c text)

/-! ### Strings -/

/-- The character of an escape of one letter. -/
def escaped? (c : Char) : Option Char :=
  if c = '"' ∨ c = '\\' ∨ c = '/' then some c
  else if c = 'b' then some '\x08'
  else if c = 'f' then some '\x0c'
  else if c = 'n' then some '\n'
  else if c = 'r' then some '\r'
  else if c = 't' then some '\t'
  else none

/-- The characters that code units stand for.  A unit of a surrogate pair that lacks its
partner stands for the replacement character. -/
def ofUnits : List Nat → List Char
  | [] => []
  | [u] => [Char.ofNat (if 0xD800 ≤ u ∧ u < 0xE000 then 0xFFFD else u)]
  | u :: v :: units =>
    if 0xD800 ≤ u ∧ u < 0xDC00 ∧ 0xDC00 ≤ v ∧ v < 0xE000 then
      Char.ofNat (0x10000 + (u - 0xD800) * 0x400 + (v - 0xDC00)) :: ofUnits units
    else Char.ofNat (if 0xD800 ≤ u ∧ u < 0xE000 then 0xFFFD else u) :: ofUnits (v :: units)

/-- The rest of a string up to its closing quote.  `units` are the code units, last first,
of the escapes just read. -/
def readString (units : List Nat) : List Char → Option (List Char × List Char)
  | '\\' :: 'u' :: a :: b :: c :: d :: text => do
    let unit ← ofDigits? 16 [a, b, c, d]
    readString (unit :: units) text
  | '\\' :: c :: text => do
    let e ← escaped? c
    let (rest, left) ← readString [] text
    return (ofUnits units.reverse ++ e :: rest, left)
  | c :: text =>
    if c = '"' then some (ofUnits units.reverse, text)
    else if c = '\\' ∨ c.toNat < 0x20 then none
    else do
      let (rest, left) ← readString [] text
      return (ofUnits units.reverse ++ c :: rest, left)
  | [] => none

/-! ### Numbers -/

/-- Does a text of digits have no needless zero in front? -/
def isWhole (digits : List Char) : Bool :=
  digits.head? != some '0' || digits.length == 1

/-- The digits behind a point, if there is one. -/
def readFraction? : List Char → Option (List Char × List Char)
  | [] => some ([], [])
  | c :: text =>
    if c = '.' then
      let digits := text.takeWhile isDigit
      if digits.isEmpty then none else some (digits, text.dropWhile isDigit)
    else some ([], c :: text)

/-- The exponent behind its mark, if there is one. -/
def readPower? : List Char → Option (Option Int × List Char)
  | [] => some (none, [])
  | c :: text =>
    if c = 'e' ∨ c = 'E' then do
      let (negative, rest) := Decimal.splitSign text
      let n ← ofDigits? 10 (rest.takeWhile isDigit)
      return (some (if negative then -(n : Int) else n), rest.dropWhile isDigit)
    else some (none, c :: text)

/-- A number. -/
def readNumber? (text : List Char) : Option (Json × List Char) := do
  let negative := text.head? == some '-'
  let body := if negative then text.tail else text
  let whole := body.takeWhile isDigit
  let n ← ofDigits? 10 whole
  if isWhole whole then
    let (fraction, rest) ← readFraction? (body.dropWhile isDigit)
    let (power, rest) ← readPower? rest
    if fraction.isEmpty && power.isNone then
      return (.int (if negative then -(n : Int) else n), rest)
    else
      let digits ← ofDigits? 10 (whole ++ fraction)
      return (.real ⟨negative, digits, power.getD 0 - fraction.length⟩, rest)
  else none

/-! ### Values -/

mutual

/-- A value. -/
def readValue : Nat → List Char → Option (Json × List Char)
  | 0, _ => none
  | depth + 1, text =>
    match skipSpace text with
    | [] => none
    | c :: rest =>
      if c = '"' then (readString [] rest).map fun (s, left) => (.str (String.ofList s), left)
      else if c = '[' then
        match expect? ']' (skipSpace rest) with
        | some left => some (.arr [], left)
        | none => (readItems depth rest).map fun (items, left) => (.arr items, left)
      else if c = '\x7b' then
        match expect? '\x7d' (skipSpace rest) with
        | some left => some (.obj [], left)
        | none => (readFields depth rest).map fun (fields, left) => (.obj fields, left)
      else if c = 'n' then (expectAll? ['u', 'l', 'l'] rest).map (.null, ·)
      else if c = 't' then (expectAll? ['r', 'u', 'e'] rest).map (.bool true, ·)
      else if c = 'f' then (expectAll? ['a', 'l', 's', 'e'] rest).map (.bool false, ·)
      else readNumber? (c :: rest)

/-- The items of an array, at least one, and its closing bracket. -/
def readItems : Nat → List Char → Option (List Json × List Char)
  | 0, _ => none
  | depth + 1, text => do
    let (item, rest) ← readValue depth text
    let rest := skipSpace rest
    match expect? ',' rest with
    | some rest =>
      let (items, left) ← readItems depth rest
      return (item :: items, left)
    | none => return ([item], ← expect? ']' rest)

/-- The fields of an object, at least one, and its closing brace. -/
def readFields : Nat → List Char → Option (List (String × Json) × List Char)
  | 0, _ => none
  | depth + 1, text => do
    let rest ← expect? '"' (skipSpace text)
    let (name, rest) ← readString [] rest
    let rest ← expect? ':' (skipSpace rest)
    let (value, rest) ← readValue depth rest
    let rest := skipSpace rest
    match expect? ',' rest with
    | some rest =>
      let (fields, left) ← readFields depth rest
      return ((String.ofList name, value) :: fields, left)
    | none => return ([(String.ofList name, value)], ← expect? '\x7d' rest)

end

/-- Read a text that is one JSON value. -/
def ofText? (text : List Char) : Option Json := do
  let (value, rest) ← readValue (2 * text.length + 2) text
  if (skipSpace rest).isEmpty then return value else none

end UnitCheck.Json
