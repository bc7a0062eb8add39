/-
Decimal numbers with a power of ten, as they are written in data formats.
-/
import UnitCheck.Text.Numeral

namespace UnitCheck

/-- The number `digits · 10 ^ exponent`, or its negative. -/
structure Decimal where
  negative : Bool
  digits : Nat
  exponent : Int
deriving DecidableEq, Repr

namespace Decimal

/-- A sign in front, if there is one, and the rest. -/
def splitSign : List Char → Bool × List Char
  | [] => (false, [])
  | c :: text => if c = '-' then (true, text) else if c = '+' then (false, text) else (false, c :: text)

/-- The exponent behind the mark `e`. -/
def readExponent? : List Char → Option Int
  | [] => some 0
  | c :: text =>
    if c = 'e' ∨ c = 'E' then
      let (negative, digits) := splitSign text
      (ofDigits? 10 digits).map fun n => if negative then -(n : Int) else n
    else none

/-- Read a decimal number: an optional sign, digits with an optional point among or around
them, and an optional exponent. -/
def ofText? (text : List Char) : Option Decimal := do
  let (negative, body) := splitSign text
  let whole := body.takeWhile isDigit
  let rest := body.dropWhile isDigit
  let (fraction, rest) :=
    if rest.head? = some '.' then (rest.tail.takeWhile isDigit, rest.tail.dropWhile isDigit)
    else ([], rest)
  let digits ← ofDigits? 10 (whole ++ fraction)
  let exponent ← readExponent? rest
  return ⟨negative, digits, exponent - fraction.length⟩

end Decimal

end UnitCheck
