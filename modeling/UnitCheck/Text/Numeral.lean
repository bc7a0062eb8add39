/-
The numbers that texts of digits stand for, and numbers in base sixteen.
-/
namespace UnitCheck

/-- Is the character a decimal digit? -/
def isDigit (c : Char) : Bool :=
  '0' ≤ c && c ≤ '9'

/-- The value of a digit in a base up to sixteen, capital letters included. -/
def digitValue? (base : Nat) (c : Char) : Option Nat :=
  let value :=
    if isDigit c then some (c.toNat - '0'.toNat)
    else if 'a' ≤ c && c ≤ 'f' then some (c.toNat - 'a'.toNat + 10)
    else if 'A' ≤ c && c ≤ 'F' then some (c.toNat - 'A'.toNat + 10)
    else none
  value.filter (· < base)

/-- The number that digits stand for, with `acc` in front of them. -/
def ofDigitsFrom? (base acc : Nat) : List Char → Option Nat
  | [] => some acc
  | c :: digits => do
    let d ← digitValue? base c
    ofDigitsFrom? base (base * acc + d) digits

/-- The number that a non-empty text of digits stands for. -/
def ofDigits? (base : Nat) (digits : List Char) : Option Nat :=
  if digits.isEmpty then none else ofDigitsFrom? base 0 digits

/-- A natural number in base sixteen, with at least `width` digits. -/
def hexNumeral (width n : Nat) : List Char :=
  let digits := Nat.toDigits 16 n
  List.replicate (width - digits.length) '0' ++ digits

end UnitCheck
