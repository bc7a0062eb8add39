/-
Binary numbers of double precision.

`Decimal.toBinary` rounds a decimal number to the nearest number `mantissa · 2 ^ exponent`
with at most 53 binary digits and an exponent of at least -1074; of two numbers equally
near, the one with the even mantissa is taken.  A number of 2 ^ 1024 or more overflows.
-/
import UnitCheck.Decimal.Basic

namespace UnitCheck

/-- The number `mantissa · 2 ^ exponent`, or its negative.  A mantissa below 2 ^ 52 has the
least exponent. -/
structure Binary where
  negative : Bool
  mantissa : Nat
  exponent : Int
deriving DecidableEq, Repr

namespace Binary

/-- The number of binary digits of a mantissa. -/
def precision : Nat := 53

/-- The least exponent. -/
def leastExponent : Int := -1074

/-- The greatest exponent. -/
def greatestExponent : Int := 971

end Binary

/-- The quotient of two numbers, rounded to the nearest; a half goes to the even neighbour. -/
def roundDiv (num den : Nat) : Nat :=
  let quotient := num / den
  let twice := 2 * (num % den)
  if twice < den then quotient
  else if twice = den then quotient + quotient % 2
  else quotient + 1

/-- The greatest `k` with `2 ^ k ≤ num / den`. -/
def logDiv (num den : Nat) : Int :=
  let k : Int := (num.log2 : Int) - den.log2
  if den * Nat.pow 2 k.toNat ≤ num * Nat.pow 2 (-k).toNat then k else k - 1

namespace Decimal

/-- Round to double precision; none on overflow. -/
def toBinary? (x : Decimal) : Option Binary :=
  let size : Int := (Nat.toDigits 10 x.digits).length + x.exponent
  if x.digits = 0 ∨ size < -400 then some ⟨x.negative, 0, Binary.leastExponent⟩
  else if 400 < size then none
  else
    let num := x.digits * Nat.pow 10 x.exponent.toNat
    let den := Nat.pow 10 (-x.exponent).toNat
    let exponent := max Binary.leastExponent (logDiv num den + 1 - Binary.precision)
    let mantissa :=
      roundDiv (num * Nat.pow 2 (-exponent).toNat) (den * Nat.pow 2 exponent.toNat)
    let (mantissa, exponent) :=
      if mantissa = Nat.pow 2 Binary.precision then (mantissa / 2, exponent + 1)
      else (mantissa, exponent)
    if Binary.greatestExponent < exponent then none else some ⟨x.negative, mantissa, exponent⟩

end Decimal

end UnitCheck
