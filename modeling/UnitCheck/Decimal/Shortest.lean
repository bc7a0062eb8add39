/-
The shortest decimal text of a binary number.

`Binary.shortest` is the decimal number with the fewest digits that rounds to the given
binary number; among those of equally many digits it is the nearest one.  Two notations
are built on it: `positional` writes all places, `scientific` changes to an exponent for
numbers that are very large or very small.
-/
import UnitCheck.Decimal.Binary

namespace UnitCheck

namespace Binary

/-- A number as a fraction of natural numbers, four times as large. -/
def quadruple (x : Binary) : Nat × Nat :=
  (4 * x.mantissa * Nat.pow 2 x.exponent.toNat, Nat.pow 2 (-x.exponent).toNat)

/-- Does the fraction `num / den`, four times a decimal number, round to `x`? -/
def rounds (x : Binary) (num den : Nat) : Bool :=
  let unit := Nat.pow 2 x.exponent.toNat
  let scale := Nat.pow 2 (-x.exponent).toNat
  -- Below a power of two the neighbours are twice as close.
  let down :=
    if x.mantissa = Nat.pow 2 (precision - 1) ∧ leastExponent < x.exponent then 1 else 2
  let low := (4 * x.mantissa - down) * unit * den
  let high := (4 * x.mantissa + 2) * unit * den
  let value := num * scale
  if x.mantissa % 2 = 0 then low ≤ value && value ≤ high else low < value && value < high

/-- The number of digits of the whole part of `num / den` for a number of at least one; for
a smaller one, minus the number of zeros behind its point. -/
def decimalSize (num den : Nat) : Int :=
  if den ≤ num then (Nat.toDigits 10 (num / den)).length
  else 1 - (Nat.toDigits 10 ((den + num - 1) / num - 1)).length

/-- The best decimal number with the given exponent, if one rounds to `x`: the one below or
the one above, whichever is nearer; of two equally near the one above. -/
def candidate? (x : Binary) (exponent : Int) : Option Nat :=
  let (num, den) := x.quadruple
  let up := Nat.pow 10 exponent.toNat
  let down := Nat.pow 10 (-exponent).toNat
  let below := num * down / (4 * den * up)
  let fits := fun n => x.rounds (4 * n * up) down
  -- The distance to the number below, compared with half a step.
  let nearBelow := 2 * (num * down) < (2 * below + 1) * (4 * den * up)
  match fits below, fits (below + 1) with
  | true, true => some (if nearBelow then below else below + 1)
  | true, false => some below
  | false, true => some (below + 1)
  | false, false => none

/-- The digits and the exponent of the shortest decimal number, with no zero at the end. -/
def shortest (x : Binary) : Nat × Int :=
  if x.mantissa = 0 then (0, 0)
  else
    let (num, den) := x.quadruple
    let size := decimalSize num (4 * den)
    let found := (List.range 18).findSome? fun (n : Nat) =>
      (x.candidate? (size - n)).bind fun d => if d = 0 then none else some (d, size - n)
    dropZeros (found.getD (0, 0))
where
  /-- Move zeros at the end of the digits into the exponent. -/
  dropZeros (x : Nat × Int) : Nat × Int :=
    let digits := Nat.toDigits 10 x.1
    let kept := (digits.reverse.dropWhile (· == '0')).reverse
    (((ofDigits? 10 kept).getD 0), x.2 + (digits.length - kept.length : Nat))

/-- The sign of a number as a text. -/
def signText (x : Binary) : List Char :=
  if x.negative then ['-'] else []

/-- Digits with a point `places` from the left; a whole number gets a zero behind it. -/
def placePoint (digits : List Char) (places : Int) : List Char :=
  if places ≤ 0 then
    ['0', '.'] ++ List.replicate (-places).toNat '0' ++ digits
  else
    let whole := digits.take places.toNat
    let fraction := digits.drop places.toNat
    whole ++ List.replicate (places.toNat - whole.length) '0' ++ ['.'] ++
      (if fraction.isEmpty then ['0'] else fraction)

/-- All places of a number, with at least one digit on each side of the point. -/
def positional (x : Binary) : List Char :=
  let (n, exponent) := x.shortest
  let digits := Nat.toDigits 10 n
  x.signText ++ placePoint digits (digits.length + exponent)

/-- A number with an exponent if its point is more than sixteen places to the right of its
first digit or more than five to the left. -/
def scientific (x : Binary) : List Char :=
  let (n, exponent) := x.shortest
  let digits := Nat.toDigits 10 n
  let places : Int := digits.length + exponent
  if -5 < places ∧ places ≤ 16 then x.signText ++ placePoint digits places
  else
    let power := places - 1
    let head := if digits.length = 1 then digits else digits.take 1 ++ ['.'] ++ digits.drop 1
    x.signText ++ head ++ ['e'] ++ (if power < 0 then ['-'] else []) ++
      Nat.toDigits 10 power.natAbs

end Binary

end UnitCheck
