/-
The values of plain scalars.

A scalar without quotes and tag is null, a truth value, a whole number, a number with a
fraction, or else a text, whichever it can be first.
-/
import UnitCheck.Decimal.Shortest
import UnitCheck.Mismatch
import UnitCheck.Yaml.Event

namespace UnitCheck.Yaml

/-- Is the text a way to write null? -/
def isNull (text : List Char) : Bool :=
  ["null", "Null", "NULL", "~"].contains (String.ofList text)

/-- The truth value that a text stands for. -/
def bool? (text : List Char) : Option Bool :=
  if ["true", "True", "TRUE"].contains (String.ofList text) then some true
  else if ["false", "False", "FALSE"].contains (String.ofList text) then some false
  else none

/-- The text behind a word that it begins with. -/
def behind? (word text : List Char) : Option (List Char) :=
  if word.isPrefixOf text then some (text.drop word.length) else none

/-- The text without a sign in front of it. -/
def withoutSign : List Char → List Char
  | [] => []
  | c :: text => if c = '-' ∨ c = '+' then text else c :: text

/-- Does a text begin with a sign? -/
def isSigned (text : List Char) : Bool :=
  text.head?.any fun c => c == '+' || c == '-'

/-- Digits with a needless zero in front are a text, not a number. -/
def isPaddedDigits (text : List Char) : Bool :=
  let digits := withoutSign text
  1 < digits.length && digits.head? == some '0' && digits.all isDigit

/-- The ways to mark the base of a number. -/
def bases : List (List Char × Nat) :=
  [(['0', 'x'], 16), (['0', 'o'], 8), (['0', 'b'], 2)]

/-- A natural number below `limit`, in any base.  A plus sign may stand in front. -/
def natural? (limit : Nat) (text : List Char) : Option Nat :=
  let body := (behind? ['+'] text).getD text
  let marked := bases.findSome? fun (mark, base) =>
    (behind? mark body).map fun digits => (digits, base)
  let based := marked.bind fun (digits, base) => (ofDigits? base digits).filter (· < limit)
  match marked, based with
  | some (digits, _), none =>
    if isSigned digits then none else decimal body
  | _, some n => some n
  | none, none => decimal body
where
  /-- A number in base ten. -/
  decimal (body : List Char) : Option Nat :=
    if isSigned body || isPaddedDigits text then none
    else (ofDigits? 10 body).filter (· < limit)

/-- A negative number of at most `limit` below zero, in any base. -/
def negative? (limit : Nat) (text : List Char) : Option Int := do
  let body ← behind? ['-'] text
  let marked := bases.findSome? fun (mark, base) =>
    (behind? mark body).map fun digits => (digits, base)
  let based := marked.bind fun (digits, base) => (ofDigits? base digits).filter (· ≤ limit)
  let n ← based.or (if isPaddedDigits text then none else (ofDigits? 10 body).filter (· ≤ limit))
  return -(n : Int)

/-- A whole number, as messages show it. -/
def integer? (text : List Char) : Option Found :=
  ((natural? (Nat.pow 2 64) text).map fun n => Found.int n).or <|
  ((negative? (Nat.pow 2 63) text).map Found.int).or <|
  ((natural? (Nat.pow 2 128) text).map fun n => Found.wideInt n "u128").or <|
  (negative? (Nat.pow 2 127) text).map fun n => Found.wideInt n "i128"

/-- A number with a fraction, as messages show it. -/
def real? (text : List Char) : Option Found :=
  let body := (behind? ['+'] text).getD text
  if body.length < text.length && isSigned body then none
  else if [".inf", ".Inf", ".INF"].contains (String.ofList body) then some (.real "inf")
  else if ["-.inf", "-.Inf", "-.INF"].contains (String.ofList text) then some (.real "-inf")
  else if [".nan", ".NaN", ".NAN"].contains (String.ofList text) then some (.real "NaN")
  else do
    let x ← Decimal.ofText? body
    let b ← x.toBinary?
    return .real (String.ofList b.positional)

/-- What null is called. -/
def nullFound : Found :=
  .null "unit value"

/-- The value of a plain scalar without a tag, as messages show it. -/
def plainFound (text : List Char) : Found :=
  if text = [] || isNull text then nullFound
  else
    ((bool? text).map Found.bool).or (integer? text) |>.or
      (if isPaddedDigits text then none else real? text) |>.getD (.str (String.ofList text))

/-! ### Tags -/

/-- The full text of a standard tag. -/
def standardTag (name : String) : List Char :=
  "tag:yaml.org,2002:".toList ++ name.toList

namespace Scalar

/-- Does the scalar have the standard tag of this name? -/
def hasTag (scalar : Scalar) (name : String) : Bool :=
  scalar.tag == some (standardTag name)

/-- Is the scalar plain and empty, as if it were left out? -/
def isMissing (scalar : Scalar) : Bool :=
  scalar.text == [] && scalar.style == .plain

/-- Does the tag of a scalar begin with an exclamation mark? -/
def hasLocalTag (scalar : Scalar) : Bool :=
  scalar.tag.any (·.head? == some '!')

/-- What is wrong with a scalar in the place of something else.  A tag of a standard type that
does not fit the text is the first thing to be wrong. -/
def mismatch (scalar : Scalar) (wanted : String) : Mismatch :=
  let text := String.ofList scalar.text
  let typed := fun (found : Option Found) (type : String) =>
    match found with
    | some found => Mismatch.wrongType found wanted
    | none => .wrongValue (.str text) type
  if scalar.hasTag "bool" then typed ((bool? scalar.text).map Found.bool) "a boolean"
  else if scalar.hasTag "int" then typed (integer? scalar.text) "an integer"
  else if scalar.hasTag "float" then typed (real? scalar.text) "a float"
  else if scalar.hasTag "null" then
    typed (if isNull scalar.text then some nullFound else none) "null"
  else if scalar.style == .plain && (scalar.tag.isNone || scalar.hasLocalTag) then
    .wrongType (plainFound scalar.text) wanted
  else .wrongType (.str text) wanted

end Scalar

end UnitCheck.Yaml
