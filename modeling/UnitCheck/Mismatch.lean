/-
Data that does not have the wanted shape.

A `Mismatch` says what is wrong with a value of a data format; `Mismatch.message` words it.
-/
import UnitCheck.Text.Quoted

namespace UnitCheck

/-- What was found in the place of something else. -/
inductive Found where
  /-- The null value, under the name that the data format gives it. -/
  | null (name : String)
  | bool (value : Bool)
  | int (value : Int)
  /-- A whole number that needs more than 64 bits, under the name of a type that holds it. -/
  | wideInt (value : Int) (type : String)
  /-- A number with a fraction, in the notation of the data format. -/
  | real (text : String)
  | str (text : String)
  | sequence
  | map

/-- A text between grave accents. -/
def ticked (text : String) : String :=
  "`" ++ text ++ "`"

/-- What was found, in words. -/
def Found.describe : Found → String
  | .null name => name
  | .bool value => "boolean " ++ ticked (if value then "true" else "false")
  | .int value => "integer " ++ ticked (toString value)
  | .wideInt value type => "integer " ++ ticked (toString value) ++ " as " ++ type
  | .real text => "floating point " ++ ticked text
  | .str text => "string " ++ String.ofList (showQuoted text.toList)
  | .sequence => "sequence"
  | .map => "map"

/-- What is wrong with a value. -/
inductive Mismatch where
  | wrongType (found : Found) (wanted : String)
  | wrongValue (found : Found) (wanted : String)
  | unknownField (name : String) (known : List String)
  | unknownVariant (name : String) (known : List String)
  | missingField (name : String)
  | duplicateField (name : String)

/-- The names to choose from, in words. -/
def alternatives : List String → String
  | [] => "nothing"
  | [a] => ticked a
  | [a, b] => ticked a ++ " or " ++ ticked b
  | names => "one of " ++ ", ".intercalate (names.map ticked)

/-- The wording of a mismatch. -/
def Mismatch.message : Mismatch → String
  | .wrongType found wanted => "invalid type: " ++ found.describe ++ ", expected " ++ wanted
  | .wrongValue found wanted => "invalid value: " ++ found.describe ++ ", expected " ++ wanted
  | .unknownField name known =>
    "unknown field " ++ ticked name ++ ", expected " ++ alternatives known
  | .unknownVariant name known =>
    "unknown variant " ++ ticked name ++ ", expected " ++ alternatives known
  | .missingField name => "missing field " ++ ticked name
  | .duplicateField name => "duplicate field " ++ ticked name

end UnitCheck
