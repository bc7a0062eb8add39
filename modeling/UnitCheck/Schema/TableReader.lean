/-
Reading a table from JSON data.

A table is an object with the fields `groups`, lists of names by group, and `sections`, rules
by section type.  A rule has the fields `directives` and `groups`, which may be left out.
Fields are looked at in the order of their names and the first fault is reported.
-/
import UnitCheck.Decimal.Shortest
import UnitCheck.Json.Basic
import UnitCheck.Mismatch
import UnitCheck.Schema.Table

namespace UnitCheck

namespace Json

/-- A number with a fraction: rounded to double precision, with an exponent if need be. -/
def describeReal (x : Decimal) : Found :=
  match x.toBinary? with
  | some b => .real (String.ofList b.scientific)
  | none => .real (if x.negative then "-inf" else "inf")

/-- What a JSON value is called in a mismatch.  Whole numbers beyond 64 bits count as numbers
with a fraction. -/
def found : Json → Found
  | .null => .null "null"
  | .bool value => .bool value
  | .int n =>
    if -Int.pow 2 63 ≤ n ∧ n < Int.pow 2 64 then .int n
    else describeReal ⟨n < 0, n.natAbs, 0⟩
  | .real x => describeReal x
  | .str text => .str text
  | .arr _ => .sequence
  | .obj _ => .map

/-- The fields of an object by name: of several of one name the last. -/
def byName (fields : List (String × Json)) : Std.TreeMap String Json :=
  .ofList fields

end Json

namespace Table

/-- A name in a list. -/
def readName : Json → Except Mismatch String
  | .str name => .ok name
  | value => .error (.wrongType value.found "a string")

/-- A list of names. -/
def readNames : Json → Except Mismatch (List String)
  | .arr items => items.mapM readName
  | value => .error (.wrongType value.found "a sequence")

/-- The values of the fields of an object. -/
def readMap {α : Type} (read : Json → Except Mismatch α) :
    Json → Except Mismatch (Std.TreeMap String α)
  | .obj fields =>
    (Json.byName fields).toList.foldlM (fun acc (name, value) => do
      return acc.insert name (← read value)) ∅
  | value => .error (.wrongType value.found "a map")

/-- The rule of a section type. -/
def readRule : Json → Except Mismatch SectionRule
  | .obj fields =>
    (Json.byName fields).toList.foldlM (fun rule (name, value) => do
      if name = "directives" then return { rule with directives := ← readNames value }
      else if name = "groups" then return { rule with groups := ← readNames value }
      else throw (.unknownField name ["directives", "groups"])) {}
  | value => .error (.wrongType value.found "struct SectionEntry")

/-- The two parts of a table that have been read so far. -/
structure Parts where
  groups : Option NameLists := none
  sections : Option (Std.TreeMap String SectionRule) := none

/-- A table. -/
def ofJson : Json → Except Mismatch Table
  | .obj fields => do
    let parts ← (Json.byName fields).toList.foldlM (fun (parts : Parts) (name, value) => do
      if name = "groups" then return { parts with groups := some (← readMap readNames value) }
      else if name = "sections" then
        return { parts with sections := some (← readMap readRule value) }
      else throw (.unknownField name ["groups", "sections"])) {}
    match parts.groups, parts.sections with
    | none, _ => throw (.missingField "groups")
    | _, none => throw (.missingField "sections")
    | some groups, some sections => return ⟨groups, sections⟩
  | value => .error (.wrongType value.found "struct SchemaTable")

end Table

end UnitCheck
