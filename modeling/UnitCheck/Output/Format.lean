/-
The formats in which findings are shown.
-/
import UnitCheck.Json.Basic
import UnitCheck.Mismatch
import UnitCheck.Schema.TableReader

namespace UnitCheck

/-- A format of the output. -/
inductive Format where
  /-- Reports with snippets of the source. -/
  | stylish
  /-- One line for each finding. -/
  | compact
  | json
deriving DecidableEq, Repr

namespace Format

/-- The name of a format. -/
def name : Format → String
  | .stylish => "stylish"
  | .compact => "compact"
  | .json => "json"

/-- All formats. -/
def all : List Format :=
  [.stylish, .compact, .json]

/-- The format of a name. -/
def ofName? (name : String) : Option Format :=
  all.find? (·.name == name)

/-- The format of a name, or what is wrong with it. -/
def ofName (name : String) : Except Mismatch Format :=
  match ofName? name with
  | some format => .ok format
  | none => .error (.unknownVariant name (all.map Format.name))

/-- A format given by its name, or by an object whose only field has that name and the value
null. -/
def ofJson : Json → Except Mismatch Format
  | .str name => ofName name
  | .obj [(name, value)] => do
    let format ← ofName name
    match value with
    | .null => return format
    | other => throw (.wrongType other.found "unit")
  | .obj _ => .error (.wrongValue .map "map with a single key")
  | value => .error (.wrongType value.found "string or map")

end Format

end UnitCheck
