/-
The command that lists section types and directives.
-/
import UnitCheck.Command.Invocation
import UnitCheck.Command.Session
import UnitCheck.Schema.Listing

namespace UnitCheck

namespace Schema

/-- The lines of a list: the section types, or the directives of one. -/
def lines (registry : Registry) : Option String → Except Failure (List String)
  | none => .ok registry.typeLines
  | some name =>
    match registry.listing? name with
    | some listing => .ok (listing.lines name)
    | none => .error (.unknownSection name)

/-- List section types or directives. -/
def run (session : Session) (options : SchemaOptions) : Logged Page := do
  let config ← session.config options.config
  let lines ← Logged.ofExcept (lines config.registry (options.sectionType.map String.ofList))
  return ⟨String.join (lines.map (· ++ "\n")), 0⟩

end Schema

end UnitCheck
