/-
The configuration of a check.
-/
import UnitCheck.Output.Format
import UnitCheck.Schema.Registry

namespace UnitCheck

/-- What a configuration file can say. -/
structure Config where
  /-- Further directives, by section type. -/
  extraDirectives : NameLists := ∅
  /-- Do findings make the check fail? -/
  strict : Option Bool := none
  format : Option Format := none

namespace Config

/-- The registry that a configuration asks for. -/
def registry (config : Config) : Registry :=
  if config.extraDirectives.isEmpty then .builtin
  else Registry.builtin.extend config.extraDirectives

end Config

end UnitCheck
