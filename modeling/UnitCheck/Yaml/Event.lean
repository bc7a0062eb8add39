/-
The events of a YAML text: the beginnings and ends of its documents and collections, and its
scalars and aliases, in order.
-/
import UnitCheck.Yaml.Token

namespace UnitCheck.Yaml

/-- A scalar with its tag. -/
structure Scalar where
  text : List Char
  style : ScalarStyle
  tag : Option (List Char)
deriving DecidableEq, Repr

/-- An event. -/
inductive EventKind where
  | documentStart
  | documentEnd
  | streamEnd
  | aliasOf (name : List Char)
  | scalar (value : Scalar) (anchor : Option (List Char))
  | sequenceStart (tag anchor : Option (List Char))
  | sequenceEnd
  | mappingStart (tag anchor : Option (List Char))
  | mappingEnd
deriving DecidableEq, Repr

/-- An event with the place where it begins. -/
structure Event where
  kind : EventKind
  mark : Mark
deriving DecidableEq, Repr

/-- The events of a text up to its end or its first fault. -/
structure EventStream where
  events : List Event
  fault : Option Fault

end UnitCheck.Yaml
