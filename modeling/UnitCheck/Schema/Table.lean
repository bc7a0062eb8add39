/-
Tables of directives.

A table names the directives that belong to each section type.  Directives that several
section types share stand in groups, which a section type includes by name.
-/
import Std.Data.TreeMap

namespace UnitCheck

/-- Lists of directive names, by name of the list. -/
abbrev NameLists := Std.TreeMap String (List String)

/-- What a table says about a section type. -/
structure SectionRule where
  /-- The directives of this section type alone. -/
  directives : List String := []
  /-- The groups that it includes. -/
  groups : List String := []

/-- A table of groups and section types. -/
structure Table where
  groups : NameLists
  sections : Std.TreeMap String SectionRule

/-- Why a table is refused. -/
inductive SchemaError where
  | duplicateDirective (directive list : String)
  | undefinedGroup (sectionType group : String)
deriving DecidableEq, Repr

/-- The wording of the reason. -/
def SchemaError.message : SchemaError → String
  | .duplicateDirective directive list =>
    "directive '" ++ directive ++ "' is listed twice in '" ++ list ++ "'"
  | .undefinedGroup sectionType group =>
    "section type '" ++ sectionType ++ "' includes undefined group '" ++ group ++ "'"

end UnitCheck
