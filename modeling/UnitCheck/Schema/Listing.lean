/-
Lists of section types and of the directives that one of them allows.
-/
import UnitCheck.Schema.Registry

namespace UnitCheck

/-- The directives that a section type allows, by where they come from. -/
structure Listing where
  /-- The directives of the section type alone. -/
  direct : List String
  /-- The groups that it includes, each with its directives. -/
  groups : List (String × List String)
deriving DecidableEq, Repr

namespace Listing

/-- All directives of a listing. -/
def directives (listing : Listing) : List String :=
  listing.direct ++ listing.groups.flatMap (·.2)

/-- A listing as lines. -/
def lines (listing : Listing) (name : String) : List String :=
  ("[" ++ name ++ "]") :: listing.direct.map ("  " ++ ·) ++
    listing.groups.flatMap fun (group, members) =>
      ["", "From " ++ group ++ ":"] ++ members.map ("  " ++ ·)

end Listing

namespace Registry

/-- The directives of a group: none if the group is not defined. -/
def groupMembers (registry : Registry) (name : String) : List String :=
  (registry.groups[name]?.map (·.toList)).getD []

/-- The directives that a section type allows. -/
def listing? (registry : Registry) (name : String) : Option Listing :=
  registry.sections[name]?.map fun type =>
    ⟨type.directives.toList, type.groups.map fun group => (group, registry.groupMembers group)⟩

/-- The line of a section type: its name and the groups that it includes. -/
def typeLine (name : String) (type : SectionType) : String :=
  if type.groups.isEmpty then "  " ++ name
  else "  " ++ name ++ " (+ " ++ ", ".intercalate type.groups ++ ")"

/-- The section types as lines. -/
def typeLines (registry : Registry) : List String :=
  "Section types:" :: registry.sections.toList.map fun (name, type) => typeLine name type

end Registry

end UnitCheck
