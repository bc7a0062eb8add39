/-
The registry: which directives each section type allows.

A registry is built from a table that lists no directive twice and includes only groups that
it defines.  The set of all directives that a section type allows is worked out then, once.
A registry can be extended by further directives for some section types.

Names that begin with `X-` belong to vendors and are never judged.
-/
import Std.Data.TreeSet
import UnitCheck.Schema.Builtin

namespace UnitCheck

/-- What is known about a section type. -/
structure SectionType where
  /-- The directives of this section type alone. -/
  directives : Std.TreeSet String
  /-- The groups that it includes. -/
  groups : List String
  /-- All directives that it allows: its own and those of the groups. -/
  allowed : Std.TreeSet String

/-- The known section types and groups. -/
structure Registry where
  groups : Std.TreeMap String (Std.TreeSet String)
  sections : Std.TreeMap String SectionType

/-- How a section is treated, by its name. -/
inductive SectionClass where
  /-- A section of a vendor. -/
  | exempt
  /-- A section of a known type. -/
  | known (type : SectionType)
  /-- A section of a type that the registry does not know. -/
  | unknown

/-- Does a section name or key belong to a vendor? -/
def isVendor (name : String) : Bool :=
  ['X', '-'].isPrefixOf name.toList

theorem isVendor_iff {name : String} : isVendor name = true ↔ ['X', '-'] <+: name.toList :=
  List.isPrefixOf_iff_prefix

namespace SectionType

/-- A section type without directives. -/
def empty : SectionType :=
  ⟨∅, [], ∅⟩

/-- Does the section type allow a directive? -/
def allows (type : SectionType) (key : String) : Bool :=
  type.allowed.contains key

/-- Add directives to a section type. -/
def extend (type : SectionType) (names : List String) : SectionType where
  directives := type.directives.insertMany names
  groups := type.groups
  allowed := type.allowed.insertMany names

end SectionType

namespace Registry

/-- A registry that knows nothing. -/
def empty : Registry :=
  ⟨∅, ∅⟩

/-! ### Building a registry from a table -/

/-- The set of the names in a list, which must not hold a name twice. -/
def distinct (list : String) (names : List String) : Except SchemaError (Std.TreeSet String) :=
  names.foldlM (fun seen name =>
    if seen.contains name then .error (.duplicateDirective name list)
    else .ok (seen.insert name)) ∅

/-- Add the directives of groups, which must be defined, to a set. -/
def includeGroups (groups : Std.TreeMap String (Std.TreeSet String)) (sectionType : String)
    (direct : Std.TreeSet String) (names : List String) :
    Except SchemaError (Std.TreeSet String) :=
  names.foldlM (fun allowed name =>
    match groups[name]? with
    | some members => .ok (allowed ∪ members)
    | none => .error (.undefinedGroup sectionType name)) direct

/-- The section type that a rule describes. -/
def sectionOfRule (groups : Std.TreeMap String (Std.TreeSet String)) (name : String)
    (rule : SectionRule) : Except SchemaError SectionType := do
  let direct ← distinct name rule.directives
  let allowed ← includeGroups groups name direct rule.groups
  return ⟨direct, rule.groups, allowed⟩

/-- The groups of a table, read in the order of their names. -/
def groupsOfTable (lists : List (String × List String)) :
    Except SchemaError (Std.TreeMap String (Std.TreeSet String)) :=
  lists.foldlM (fun groups (name, names) => do
    return groups.insert name (← distinct name names)) ∅

/-- The section types of a table, read in the order of their names. -/
def sectionsOfTable (groups : Std.TreeMap String (Std.TreeSet String))
    (rules : List (String × SectionRule)) :
    Except SchemaError (Std.TreeMap String SectionType) :=
  rules.foldlM (fun sections (name, rule) => do
    return sections.insert name (← sectionOfRule groups name rule)) ∅

/-- Build a registry.  The groups are looked at first, then the section types, both in the
order of their names, and the first fault is reported. -/
def ofTable (table : Table) : Except SchemaError Registry := do
  let groups ← groupsOfTable table.groups.toList
  let sections ← sectionsOfTable groups table.sections.toList
  return ⟨groups, sections⟩

/-- The registry of the built-in table. -/
def builtin : Registry :=
  match ofTable Table.builtin with
  | .ok registry => registry
  | .error _ => empty

/-! ### Using a registry -/

/-- Add directives to one section type, which is created if need be. -/
def extendSection (registry : Registry) (name : String) (names : List String) : Registry where
  groups := registry.groups
  sections :=
    registry.sections.insert name ((registry.sections.getD name .empty).extend names)

/-- Add directives to section types. -/
def extend (registry : Registry) (extra : NameLists) : Registry :=
  extra.foldl extendSection registry

/-- The treatment of the sections of a name. -/
def classify (registry : Registry) (name : String) : SectionClass :=
  if isVendor name then .exempt
  else match registry.sections[name]? with
    | some type => .known type
    | none => .unknown

/-- The names of the known section types in order. -/
def sectionTypes (registry : Registry) : List String :=
  registry.sections.keys

end Registry

end UnitCheck
