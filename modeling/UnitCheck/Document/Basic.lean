/-
Unit files as data: a document is a list of sections, a section a list of directives.

The spans tell where in the text the section headers and the keys stand.
-/
import UnitCheck.Span

namespace UnitCheck

/-- An assignment `key=value`.  The value is in one piece, whatever lines it was written on. -/
structure Directive where
  key : String
  /-- Where the key stands in the text. -/
  keySpan : Span
  value : String
deriving DecidableEq, Repr

/-- A section: its header and the directives below it. -/
structure Section where
  /-- The name between the brackets of the header. -/
  name : String
  /-- Where the header stands in the text, brackets included. -/
  span : Span
  directives : List Directive
deriving DecidableEq, Repr

/-- A unit file, in the order of its text. -/
structure Document where
  sections : List Section
deriving DecidableEq, Repr

namespace Section

/-- The value of the first directive with the given key. -/
def value? (sec : Section) (key : String) : Option String :=
  (sec.directives.find? (·.key == key)).map (·.value)

end Section

namespace Document

/-- The sections of the given name, in the order of the text. -/
def sectionsNamed (document : Document) (name : String) : List Section :=
  document.sections.filter (·.name == name)

/-- The directives of all sections, in the order of the text. -/
def directives (document : Document) : List Directive :=
  document.sections.flatMap (·.directives)

/-- The number of directives of all sections. -/
def directiveCount (document : Document) : Nat :=
  document.directives.length

end Document

end UnitCheck
