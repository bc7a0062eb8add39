/-
The outline of a document and its canonical text.

An outline keeps the names, keys and values and forgets where they stood.  Its canonical text
has one line for each section header and one for each directive.  A value that ends in a
backslash gets one more, which is then a continuation mark, and the empty line behind it ends
the continuation at once.
-/
import UnitCheck.Document.Basic

namespace UnitCheck

/-- A section without the places of its parts: its name, and its keys with their values. -/
structure SectionOutline where
  name : String
  entries : List (String × String)
deriving DecidableEq, Repr

/-- The outline of a section. -/
def Section.outline (sec : Section) : SectionOutline :=
  ⟨sec.name, sec.directives.map fun directive => (directive.key, directive.value)⟩

/-- The outline of a document. -/
def Document.outline (document : Document) : List SectionOutline :=
  document.sections.map Section.outline

namespace SectionOutline

/-- What stands behind a value: a line break, and one that ends a continuation if the value
ends in a backslash. -/
def lineEnd (value : List Char) : List Char :=
  if value.getLast? = some '\\' then ['\\', '\n', '\n'] else ['\n']

/-- The text of a directive. -/
def entryText (entry : String × String) : List Char :=
  entry.1.toList ++ '=' :: (entry.2.toList ++ lineEnd entry.2.toList)

/-- The text of a section. -/
def text (sec : SectionOutline) : List Char :=
  '[' :: (sec.name.toList ++ ']' :: '\n' :: sec.entries.flatMap entryText)

end SectionOutline

/-- The canonical text of an outline. -/
def canonicalText (outline : List SectionOutline) : List Char :=
  outline.flatMap SectionOutline.text

end UnitCheck
