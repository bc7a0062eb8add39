/-
A checked file: its text with the diagnostics on it, and the findings that reports show.
-/
import UnitCheck.Diagnostic
import UnitCheck.Document.Reader
import UnitCheck.LineIndex

namespace UnitCheck

/-- A diagnostic with the key that it is about and the place where the key stands. -/
structure Finding where
  key : String
  span : Span
  position : Position
  severity : Severity
  message : String
deriving DecidableEq, Repr

/-- A file with the diagnostics on its text. -/
structure CheckedFile where
  path : String
  text : String
  diagnostics : List Diagnostic
deriving DecidableEq, Repr

namespace CheckedFile

/-- Check the text of a file. -/
def ofText (registry : Registry) (path text : String) : CheckedFile :=
  ⟨path, text, registry.validate (Document.parse text.toList)⟩

/-- The finding of a diagnostic on an indexed text, if its span lies in the text. -/
def finding? (index : LineIndex) (diagnostic : Diagnostic) : Option Finding := do
  let position ← index.position? diagnostic.span.start
  let key ← diagnostic.span.slice? index.text
  return ⟨String.ofList key, diagnostic.span, position, diagnostic.severity, diagnostic.message⟩

/-- The findings of a file, in the order of its diagnostics. -/
def findings (file : CheckedFile) : List Finding :=
  file.diagnostics.filterMap (finding? (.ofText file.text.toList))

end CheckedFile

end UnitCheck
