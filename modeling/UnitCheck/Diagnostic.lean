/-
Judging a unit file.

Each directive of a section of a known type is looked up in the registry.  One that the
section type does not allow gets a diagnostic, unless its key belongs to a vendor.
-/
import UnitCheck.Document.Basic
import UnitCheck.Schema.Registry

namespace UnitCheck

/-- How grave a diagnostic is.  A directive may be new to the registry, so nothing is graver
than a warning. -/
inductive Severity where
  | warning
deriving DecidableEq, Repr

/-- The severity in words. -/
def Severity.text : Severity → String
  | .warning => "warning"

/-- A remark on a stretch of the text. -/
structure Diagnostic where
  span : Span
  severity : Severity
  message : String
deriving DecidableEq, Repr

namespace Diagnostic

/-- The message on a directive that its section does not allow. -/
def unrecognizedMessage : String :=
  "Unrecognized directive for this section"

/-- The diagnostic of a directive that its section does not allow. -/
def unrecognized (keySpan : Span) : Diagnostic :=
  ⟨keySpan, .warning, unrecognizedMessage⟩

end Diagnostic

namespace Registry

/-- Is a directive out of place in a section of the given type? -/
def flags (type : SectionType) (directive : Directive) : Bool :=
  !isVendor directive.key && !type.allows directive.key

/-- The diagnostics of a section. -/
def validateSection (registry : Registry) (sec : Section) : List Diagnostic :=
  match registry.classify sec.name with
  | .known type =>
    (sec.directives.filter (flags type)).map fun directive => .unrecognized directive.keySpan
  | .exempt | .unknown => []

/-- The diagnostics of a document, in the order of its text. -/
def validate (registry : Registry) (document : Document) : List Diagnostic :=
  document.sections.flatMap registry.validateSection

/-- The names of the sections that are passed over because their type is not known. -/
def unknownSections (registry : Registry) (document : Document) : List String :=
  (document.sections.filter fun sec =>
    match registry.classify sec.name with
    | .unknown => true
    | .exempt | .known _ => false).map (·.name)

end Registry

end UnitCheck
