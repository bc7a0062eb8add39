/-
The findings of a checked file.

A finding needs a position and a key, and a diagnostic whose span did not lie in the text would have
neither and be passed over.  The spans of the diagnostics on a text do lie in it, so every diagnostic
has its finding, in the same order (`IsJudgedBy.forall₂_findings`).
-/
import UnitCheck.CheckedFile
import UnitCheck.Proofs.Document.WellFormed
import UnitCheck.Proofs.ListRelations
import UnitCheck.Proofs.Positions

namespace UnitCheck

/-- The diagnostics of the file are those of its text. -/
def CheckedFile.IsJudgedBy (registry : Registry) (file : CheckedFile) : Prop :=
  file.diagnostics = registry.validate (Document.parse file.text.toList)

/-- The finding is that of a diagnostic on a text: its key is what the span covers, and its position
is that of the start of the span. -/
structure Finding.Shows (text : List Char) (diagnostic : Diagnostic) (finding : Finding) : Prop where
  key_eq : diagnostic.span.slice? text = some finding.key.toList
  span_eq : finding.span = diagnostic.span
  position_eq : (LineIndex.ofText text).position? diagnostic.span.start = some finding.position
  severity_eq : finding.severity = diagnostic.severity
  message_eq : finding.message = diagnostic.message

lemma finding?_eq_some {text key : List Char} {position : Position} {diagnostic : Diagnostic}
    (hposition : (LineIndex.ofText text).position? diagnostic.span.start = some position)
    (hslice : diagnostic.span.slice? text = some key) :
    CheckedFile.finding? (.ofText text) diagnostic =
      some ⟨String.ofList key, diagnostic.span, position, diagnostic.severity,
        diagnostic.message⟩ := by
  have htext : (LineIndex.ofText text).text = text := rfl
  simp [CheckedFile.finding?, hposition, htext, hslice]

/-- The diagnostics mark keys that stand behind the first line, each on a line of its own. -/
lemma exists_rows_validate (registry : Registry) (text : List Char) :
    ∃ rows : List Row, registry.validate (Document.parse text) =
        rows.map (fun row => .unrecognized (row.line.trimmedSpan (keyPart row.line.text))) ∧
      rows.Pairwise (fun a b => a.number < b.number) ∧
      ∀ row ∈ rows, HoldsKey (physicalLines text) row ∧ 0 < row.number := by
  obtain ⟨layout, hlayout⟩ := exists_layout text
  have hsublist := registry.validate_sublist (Document.parse text)
  rw [hlayout.directives_eq, List.map_map, List.sublist_map_iff] at hsublist
  obtain ⟨rows, hrows, hvalidate⟩ := hsublist
  refine ⟨rows, hvalidate, hlayout.keys_increasing.sublist hrows, fun row hrow => ?_⟩
  exact ⟨hlayout.holdsKey_of_mem (hrows.subset hrow), hlayout.number_pos (hrows.subset hrow)⟩

lemma exists_row_of_mem_validate {registry : Registry} {text : List Char} {diagnostic : Diagnostic}
    (h : diagnostic ∈ registry.validate (Document.parse text)) :
    ∃ row, HoldsKey (physicalLines text) row ∧ 0 < row.number ∧
      diagnostic = .unrecognized (row.line.trimmedSpan (keyPart row.line.text)) := by
  obtain ⟨rows, hvalidate, -, hrows⟩ := exists_rows_validate registry text
  rw [hvalidate] at h
  obtain ⟨row, hrow, rfl⟩ := List.mem_map.1 h
  exact ⟨row, (hrows row hrow).1, (hrows row hrow).2, rfl⟩

/-- The finding of a diagnostic is there, and its key could stand in a unit file. -/
lemma exists_finding_of_mem_validate {registry : Registry} {text : List Char}
    {diagnostic : Diagnostic} (h : diagnostic ∈ registry.validate (Document.parse text)) :
    ∃ finding, CheckedFile.finding? (.ofText text) diagnostic = some finding ∧
      finding.Shows text diagnostic ∧ IsKey finding.key.toList ∧
      finding.message = Diagnostic.unrecognizedMessage := by
  obtain ⟨row, hrow, hnumber, rfl⟩ := exists_row_of_mem_validate h
  have hposition := hrow.position_key hnumber
  have hslice := hrow.covers_key.slice_eq
  have hkey := isKey_of_holdsKey (fun _ => newline_not_mem_of_mem_physicalLines) hrow
  set span := row.line.trimmedSpan (keyPart row.line.text)
  set key := trim (keyPart row.line.text)
  set position : Position := ⟨row.number + 1, (indentation (keyPart row.line.text)).length + 1⟩
  refine ⟨_, finding?_eq_some hposition hslice, ⟨?_, rfl, hposition, rfl, rfl⟩, ?_, rfl⟩
  · rw [String.toList_ofList]
    exact hslice
  · rw [String.toList_ofList]
    exact hkey

namespace CheckedFile.IsJudgedBy

variable {registry : Registry} {file : CheckedFile}

/-- Every diagnostic has its finding, and none has two. -/
lemma forall₂_findings (h : file.IsJudgedBy registry) :
    List.Forall₂ (Finding.Shows file.text.toList) file.diagnostics file.findings := by
  refine forall₂_filterMap fun diagnostic hdiagnostic => ?_
  rw [h] at hdiagnostic
  obtain ⟨finding, hfinding, hshows, -⟩ := exists_finding_of_mem_validate hdiagnostic
  exact ⟨finding, hfinding, hshows⟩

end CheckedFile.IsJudgedBy

end UnitCheck
