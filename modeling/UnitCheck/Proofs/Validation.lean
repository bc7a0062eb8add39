/-
Validation by lines.

Which lines of a text are flagged is said here in terms of the physical lines alone: the line holds
a key, the key does not belong to a vendor, and the last section header before it opens a section of
a known type that does not allow the key.  The diagnostics of a text are those of its flagged lines,
in order.
-/
import UnitCheck.Proofs.Document.Spans

namespace UnitCheck

/-- The registry knows the section type of this name, and that type does not allow the key.  Names
and keys that begin with `X-` belong to vendors. -/
structure Registry.Rejects (registry : Registry) (name key : List Char) : Prop where
  name_not_vendor : ¬ ['X', '-'] <+: name
  key_not_vendor : ¬ ['X', '-'] <+: key
  not_allowed : ∃ type, registry.sections[String.ofList name]? = some type ∧
    String.ofList key ∉ type.allowed

/-- The line holds a key that the registry rejects in the section of the last header before it. -/
def Flagged (registry : Registry) (lines : List Line) (row : Row) : Prop :=
  ∃ header name, Under lines header row ∧ IsHeader header.line.text name ∧
    registry.Rejects name (trim (keyPart row.line.text))

/-- Does the registry judge the key on a line to be out of place below a header? -/
def Registry.judges (registry : Registry) (lines : List Line) (header row : Row) : Bool :=
  match registry.classify (String.ofList (trim header.line.text).tail.dropLast) with
  | .known type => flags type (directiveOn lines row)
  | .exempt | .unknown => false

lemma Registry.judges_iff_rejects {registry : Registry} {lines : List Line} {header row : Row}
    {name : List Char} (hname : IsHeader header.line.text name) :
    registry.judges lines header row = true ↔
      registry.Rejects name (trim (keyPart row.line.text)) := by
  have hkey : ∀ type, flags type (directiveOn lines row) = true ↔
      ¬ ['X', '-'] <+: trim (keyPart row.line.text) ∧
        String.ofList (trim (keyPart row.line.text)) ∉ type.allowed := by
    intro type
    simp only [flags, directiveOn, SectionType.allows, Bool.and_eq_true, Bool.not_eq_true',
      ← Bool.not_eq_true, isVendor_iff, String.toList_ofList, Std.TreeSet.contains_iff_mem]
  rw [judges, hname.tail_dropLast, classify]
  by_cases hvendor : isVendor (String.ofList name) = true
  · rw [if_pos hvendor]
    rw [isVendor_iff, String.toList_ofList] at hvendor
    exact ⟨fun h => absurd h (by simp), fun h => absurd hvendor h.name_not_vendor⟩
  · rw [if_neg hvendor]
    rw [isVendor_iff, String.toList_ofList] at hvendor
    rcases htype : registry.sections[String.ofList name]? with _ | type
    · refine ⟨fun h => absurd h (by simp), fun h => ?_⟩
      obtain ⟨type, hsome, -⟩ := h.not_allowed
      exact absurd (htype.symm.trans hsome) (by simp)
    · constructor
      · intro h
        obtain ⟨hkeyVendor, hallowed⟩ := (hkey type).1 h
        exact ⟨hvendor, hkeyVendor, type, htype, hallowed⟩
      · rintro ⟨-, hkeyVendor, type', hsome, hallowed⟩
        obtain rfl : type = type' := Option.some.inj (htype.symm.trans hsome)
        exact (hkey type).2 ⟨hkeyVendor, hallowed⟩

lemma Registry.validateSection_sectionOn (registry : Registry) (lines : List Line) (header : Row)
    (keys : List Row) :
    registry.validateSection (sectionOn lines header keys) =
      (keys.filter (registry.judges lines header)).map fun row =>
        .unrecognized (row.line.trimmedSpan (keyPart row.line.text)) := by
  unfold validateSection judges
  rw [sectionOn]
  rcases registry.classify (String.ofList (trim header.line.text).tail.dropLast) with _ | type | _
  · simp
  · simp only [List.filter_map, List.map_map]
    rfl
  · simp

namespace Document.HasLayout

variable {lines : List Line} {document : Document} {layout : List (Row × List Row)}

/-- The lines of a layout that are judged to be out of place are the flagged ones. -/
lemma mem_judged_iff (h : document.HasLayout lines layout) (registry : Registry) (row : Row) :
    row ∈ layout.flatMap (fun block => block.2.filter (registry.judges lines block.1)) ↔
      Flagged registry lines row := by
  rw [List.mem_flatMap]
  constructor
  · rintro ⟨block, hblock, hrow⟩
    obtain ⟨hmem, hjudged⟩ := List.mem_filter.1 hrow
    obtain ⟨name, hname⟩ := (h.opensSection hblock).2
    exact ⟨block.1, name, h.under hblock hmem, hname,
      (Registry.judges_iff_rejects hname).1 hjudged⟩
  · rintro ⟨header, name, hunder, hname, hrejects⟩
    obtain ⟨block, hblock, rfl, hrow⟩ := (h.under_iff header row).2 hunder
    exact ⟨block, hblock, List.mem_filter.2 ⟨hrow, (Registry.judges_iff_rejects hname).2 hrejects⟩⟩

lemma judged_increasing (h : document.HasLayout lines layout) (registry : Registry) :
    (layout.flatMap fun block => block.2.filter (registry.judges lines block.1)).Pairwise
      fun a b => a.number < b.number := by
  refine h.keys_increasing.sublist ?_
  exact List.Sublist.flatMap_right layout fun block _ => List.filter_sublist

end Document.HasLayout

/-- **Validation is sound and complete for physical lines.**  A text has exactly one diagnostic for
each flagged line, in the order of the lines, and its span covers the key. -/
theorem validate_parse_eq_flagged (registry : Registry) (text : List Char) :
    ∃ flagged : List Row,
      (flagged.Pairwise fun a b => a.number < b.number) ∧
      (∀ row, row ∈ flagged ↔ Flagged registry (physicalLines text) row) ∧
      registry.validate (Document.parse text) =
        (flagged.map fun row => .unrecognized (row.line.trimmedSpan (keyPart row.line.text))) ∧
      ∀ row ∈ flagged, Covers text (row.line.trimmedSpan (keyPart row.line.text))
        (trim (keyPart row.line.text)) := by
  obtain ⟨layout, h⟩ := exists_layout text
  refine ⟨_, h.judged_increasing registry, h.mem_judged_iff registry, ?_, ?_⟩
  · rw [Registry.validate, h.sections_eq, List.flatMap_map, List.map_flatMap]
    refine List.flatMap_congr fun block _ => ?_
    exact registry.validateSection_sectionOn (physicalLines text) block.1 block.2
  · intro row hrow
    obtain ⟨header, name, hunder, -, -⟩ := (h.mem_judged_iff registry row).1 hrow
    exact hunder.holdsKey.covers_key

end UnitCheck
