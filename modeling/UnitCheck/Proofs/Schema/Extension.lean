/-
What an extension changes.

An extension has one list of names for each section type that it speaks of, so a section type of the
extended registry is known from the one of the same name before and from that list alone
(`getElem?_sections_extend`).  A section type that was known allows more than before, and its
directives can only lose diagnostics.  One that is created by the extension is judged from then on,
and its directives can only get diagnostics.
-/
import UnitCheck.Proofs.Document.Spans
import UnitCheck.Proofs.Schema.Invariant

namespace UnitCheck

/-- The names that an extension lists for a section type. -/
def namesFor (extra : NameLists) (sectionType : String) : List String :=
  extra.getD sectionType []

namespace Registry

/-! ### The section types of an extended registry -/

/-- Further directives for other section types leave a section type alone. -/
lemma getElem?_foldl_extendSection_of_ne {entries : List (String × List String)} {name : String}
    (h : ∀ entry ∈ entries, entry.1 ≠ name) (registry : Registry) :
    (entries.foldl (fun registry entry => registry.extendSection entry.1 entry.2)
      registry).sections[name]? = registry.sections[name]? := by
  induction entries generalizing registry with
  | nil => rfl
  | cons entry entries ih =>
    obtain ⟨hne, hentries⟩ := List.forall_mem_cons.1 h
    rw [List.foldl_cons, ih hentries, getElem?_sections_extendSection, if_neg hne]

/-- If a section type occurs once among the entries, it is extended by the names of its entry. -/
lemma getElem?_foldl_extendSection {entries : List (String × List String)}
    (hdistinct : entries.Pairwise fun a b => a.1 ≠ b.1) {name : String} {names : List String}
    (h : (name, names) ∈ entries) (registry : Registry) :
    (entries.foldl (fun registry entry => registry.extendSection entry.1 entry.2)
      registry).sections[name]? =
      some ((registry.sections[name]?.getD .empty).extend names) := by
  induction entries generalizing registry with
  | nil => exact absurd h List.not_mem_nil
  | cons entry entries ih =>
    obtain ⟨hne, hdistinct⟩ := List.pairwise_cons.1 hdistinct
    rw [List.foldl_cons]
    rcases List.mem_cons.1 h with rfl | h
    · have hothers : ∀ other ∈ entries, other.1 ≠ name := fun other hother => (hne other hother).symm
      rw [getElem?_foldl_extendSection_of_ne hothers, getElem?_sections_extendSection, if_pos rfl]
    · rw [ih hdistinct h, getElem?_sections_extendSection, if_neg (hne _ h)]

/-- A section type of the extended registry: one that the extension lists names for has these names
besides what it had before, and any other is as before. -/
lemma getElem?_sections_extend (registry : Registry) (extra : NameLists) (name : String) :
    (registry.extend extra).sections[name]? =
      if name ∈ extra then
        some ((registry.sections[name]?.getD .empty).extend (namesFor extra name))
      else registry.sections[name]? := by
  rw [extend, Std.TreeMap.foldl_eq_foldl_toList]
  by_cases hmem : name ∈ extra
  · obtain ⟨names, hnames⟩ := Option.isSome_iff_exists.1
      (Std.TreeMap.mem_iff_isSome_getElem?.1 hmem)
    have hlisted : namesFor extra name = names := by
      rw [namesFor, Std.TreeMap.getD_eq_getD_getElem?, hnames, Option.getD_some]
    rw [if_pos hmem, hlisted]
    exact getElem?_foldl_extendSection (pairwise_ne_toList extra)
      (Std.TreeMap.mem_toList_iff_getElem?_eq_some.2 hnames) registry
  · rw [if_neg hmem]
    refine getElem?_foldl_extendSection_of_ne (fun entry hentry heq => hmem ?_) registry
    rw [← heq, Std.TreeMap.mem_iff_isSome_getElem?,
      Std.TreeMap.mem_toList_iff_getElem?_eq_some.1 hentry]
    rfl

end Registry

/-! ### The judgement on a section -/

lemma SectionType.allows_extend (type : SectionType) (names : List String) (key : String) :
    (type.extend names).allows key = (type.allows key || names.contains key) := by
  rw [allows, extend, Std.TreeSet.contains_insertMany_list, allows]

namespace Registry

/-- With further names, a section type flags the directives that it flagged before, but for those
whose keys are among the names. -/
lemma filter_flags_extend (type : SectionType) (names : List String) (directives : List Directive) :
    directives.filter (flags (type.extend names)) =
      (directives.filter (flags type)).filter fun directive => directive.key ∉ names := by
  rw [List.filter_filter]
  refine List.filter_congr fun directive _ => ?_
  simp only [flags, SectionType.allows_extend, Bool.not_or, List.contains_eq_mem, decide_not]
  rw [← Bool.and_assoc, Bool.and_comm]

/-- A section type without directives flags every directive that does not belong to a vendor. -/
lemma flags_empty (directive : Directive) :
    flags .empty directive = decide (¬ ['X', '-'] <+: directive.key.toList) := by
  have hallows : SectionType.empty.allows directive.key = false := Std.TreeSet.contains_emptyc
  rw [flags, hallows, Bool.not_false, Bool.and_true, Bool.eq_iff_iff, decide_eq_true_iff,
    ← isVendor_iff, Bool.not_eq_true', Bool.not_eq_true]

variable {registry : Registry} {sec : Section}

lemma misplaced_of_vendor (h : ['X', '-'] <+: sec.name.toList) : registry.misplaced sec = [] := by
  rw [misplaced, classify, if_pos (isVendor_iff.2 h)]

lemma misplaced_of_known {type : SectionType} (h : ¬ ['X', '-'] <+: sec.name.toList)
    (htype : registry.sections[sec.name]? = some type) :
    registry.misplaced sec = sec.directives.filter (flags type) := by
  rw [misplaced, classify, if_neg (mt isVendor_iff.1 h), htype]

lemma misplaced_of_unknown (h : ¬ ['X', '-'] <+: sec.name.toList)
    (htype : registry.sections[sec.name]? = none) : registry.misplaced sec = [] := by
  rw [misplaced, classify, if_neg (mt isVendor_iff.1 h), htype]

/-- What is out of place after an extension.  In a section of a type that was known it is what was
out of place before, but for the listed keys.  In a section of a type that the extension creates it is
all but the listed keys and those of vendors. -/
lemma misplaced_extend (registry : Registry) (extra : NameLists) (sec : Section) :
    (registry.extend extra).misplaced sec =
      if ['X', '-'] <+: sec.name.toList then []
      else if sec.name ∈ registry.sections then
        (registry.misplaced sec).filter fun directive => directive.key ∉ namesFor extra sec.name
      else if sec.name ∈ extra then
        sec.directives.filter fun directive =>
          ¬ ['X', '-'] <+: directive.key.toList ∧ directive.key ∉ namesFor extra sec.name
      else [] := by
  by_cases hvendor : ['X', '-'] <+: sec.name.toList
  · rw [if_pos hvendor, misplaced_of_vendor hvendor]
  rw [if_neg hvendor]
  have hextended := getElem?_sections_extend registry extra sec.name
  rcases htype : registry.sections[sec.name]? with _ | type
  · have hunknown : sec.name ∉ registry.sections := by
      simp [Std.TreeMap.mem_iff_isSome_getElem?, htype]
    rw [if_neg hunknown]
    by_cases hextra : sec.name ∈ extra
    · rw [if_pos hextra, htype] at hextended
      rw [if_pos hextra, misplaced_of_known hvendor hextended, filter_flags_extend, List.filter_filter]
      refine List.filter_congr fun directive _ => ?_
      rw [Option.getD_none, flags_empty, Bool.and_comm, Bool.decide_and]
    · rw [if_neg hextra, htype] at hextended
      rw [if_neg hextra, misplaced_of_unknown hvendor hextended]
  · have hknown : sec.name ∈ registry.sections := by
      simp [Std.TreeMap.mem_iff_isSome_getElem?, htype]
    rw [if_pos hknown, misplaced_of_known hvendor htype, ← filter_flags_extend]
    by_cases hextra : sec.name ∈ extra
    · rw [if_pos hextra, htype] at hextended
      exact misplaced_of_known hvendor hextended
    · -- the extension lists nothing for this section type
      have hnone : namesFor extra sec.name = [] := Std.TreeMap.getD_eq_fallback hextra
      rw [if_neg hextra, htype] at hextended
      rw [misplaced_of_known hvendor hextended, hnone, filter_flags_extend]
      simp

/-- An extension that creates no section types only takes away from what is out of place. -/
lemma misplaced_extend_sublist {extra : NameLists}
    (h : ∀ name ∈ extra, ¬ ['X', '-'] <+: name.toList → name ∈ registry.sections) (sec : Section) :
    ((registry.extend extra).misplaced sec).Sublist (registry.misplaced sec) := by
  rw [misplaced_extend]
  split
  · exact List.nil_sublist _
  · rename_i hvendor
    split
    · exact List.filter_sublist
    · rename_i hunknown
      rw [if_neg fun hextra => hunknown (h sec.name hextra hvendor)]
      exact List.nil_sublist _

/-- **What an extension changes.**  The diagnostics of a document under the extended registry, section
by section: none for a section of a vendor; for a type that was known, those from before without
those of the listed keys; for a type that only the extension knows, one for each directive whose key
is neither listed nor a vendor's; none for any other.  If the extension creates no section types but
those of vendors, no diagnostic is new. -/
theorem validate_extend (registry : Registry) (extra : NameLists) (document : Document) :
    (registry.validate document = document.sections.flatMap fun sec =>
      (registry.misplaced sec).map fun directive => .unrecognized directive.keySpan) ∧
    ((registry.extend extra).validate document = document.sections.flatMap fun sec =>
      (if ['X', '-'] <+: sec.name.toList then []
        else if sec.name ∈ registry.sections then
          (registry.misplaced sec).filter fun directive => directive.key ∉ namesFor extra sec.name
        else if sec.name ∈ extra then
          sec.directives.filter fun directive =>
            ¬ ['X', '-'] <+: directive.key.toList ∧ directive.key ∉ namesFor extra sec.name
        else []).map fun directive => .unrecognized directive.keySpan) ∧
    ((∀ name ∈ extra, ¬ ['X', '-'] <+: name.toList → name ∈ registry.sections) →
      ((registry.extend extra).validate document).Sublist (registry.validate document)) := by
  refine ⟨registry.validate_eq document, ?_, fun hknown => ?_⟩
  · rw [validate_eq]
    exact List.flatMap_congr fun sec _ => by rw [misplaced_extend]
  · rw [validate_eq, validate_eq]
    exact List.Sublist.flatMap_right _ fun sec _ => (misplaced_extend_sublist hknown sec).map _

/-- An extension by a directive of a known section type and by a section of a vendor. -/
theorem validate_extend_known :
    let registry := empty.extendSection "A" ["k"]
    let extra : NameLists := .ofList [("A", ["x"]), ("X-B", [])]
    let document := Document.parse "[A]\nx=1\ny=2\n[X-B]\nz=3".toList
    (∀ name ∈ extra, ¬ ['X', '-'] <+: name.toList → name ∈ registry.sections) ∧
      registry.validate document = [.unrecognized ⟨4, 5⟩, .unrecognized ⟨8, 9⟩] ∧
      (registry.extend extra).validate document = [.unrecognized ⟨8, 9⟩] ∧
      ((registry.extend extra).validate document).Sublist (registry.validate document) := by
  intro registry extra document
  have hknown : ∀ name ∈ extra, ¬ ['X', '-'] <+: name.toList → name ∈ registry.sections := by
    intro name hname hvendor
    have hmem : name ∈ ["A", "X-B"] := by
      rw [← Std.TreeMap.mem_keys] at hname
      exact hname
    rcases List.mem_pair.1 hmem with rfl | rfl
    · decide
    · exact absurd hvendor (by decide)
  exact ⟨hknown, by decide, by decide, (validate_extend registry extra document).2.2 hknown⟩

end Registry

end UnitCheck
