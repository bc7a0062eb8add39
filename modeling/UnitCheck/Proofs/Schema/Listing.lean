/-
What is listed is what is accepted.

The list of the directives of a section type is put together from the directives of the type and from
the groups; a group that is not defined adds nothing to it.  The judgement on a unit file looks a key
up in the set of what the type allows.  Both agree because the parts of a registry stay in step.  The
unit file of a single directive is canonical, so what is read from it is known.

The lines of a list are all that the command prints (`Schema.run_eq_ok_iff`).
-/
import UnitCheck.Command.Schema
import UnitCheck.Proofs.Document.RoundTrip
import UnitCheck.Proofs.Schema.Invariant
import UnitCheck.Proofs.Validation

namespace UnitCheck

/-! ### Lists -/

lemma Registry.mem_groupMembers_iff {registry : Registry} {group key : String} :
    key ∈ registry.groupMembers group ↔
      ∃ members, registry.groups[group]? = some members ∧ key ∈ members := by
  unfold groupMembers
  rcases registry.groups[group]? with _ | members
  · simp
  · simp [Std.TreeSet.mem_toList]

/-- The list of a consistent section type holds exactly what the type allows. -/
lemma Registry.exists_listing {registry : Registry} {name : String} {type : SectionType}
    (htype : registry.sections[name]? = some type) (h : type.Consistent registry.groups) :
    ∃ listing, registry.listing? name = some listing ∧
      ∀ key, key ∈ listing.directives ↔ key ∈ type.allowed := by
  refine ⟨_, by rw [listing?, htype]; rfl, fun key => ?_⟩
  rw [h.mem_allowed_iff, Listing.directives, List.mem_append, Std.TreeSet.mem_toList]
  simp only [List.mem_flatMap, List.mem_map, exists_exists_and_eq_and, mem_groupMembers_iff]

/-- The indented lines of a list are its directives. -/
lemma Listing.indented_mem_lines_iff (listing : Listing) (name key : String) :
    "  " ++ key ∈ listing.lines name ↔ key ∈ listing.directives := by
  have hinj : ∀ other : String, "  " ++ other = "  " ++ key ↔ other = key := by
    intro other
    simp
  -- headings begin with a bracket or a letter, or are empty
  have hheader : "  " ++ key ≠ "[" ++ name ++ "]" := by
    intro h
    simpa using congrArg (fun s => s.toList.head?) h
  have hempty : "  " ++ key ≠ "" := by
    intro h
    simpa using congrArg (fun s => s.toList.head?) h
  have hheading : ∀ group : String, "  " ++ key ≠ "From " ++ group ++ ":" := by
    intro group h
    simpa using congrArg (fun s => s.toList.head?) h
  rw [lines, directives]
  simp only [List.mem_append, List.mem_cons, List.mem_map, List.mem_flatMap, hinj, hheader, hempty,
    hheading, List.not_mem_nil, exists_eq_right, false_or, or_false]

/-- The unit file of one directive without a value is read as that directive. -/
lemma exists_sections_parse_single {name key : String} (hname : IsName name.toList)
    (hkey : IsKey key.toList) :
    ∃ span keySpan,
      (Document.parse ("[" ++ name ++ "]\n" ++ key ++ "=\n").toList).sections
        = [⟨name, span, [⟨key, keySpan, ""⟩]⟩] := by
  have hwellFormed : ∀ sec ∈ [(⟨name, [(key, "")]⟩ : SectionOutline)], sec.WellFormed := by
    intro sec hsec
    obtain rfl := List.mem_singleton.1 hsec
    refine ⟨hname, fun entry hentry => ?_, fun entry hentry => ?_⟩
    · obtain rfl := List.mem_singleton.1 hentry
      exact hkey
    · obtain rfl := List.mem_singleton.1 hentry
      show IsValue "".toList
      exact ⟨by decide, by decide⟩
  have htext : ("[" ++ name ++ "]\n" ++ key ++ "=\n").toList
      = canonicalText [⟨name, [(key, "")]⟩] := by
    simp [canonicalText, SectionOutline.text, SectionOutline.entryText, SectionOutline.lineEnd]
  have houtline := outline_parse_canonicalText hwellFormed
  rw [← htext, Document.outline, List.map_eq_singleton_iff] at houtline
  obtain ⟨⟨secName, span, directives⟩, hsections, hsec⟩ := houtline
  obtain ⟨rfl, hentries⟩ := SectionOutline.mk.inj hsec
  obtain ⟨⟨directiveKey, keySpan, value⟩, rfl, hentry⟩ := List.map_eq_singleton_iff.1 hentries
  obtain ⟨rfl, rfl⟩ := Prod.mk.inj hentry
  exact ⟨span, keySpan, hsections⟩

/-- A single directive is accepted in a section of a known type if the type allows it. -/
lemma Registry.validate_parse_single {registry : Registry} {name key : String}
    (hname : IsName name.toList) (hvendor : ¬ ['X', '-'] <+: name.toList)
    {type : SectionType} (htype : registry.sections[name]? = some type)
    (hkey : IsKey key.toList) (hkeyVendor : ¬ ['X', '-'] <+: key.toList) :
    registry.validate (Document.parse ("[" ++ name ++ "]\n" ++ key ++ "=\n").toList) = [] ↔
      key ∈ type.allowed := by
  obtain ⟨span, keySpan, hsections⟩ := exists_sections_parse_single hname hkey
  rw [← List.isPrefixOf_iff_prefix] at hvendor hkeyVendor
  have hclass : registry.classify name = .known type := by
    rw [classify, isVendor, if_neg hvendor, htype]
  rw [validate, hsections, List.flatMap_singleton, validateSection, hclass]
  simp [flags, isVendor, hkeyVendor, SectionType.allows]

/-- **What is listed is what is accepted.**  Let a registry be built from a table and extended any
number of times, and take a section type and a key that can stand in a unit file and do not belong to
a vendor.  The key is among the listed directives of the section type, each of which has an indented
line, if and only if the unit file with this section and this key alone has no diagnostics. -/
theorem listed_iff_accepted {table : Table} {base : Registry}
    (h : Registry.ofTable table = .ok base) (extras : List NameLists) (name key : String)
    (hname : IsName name.toList) (hvendor : ¬ ['X', '-'] <+: name.toList)
    (htype : name ∈ (base.extendAll extras).sectionTypes)
    (hkey : IsKey key.toList) (hkeyVendor : ¬ ['X', '-'] <+: key.toList) :
    ∃ listing, (base.extendAll extras).listing? name = some listing ∧
      Schema.lines (base.extendAll extras) (some name) = .ok (listing.lines name) ∧
      ("  " ++ key ∈ listing.lines name ↔ key ∈ listing.directives) ∧
      (key ∈ listing.directives ↔ (base.extendAll extras).validate
        (Document.parse ("[" ++ name ++ "]\n" ++ key ++ "=\n").toList) = []) := by
  have hgrown := (Registry.grownFrom_of_ofTable h).extendAll extras
  generalize base.extendAll extras = registry at *
  rw [Registry.sectionTypes, Std.TreeMap.mem_keys, Std.TreeMap.mem_iff_isSome_getElem?,
    Option.isSome_iff_exists] at htype
  obtain ⟨type, htype⟩ := htype
  obtain ⟨listing, hlisting, hmem⟩ :=
    Registry.exists_listing htype (hgrown.consistent name type htype)
  refine ⟨listing, hlisting, ?_, listing.indented_mem_lines_iff name key, ?_⟩
  · rw [Schema.lines, hlisting]
  · rw [hmem, Registry.validate_parse_single hname hvendor htype hkey hkeyVendor]

/-- A directive of a group, in a section type that was extended, is listed and accepted. -/
theorem listed_iff_accepted_group :
    let table : Table :=
      ⟨.ofList [("G", ["a b"])], .ofList [("S", (⟨["c"], ["G"]⟩ : SectionRule))]⟩
    let extras : List NameLists := [.ofList [("S", ["d"]), ("T", [])]]
    ∃ base, Registry.ofTable table = .ok base ∧ "S" ∈ (base.extendAll extras).sectionTypes ∧
      ∃ listing, (base.extendAll extras).listing? "S" = some listing ∧
        "a b" ∈ listing.directives ∧
        (base.extendAll extras).validate
          (Document.parse ("[" ++ "S" ++ "]\n" ++ "a b" ++ "=\n").toList) = [] := by
  intro table extras
  obtain ⟨base, hbase, htype, hlisted⟩ : ∃ base, Registry.ofTable table = .ok base ∧
      "S" ∈ (base.extendAll extras).sectionTypes ∧
      "a b" ∈ ((base.extendAll extras).listing? "S").elim [] Listing.directives :=
    ⟨_, rfl, by decide, by decide⟩
  obtain ⟨listing, hlisting, -, -, hiff⟩ := listed_iff_accepted hbase extras "S" "a b"
    ⟨by decide, by decide, by decide, by decide⟩ (by decide) htype
    ⟨by decide, by decide, by decide, by decide, by decide, by decide, by decide⟩ (by decide)
  rw [hlisting] at hlisted
  exact ⟨base, hbase, htype, listing, hlisting, hlisted, hiff.1 hlisted⟩

end UnitCheck
