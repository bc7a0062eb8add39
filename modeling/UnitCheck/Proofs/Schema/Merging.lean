/-
Extensions one after the other.

What a registry knows after some extensions depends only on which section types they speak of and on
which names they list for each, not on their order or on how often a name is listed (`extendAll_agrees`).
So two extensions can be made in either order or at once, and making one again changes nothing.

Two registries are compared by their contents: their groups, their section types, and what each of
these has and allows.  The trees that hold these contents may differ in shape.
-/
import UnitCheck.Proofs.Schema.Extension

namespace UnitCheck

/-- The section types of both extensions, each with the names that the first one lists for it and
then those of the second one. -/
def NameLists.merge (first second : NameLists) : NameLists :=
  first ∪ second.map fun sectionType names => namesFor first sectionType ++ names

/-- Do the section types have the same directives and groups, and do they allow the same? -/
structure SectionType.Agrees (a b : SectionType) : Prop where
  directives : ∀ key, key ∈ a.directives ↔ key ∈ b.directives
  groups : a.groups = b.groups
  allowed : ∀ key, key ∈ a.allowed ↔ key ∈ b.allowed

/-- Do the registries have the same groups and the same section types? -/
structure Registry.Agrees (a b : Registry) : Prop where
  groups : a.groups = b.groups
  sections : ∀ name : String, Option.Rel SectionType.Agrees a.sections[name]? b.sections[name]?

/-! ### What merged extensions list -/

lemma NameLists.getElem?_merge (first second : NameLists) (name : String) :
    (first.merge second)[name]? =
      (second[name]?.map (namesFor first name ++ ·)).or first[name]? := by
  rw [merge, Std.TreeMap.getElem?_union, Std.TreeMap.getElem?_map]

lemma NameLists.mem_merge_iff {first second : NameLists} {name : String} :
    name ∈ first.merge second ↔ name ∈ first ∨ name ∈ second := by
  simp only [Std.TreeMap.mem_iff_isSome_getElem?, getElem?_merge, Option.isSome_or,
    Option.isSome_map, Bool.or_eq_true]
  exact or_comm

lemma namesFor_eq (extra : NameLists) (name : String) : namesFor extra name = extra[name]?.getD [] :=
  Std.TreeMap.getD_eq_getD_getElem?

lemma namesFor_merge (first second : NameLists) (name : String) :
    namesFor (first.merge second) name = namesFor first name ++ namesFor second name := by
  rw [namesFor_eq, namesFor_eq second, NameLists.getElem?_merge]
  cases second[name]? with
  | none => simp [namesFor_eq]
  | some names => simp

/-! ### One section type -/

namespace SectionType

lemma Agrees.refl (type : SectionType) : type.Agrees type :=
  ⟨fun _ => Iff.rfl, rfl, fun _ => Iff.rfl⟩

lemma Agrees.symm {a b : SectionType} (h : a.Agrees b) : b.Agrees a :=
  ⟨fun key => (h.directives key).symm, h.groups.symm, fun key => (h.allowed key).symm⟩

lemma Agrees.trans {a b c : SectionType} (h : a.Agrees b) (h' : b.Agrees c) : a.Agrees c :=
  ⟨fun key => (h.directives key).trans (h'.directives key), h.groups.trans h'.groups,
    fun key => (h.allowed key).trans (h'.allowed key)⟩

/-- A section type that is extended twice has the names of both lists. -/
lemma extend_extend_agrees (type : SectionType) (names names' : List String) :
    ((type.extend names).extend names').Agrees (type.extend (names ++ names')) := by
  refine ⟨fun key => ?_, rfl, fun key => ?_⟩
  all_goals simp only [extend, Std.TreeSet.mem_insertMany_list, List.contains_eq_mem, List.mem_append,
    decide_eq_true_eq, or_assoc]

/-- It does not matter in which order names are added, or how often. -/
lemma extend_agrees (type : SectionType) {names names' : List String}
    (h : ∀ key, key ∈ names ↔ key ∈ names') : (type.extend names).Agrees (type.extend names') := by
  refine ⟨fun key => ?_, rfl, fun key => ?_⟩
  all_goals simp only [extend, Std.TreeSet.mem_insertMany_list, List.contains_eq_mem,
    decide_eq_true_eq, h]

end SectionType

/-! ### All section types -/

section Rel

variable {x y z : Option SectionType}

lemma rel_agrees_refl (x : Option SectionType) : Option.Rel SectionType.Agrees x x := by
  cases x with
  | none => exact .none
  | some type => exact .some (.refl type)

lemma rel_agrees_symm (h : Option.Rel SectionType.Agrees x y) :
    Option.Rel SectionType.Agrees y x := by
  cases h with
  | none => exact .none
  | some hab => exact .some hab.symm

lemma rel_agrees_trans (h : Option.Rel SectionType.Agrees x y)
    (h' : Option.Rel SectionType.Agrees y z) : Option.Rel SectionType.Agrees x z := by
  cases h with
  | none => exact h'
  | some hab => cases h' with
    | some hbc => exact .some (hab.trans hbc)

end Rel

namespace Registry

lemma groups_extend (registry : Registry) (extra : NameLists) :
    (registry.extend extra).groups = registry.groups := by
  rw [extend, Std.TreeMap.foldl_eq_foldl_toList]
  induction extra.toList generalizing registry with
  | nil => rfl
  | cons entry entries ih => exact ih (registry.extendSection entry.1 entry.2)

lemma groups_extendAll (registry : Registry) (extras : List NameLists) :
    (registry.extendAll extras).groups = registry.groups := by
  induction extras generalizing registry with
  | nil => rfl
  | cons extra extras ih => exact (ih (registry.extend extra)).trans (registry.groups_extend extra)

/-- An extension lists nothing for a section type that it does not speak of. -/
lemma namesFor_of_not_mem {extra : NameLists} {name : String} (h : name ∉ extra) :
    namesFor extra name = [] :=
  Std.TreeMap.getD_eq_fallback h

/-- A section type after extensions.  If one of them speaks of it, it has all names that they list for
it besides what it had before, and otherwise it is as before. -/
lemma sections_extendAll_agree (registry : Registry) (extras : List NameLists) (name : String) :
    Option.Rel SectionType.Agrees (registry.extendAll extras).sections[name]?
      (if ∃ extra ∈ extras, name ∈ extra then
        some ((registry.sections[name]?.getD .empty).extend (extras.flatMap (namesFor · name)))
      else registry.sections[name]?) := by
  induction extras generalizing registry with
  | nil => simpa [extendAll] using rel_agrees_refl _
  | cons extra extras ih =>
    have hrest := ih (registry.extend extra)
    show Option.Rel _ ((registry.extend extra).extendAll extras).sections[name]? _
    rw [getElem?_sections_extend] at hrest
    rw [List.flatMap_cons]
    by_cases hextra : name ∈ extra
    · rw [if_pos ⟨extra, List.mem_cons_self, hextra⟩]
      rw [if_pos hextra, Option.getD_some] at hrest
      by_cases hextras : ∃ extra ∈ extras, name ∈ extra
      · rw [if_pos hextras] at hrest
        exact rel_agrees_trans hrest (.some (SectionType.extend_extend_agrees _ _ _))
      · have hnone : extras.flatMap (namesFor · name) = [] :=
          List.flatMap_eq_nil_iff.2 fun other hother =>
            namesFor_of_not_mem fun hmem => hextras ⟨other, hother, hmem⟩
        rw [if_neg hextras] at hrest
        rwa [hnone, List.append_nil]
    · rw [if_neg hextra] at hrest
      rw [namesFor_of_not_mem hextra, List.nil_append]
      simpa [hextra] using hrest

/-- Extensions that speak of the same section types and list the same names for them give the same
registry, however many they are and in whatever order they list the names. -/
lemma extendAll_agrees (registry : Registry) {extras extras' : List NameLists}
    (hmem : ∀ name, (∃ extra ∈ extras, name ∈ extra) ↔ ∃ extra ∈ extras', name ∈ extra)
    (hnames : ∀ name key, (∃ extra ∈ extras, key ∈ namesFor extra name) ↔
      ∃ extra ∈ extras', key ∈ namesFor extra name) :
    (registry.extendAll extras).Agrees (registry.extendAll extras') := by
  refine ⟨(registry.groups_extendAll extras).trans (registry.groups_extendAll extras').symm,
    fun name => ?_⟩
  refine rel_agrees_trans (registry.sections_extendAll_agree extras name)
    (rel_agrees_trans ?_ (rel_agrees_symm (registry.sections_extendAll_agree extras' name)))
  by_cases h : ∃ extra ∈ extras, name ∈ extra
  · rw [if_pos h, if_pos ((hmem name).1 h)]
    refine .some (SectionType.extend_agrees _ fun key => ?_)
    rw [List.mem_flatMap, List.mem_flatMap, hnames]
  · rw [if_neg h, if_neg fun h' => h ((hmem name).2 h')]
    exact rel_agrees_refl _

/-- **Extensions act by merging.**  Two extensions can be made in either order, or at once by merging
them.  An extension made again changes nothing, nor does one that speaks of nothing, and an extension
leaves the section types alone that it does not speak of. -/
theorem extend_acts_by_merging (registry : Registry) (first second : NameLists) :
    ((registry.extend first).extend second).Agrees ((registry.extend second).extend first) ∧
    ((registry.extend first).extend second).Agrees (registry.extend (first.merge second)) ∧
    ((registry.extend first).extend first).Agrees (registry.extend first) ∧
    (registry.extend ∅).Agrees registry ∧
    ∀ name : String, name ∉ first →
      (registry.extend first).sections[name]? = registry.sections[name]? := by
  refine ⟨?_, ?_, ?_, ?_, fun name hname => ?_⟩
  · show (registry.extendAll [first, second]).Agrees (registry.extendAll [second, first])
    exact registry.extendAll_agrees (by simp [or_comm]) (by simp [or_comm])
  · show (registry.extendAll [first, second]).Agrees (registry.extendAll [first.merge second])
    exact registry.extendAll_agrees (by simp [NameLists.mem_merge_iff]) (by simp [namesFor_merge])
  · show (registry.extendAll [first, first]).Agrees (registry.extendAll [first])
    exact registry.extendAll_agrees (by simp) (by simp)
  · show (registry.extendAll [∅]).Agrees (registry.extendAll [])
    exact registry.extendAll_agrees (by simp) (by simp [namesFor])
  · rw [getElem?_sections_extend, if_neg hname]

/-- Both extensions speak of a known section type and of one that the first of them creates, and they
list a name twice. -/
theorem extend_acts_by_merging_overlapping :
    let registry := empty.extendSection "A" ["k"]
    let first : NameLists := .ofList [("A", ["x", "k"]), ("B", [])]
    let second : NameLists := .ofList [("B", ["y", "y"]), ("A", ["x"]), ("C", ["z"])]
    "C" ∉ first ∧ (first.merge second)["A"]? = some ["x", "k", "x"] ∧
      ((registry.extend first).extend second).Agrees ((registry.extend second).extend first) ∧
      ((registry.extend first).extend second).Agrees (registry.extend (first.merge second)) ∧
      (registry.extend first).sections["C"]? = registry.sections["C"]? := by
  intro registry first second
  have habsent : "C" ∉ first := by decide
  obtain ⟨hcomm, hmerge, -, -, hothers⟩ := extend_acts_by_merging registry first second
  exact ⟨habsent, by decide, hcomm, hmerge, hothers "C" habsent⟩

end Registry

end UnitCheck
