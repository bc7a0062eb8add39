/-
What holds of every registry.

A section type keeps the set of all directives that it allows beside its own directives and the
names of its groups.  The set is worked out when a table is read, and it is added to, apart from the
directives, when a registry is extended.  That the parts stay in step is an invariant: reading a
table establishes it (`grownFrom_of_ofTable`), and extending one section type preserves it
(`GrownFrom.extendSection`), so it holds after any number of extensions.
-/
import Mathlib.Tactic.Lemma
import Std.Data.TreeMap.Lemmas
import Std.Data.TreeSet.Lemmas
import UnitCheck.Schema.Registry

namespace UnitCheck

/-- The registry after extensions, one after the other. -/
def Registry.extendAll (registry : Registry) (extras : List NameLists) : Registry :=
  extras.foldl extend registry

/-- The groups of a section type are defined, and it allows its own directives and those of its
groups and no others. -/
structure SectionType.Consistent (groups : Std.TreeMap String (Std.TreeSet String))
    (type : SectionType) : Prop where
  groups_defined : ∀ group ∈ type.groups, group ∈ groups
  mem_allowed_iff : ∀ key, key ∈ type.allowed ↔
    key ∈ type.directives ∨
      ∃ group ∈ type.groups, ∃ members, groups[group]? = some members ∧ key ∈ members

/-- The set holds the names of the list. -/
def HoldsNames (set : Std.TreeSet String) (names : List String) : Prop :=
  ∀ key, key ∈ set ↔ key ∈ names

/-- The registry holds the groups of the table and its section types with their groups.  Further
section types have no groups.  All section types are consistent. -/
structure Registry.GrownFrom (table : Table) (registry : Registry) : Prop where
  groups_eq : ∀ name : String, Option.Rel HoldsNames registry.groups[name]? table.groups[name]?
  kept : ∀ (name : String) (rule : SectionRule), table.sections[name]? = some rule →
    ∃ type, registry.sections[name]? = some type ∧ type.groups = rule.groups
  added : ∀ (name : String) (type : SectionType), registry.sections[name]? = some type →
    name ∉ table.sections → type.groups = []
  consistent : ∀ (name : String) (type : SectionType), registry.sections[name]? = some type →
    type.Consistent registry.groups

/-! ### Reading a table -/

lemma exists_ok_of_bind {ε α β : Type} {x : Except ε α} {f : α → Except ε β} {b : β}
    (h : x >>= f = .ok b) : ∃ a, x = .ok a ∧ f a = .ok b := by
  cases x with
  | error e => exact absurd h (by simp [bind, Except.bind])
  | ok a => exact ⟨a, rfl, h⟩

section Rel

variable {α β : Type} {R S : α → β → Prop} {x : Option α} {y : Option β}

lemma rel_imp (h : Option.Rel R x y) (himp : ∀ a b, R a b → S a b) : Option.Rel S x y := by
  cases h with
  | none => exact .none
  | some hab => exact .some (himp _ _ hab)

lemma isSome_eq_of_rel (h : Option.Rel R x y) : x.isSome = y.isSome := by
  cases h with
  | none => rfl
  | some _ => rfl

lemma exists_left_of_rel (h : Option.Rel R x y) {b : β} (hb : y = some b) :
    ∃ a, x = some a ∧ R a b := by
  subst hb
  cases h with
  | some hab => exact ⟨_, rfl, hab⟩

lemma exists_right_of_rel (h : Option.Rel R x y) {a : α} (ha : x = some a) :
    ∃ b, y = some b ∧ R a b := by
  subst ha
  cases h with
  | some hab => exact ⟨_, rfl, hab⟩

end Rel

namespace Registry

/-- A map that is filled by reading entries with different names: each entry is found under its
name, and nothing else changes. -/
lemma getElem?_foldlM_insert {α β : Type} {read : String → α → Except SchemaError β}
    {entries : List (String × α)} (hnames : entries.Pairwise fun a b => a.1 ≠ b.1)
    {start result : Std.TreeMap String β}
    (h : entries.foldlM (fun map (name, entry) => do
      return map.insert name (← read name entry)) start = .ok result) :
    (∀ entry ∈ entries, ∃ value,
      read entry.1 entry.2 = .ok value ∧ result[entry.1]? = some value) ∧
    ∀ name, (∀ entry ∈ entries, entry.1 ≠ name) → result[name]? = start[name]? := by
  induction entries generalizing start with
  | nil =>
    obtain rfl : start = result := Except.ok.inj h
    exact ⟨by simp, fun _ _ => rfl⟩
  | cons entry entries ih =>
    obtain ⟨hne, hnames⟩ := List.pairwise_cons.1 hnames
    rw [List.foldlM_cons] at h
    obtain ⟨map, hmap, h⟩ := exists_ok_of_bind h
    obtain ⟨value, hread, hmap⟩ := exists_ok_of_bind hmap
    obtain rfl : start.insert entry.1 value = map := Except.ok.inj hmap
    obtain ⟨hentries, hothers⟩ := ih hnames h
    have hvalue : result[entry.1]? = some value := by
      rw [hothers entry.1 fun other hother => (hne other hother).symm]
      simp
    refine ⟨fun other hother => ?_, fun name hname => ?_⟩
    · rcases List.mem_cons.1 hother with rfl | hother
      · exact ⟨value, hread, hvalue⟩
      · exact hentries other hother
    · rw [hothers name fun other hother => hname other (List.mem_cons_of_mem _ hother),
        Std.TreeMap.getElem?_insert, if_neg]
      simpa using hname entry List.mem_cons_self

/-- The entries of a map have different names. -/
lemma pairwise_ne_toList {α : Type} (map : Std.TreeMap String α) :
    map.toList.Pairwise fun a b => a.1 ≠ b.1 :=
  Std.TreeMap.distinct_keys_toList.imp fun hne heq => hne (by simp [heq])

/-- A map that is filled from another one holds, under each name, what the entry of that name is
read as. -/
lemma rel_foldlM_insert_toList {α β : Type} {read : String → α → Except SchemaError β}
    {map : Std.TreeMap String α} {result : Std.TreeMap String β}
    (h : map.toList.foldlM (fun (map : Std.TreeMap String β) (name, entry) => do
      return map.insert name (← read name entry)) ∅ = .ok result) (name : String) :
    Option.Rel (fun value entry => read name entry = .ok value) result[name]? map[name]? := by
  obtain ⟨hentries, hothers⟩ := getElem?_foldlM_insert (pairwise_ne_toList map) h
  rcases hentry : map[name]? with _ | entry
  · rw [hothers name, Std.TreeMap.getElem?_emptyc]
    · exact .none
    · rintro ⟨other, entry⟩ hmem rfl
      rw [Std.TreeMap.mem_toList_iff_getElem?_eq_some] at hmem
      exact absurd (hentry.symm.trans hmem) (by simp)
  · obtain ⟨value, hread, hvalue⟩ :=
      hentries (name, entry) (Std.TreeMap.mem_toList_iff_getElem?_eq_some.2 hentry)
    rw [hvalue]
    exact .some hread

/-- The groups and section types of a registry are read from those of its table, name by name. -/
lemma ofTable_eq_ok {table : Table} {base : Registry} (h : ofTable table = .ok base) :
    (∀ name, Option.Rel (fun members names => distinct name names = .ok members)
      base.groups[name]? table.groups[name]?) ∧
    ∀ name, Option.Rel (fun type rule => sectionOfRule base.groups name rule = .ok type)
      base.sections[name]? table.sections[name]? := by
  obtain ⟨groups, hgroups, h⟩ := exists_ok_of_bind h
  obtain ⟨sections, hsections, h⟩ := exists_ok_of_bind h
  obtain rfl : (⟨groups, sections⟩ : Registry) = base := Except.ok.inj h
  exact ⟨rel_foldlM_insert_toList hgroups, rel_foldlM_insert_toList hsections⟩

/-- A list of different names is read as the set of these names. -/
lemma holdsNames_of_distinct {list : String} {names : List String} {set : Std.TreeSet String}
    (h : distinct list names = .ok set) : HoldsNames set names := by
  intro key
  suffices hfrom : key ∈ set ↔ key ∈ (∅ : Std.TreeSet String) ∨ key ∈ names by simpa using hfrom
  rw [distinct] at h
  -- the names seen so far stand for the empty set at the start
  generalize (∅ : Std.TreeSet String) = seen at h ⊢
  induction names generalizing seen with
  | nil =>
    obtain rfl : seen = set := Except.ok.inj h
    simp
  | cons name names ih =>
    rw [List.foldlM_cons] at h
    obtain ⟨next, hnext, h⟩ := exists_ok_of_bind h
    split at hnext
    · exact absurd hnext (by simp)
    · obtain rfl := Except.ok.inj hnext
      rw [ih _ h, Std.TreeSet.mem_insert, Std.LawfulEqCmp.compare_eq_iff_eq, List.mem_cons, or_assoc,
        or_left_comm, eq_comm]

/-- Groups are only included if they are defined, and then all their directives are. -/
lemma mem_includeGroups_iff {groups : Std.TreeMap String (Std.TreeSet String)}
    {sectionType : String} {direct allowed : Std.TreeSet String} {names : List String}
    (h : includeGroups groups sectionType direct names = .ok allowed) :
    (∀ group ∈ names, group ∈ groups) ∧
    ∀ key, key ∈ allowed ↔ key ∈ direct ∨
      ∃ group ∈ names, ∃ members, groups[group]? = some members ∧ key ∈ members := by
  induction names generalizing direct with
  | nil =>
    obtain rfl : direct = allowed := Except.ok.inj h
    simp
  | cons name names ih =>
    rw [includeGroups, List.foldlM_cons] at h
    obtain ⟨next, hnext, h⟩ := exists_ok_of_bind h
    rcases hmembers : groups[name]? with _ | members
    · rw [hmembers] at hnext
      exact absurd hnext (by simp)
    · rw [hmembers] at hnext
      obtain rfl : direct ∪ members = next := Except.ok.inj hnext
      obtain ⟨hdefined, hallowed⟩ := ih h
      refine ⟨fun group hgroup => ?_, fun key => ?_⟩
      · rcases List.mem_cons.1 hgroup with rfl | hgroup
        · simp [Std.TreeMap.mem_iff_isSome_getElem?, hmembers]
        · exact hdefined group hgroup
      · rw [hallowed, Std.TreeSet.mem_union_iff, or_assoc]
        simp [hmembers]

/-- The section type of a rule has the groups of the rule and is consistent. -/
lemma consistent_of_sectionOfRule {groups : Std.TreeMap String (Std.TreeSet String)}
    {name : String} {rule : SectionRule} {type : SectionType}
    (h : sectionOfRule groups name rule = .ok type) :
    type.groups = rule.groups ∧ type.Consistent groups := by
  obtain ⟨direct, -, h⟩ := exists_ok_of_bind h
  obtain ⟨allowed, hallowed, h⟩ := exists_ok_of_bind h
  obtain rfl : (⟨direct, rule.groups, allowed⟩ : SectionType) = type := Except.ok.inj h
  obtain ⟨hdefined, hmem⟩ := mem_includeGroups_iff hallowed
  exact ⟨rfl, hdefined, hmem⟩

/-- The registry of a table has grown from that table. -/
lemma grownFrom_of_ofTable {table : Table} {base : Registry} (h : ofTable table = .ok base) :
    base.GrownFrom table := by
  obtain ⟨hgroups, hsections⟩ := ofTable_eq_ok h
  refine ⟨fun name => rel_imp (hgroups name) fun _ _ => holdsNames_of_distinct,
    fun name rule hrule => ?_, fun name type htype hname => ?_, fun name type htype => ?_⟩
  · obtain ⟨type, htype, hread⟩ := exists_left_of_rel (hsections name) hrule
    exact ⟨type, htype, (consistent_of_sectionOfRule hread).1⟩
  · obtain ⟨rule, hrule, -⟩ := exists_right_of_rel (hsections name) htype
    rw [Std.TreeMap.getElem?_eq_none hname] at hrule
    exact absurd hrule (by simp)
  · obtain ⟨rule, -, hread⟩ := exists_right_of_rel (hsections name) htype
    exact (consistent_of_sectionOfRule hread).2

end Registry

/-! ### Extending a registry -/

namespace SectionType

variable {groups : Std.TreeMap String (Std.TreeSet String)} {type : SectionType}

lemma consistent_empty : empty.Consistent groups :=
  ⟨by simp [empty], by simp [empty]⟩

/-- Adding the same names to the directives and to what is allowed keeps both in step. -/
lemma Consistent.extend (h : type.Consistent groups) (names : List String) :
    (type.extend names).Consistent groups := by
  refine ⟨h.groups_defined, fun key => ?_⟩
  rw [SectionType.extend, Std.TreeSet.mem_insertMany_list, Std.TreeSet.mem_insertMany_list,
    h.mem_allowed_iff, or_right_comm]

end SectionType

namespace Registry

lemma getElem?_sections_extendSection (registry : Registry) (name : String) (names : List String)
    (other : String) :
    (registry.extendSection name names).sections[other]? =
      if name = other then some ((registry.sections[name]?.getD .empty).extend names)
      else registry.sections[other]? := by
  rw [extendSection, Std.TreeMap.getElem?_insert, Std.TreeMap.getD_eq_getD_getElem?]
  simp only [Std.LawfulEqCmp.compare_eq_iff_eq]

namespace GrownFrom

variable {table : Table} {registry : Registry}

/-- One step: directives are added to one section type, which may be a new one. -/
lemma extendSection (h : registry.GrownFrom table) (name : String) (names : List String) :
    (registry.extendSection name names).GrownFrom table := by
  refine ⟨h.groups_eq, fun other rule hrule => ?_, fun other type htype hother => ?_,
    fun other type htype => ?_⟩
  · obtain ⟨type, htype, hgroups⟩ := h.kept other rule hrule
    rw [getElem?_sections_extendSection]
    by_cases heq : name = other
    · subst heq
      rw [if_pos rfl, htype]
      exact ⟨_, rfl, hgroups⟩
    · rw [if_neg heq]
      exact ⟨type, htype, hgroups⟩
  · rw [getElem?_sections_extendSection] at htype
    by_cases heq : name = other
    · subst heq
      rw [if_pos rfl] at htype
      obtain rfl := Option.some.inj htype
      -- a section type that is created has no groups, and one that was there keeps its own
      rcases hold : registry.sections[name]? with _ | old
      · rfl
      · exact h.added name old hold hother
    · rw [if_neg heq] at htype
      exact h.added other type htype hother
  · rw [getElem?_sections_extendSection] at htype
    split at htype
    · obtain rfl := Option.some.inj htype
      rcases hold : registry.sections[name]? with _ | old
      · exact SectionType.consistent_empty.extend names
      · exact (h.consistent name old hold).extend names
    · exact h.consistent other type htype

lemma extend (h : registry.GrownFrom table) (extra : NameLists) :
    (registry.extend extra).GrownFrom table := by
  rw [Registry.extend, Std.TreeMap.foldl_eq_foldl_toList]
  induction extra.toList generalizing registry with
  | nil => exact h
  | cons entry entries ih => exact ih (h.extendSection entry.1 entry.2)

lemma extendAll (h : registry.GrownFrom table) (extras : List NameLists) :
    (registry.extendAll extras).GrownFrom table := by
  induction extras generalizing registry with
  | nil => exact h
  | cons extra extras ih => exact ih (h.extend extra)

end GrownFrom

/-- **The parts of a registry stay in step.**  Let a registry be built from a table and extended any
number of times.  Then each of its section types allows its own directives and those of its groups and
no others, and these groups are all defined.  The groups are those of the table, the section types of
the table are there with their groups, and a section type that is not in the table has no groups. -/
theorem extendAll_grownFrom {table : Table} {base : Registry} (h : ofTable table = .ok base)
    (extras : List NameLists) : (base.extendAll extras).GrownFrom table :=
  (grownFrom_of_ofTable h).extendAll extras

/-- A section type with a group, extended by a directive of that group and by a section type of its
own, which is then extended again. -/
theorem extendAll_grownFrom_twice :
    let table : Table :=
      ⟨.ofList [("G", ["a", "b"])], .ofList [("S", (⟨["c"], ["G"]⟩ : SectionRule))]⟩
    ∃ base, ofTable table = .ok base ∧
      (base.extendAll [.ofList [("S", ["a"]), ("T", [])], .ofList [("T", ["d"])]]).GrownFrom
        table := by
  intro table
  obtain ⟨base, hbase⟩ : ∃ base, ofTable table = .ok base := ⟨_, rfl⟩
  exact ⟨base, hbase, extendAll_grownFrom hbase _⟩

end Registry

end UnitCheck
