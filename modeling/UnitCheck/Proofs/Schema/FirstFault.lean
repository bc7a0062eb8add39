/-
Which tables are accepted, and what is wrong with the others.

A table is read by runs through lists: the entries of its groups and section types, the names in each
list, and the groups of a section type.  A run that ends early ends at the first element that is
refused, and all elements before it are accepted (`foldlM_eq_error_iff`).  What that means is worked
out from the inside: first for a list of names, then for a list of groups, then for the rule of a
section type, and at last for the table, whose entries come in the order of the bytes of their names.
-/
import Mathlib.Data.List.Induction
import Mathlib.Data.List.Nodup
import UnitCheck.Proofs.Schema.Invariant
import UnitCheck.Proofs.Text.ByteOrder

namespace UnitCheck

/-! ### Faults -/

/-- The name is the first in the list that is there already: it stands behind an equal one, and the
names before it are all different. -/
def IsFirstRepeat (names : List String) (name : String) : Prop :=
  ∃ front rest, names = front ++ name :: rest ∧ name ∈ front ∧ front.Nodup

/-- The group is the first in the list that is not defined. -/
def IsFirstUndefined (groups : NameLists) (names : List String) (group : String) : Prop :=
  ∃ front rest, names = front ++ group :: rest ∧ group ∉ groups ∧ ∀ other ∈ front, other ∈ groups

/-- The rule lists no directive twice and only groups that are defined. -/
structure SectionRule.IsSound (groups : NameLists) (rule : SectionRule) : Prop where
  directives_nodup : rule.directives.Nodup
  groups_defined : ∀ group ∈ rule.groups, group ∈ groups

/-- The first fault of the rule of a section type.  Groups are only looked at if no directive is listed
twice. -/
inductive SectionRule.FirstFault (groups : NameLists) (sectionType : String) (rule : SectionRule) :
    SchemaError → Prop
  | repeated {directive : String} (h : IsFirstRepeat rule.directives directive) :
    FirstFault groups sectionType rule (.duplicateDirective directive sectionType)
  | undefined {group : String} (hdirectives : rule.directives.Nodup)
    (h : IsFirstUndefined groups rule.groups group) :
    FirstFault groups sectionType rule (.undefinedGroup sectionType group)

/-- No group lists a directive twice. -/
def Table.GroupsSound (table : Table) : Prop :=
  ∀ (name : String) (names : List String), table.groups[name]? = some names → names.Nodup

/-- The groups and the rules of all section types are as they should be. -/
structure Table.IsSound (table : Table) : Prop where
  groups_sound : table.GroupsSound
  rules_sound : ∀ (name : String) (rule : SectionRule), table.sections[name]? = some rule →
    rule.IsSound table.groups

/-- The first fault of a table.  Groups come before section types, and both come in the order of the
bytes of their names. -/
inductive Table.FirstFault (table : Table) : SchemaError → Prop
  | group {name directive : String} {names : List String} (hname : table.groups[name]? = some names)
    (h : IsFirstRepeat names directive)
    (hbefore : ∀ (other : String) (list : List String), BytesPrecede other name →
      table.groups[other]? = some list → list.Nodup) :
    FirstFault table (.duplicateDirective directive name)
  | rule {name : String} {rule : SectionRule} {fault : SchemaError} (hgroups : table.GroupsSound)
    (hname : table.sections[name]? = some rule) (h : rule.FirstFault table.groups name fault)
    (hbefore : ∀ (other : String) (earlier : SectionRule), BytesPrecede other name →
      table.sections[other]? = some earlier → earlier.IsSound table.groups) :
    FirstFault table fault

/-! ### Runs that end early -/

section Runs

variable {ε α β : Type}

lemma bind_eq_error_iff {x : Except ε α} {f : α → Except ε β} {e : ε} :
    x >>= f = .error e ↔ x = .error e ∨ ∃ a, x = .ok a ∧ f a = .error e := by
  cases x with
  | error e' => simp [bind, Except.bind]
  | ok a => simp [bind, Except.bind]

lemma exists_bind_eq_ok_iff {x : Except ε α} {f : α → Except ε β} :
    (∃ b, x >>= f = .ok b) ↔ ∃ a b, x = .ok a ∧ f a = .ok b := by
  cases x with
  | error e => simp [bind, Except.bind]
  | ok a => simp [bind, Except.bind]

lemma exists_ok_iff_forall_ne_error {x : Except ε α} :
    (∃ a, x = .ok a) ↔ ∀ e, x ≠ .error e := by
  cases x with
  | error e => simp
  | ok a => simp

/-- A run through a list ends early at an element if those before it are passed and it is refused. -/
lemma foldlM_eq_error_iff {f : β → α → Except ε β} {list : List α} {start : β} {e : ε} :
    list.foldlM f start = .error e ↔ ∃ front x rest acc, list = front ++ x :: rest ∧
      front.foldlM f start = .ok acc ∧ f acc x = .error e := by
  constructor
  · intro h
    induction list generalizing start with
    | nil => exact absurd h (by simp [pure, Except.pure])
    | cons x list ih =>
      rw [List.foldlM_cons] at h
      rcases bind_eq_error_iff.1 h with h | ⟨next, hnext, h⟩
      · exact ⟨[], x, list, start, rfl, rfl, h⟩
      · obtain ⟨front, y, rest, acc, rfl, hfront, hy⟩ := ih h
        refine ⟨x :: front, y, rest, acc, rfl, ?_, hy⟩
        rw [List.foldlM_cons, hnext]
        exact hfront
  · rintro ⟨front, x, rest, acc, rfl, hfront, hx⟩
    rw [List.foldlM_append, hfront]
    show List.foldlM f acc (x :: rest) = _
    rw [List.foldlM_cons, hx]
    rfl

section Memoryless

variable {f : β → α → Except ε β} {R : α → ε → Prop}
  (hf : ∀ acc x e, f acc x = .error e ↔ R x e)
include hf

lemma exists_step_eq_ok_iff (acc : β) (x : α) : (∃ next, f acc x = .ok next) ↔ ∀ e, ¬ R x e := by
  rw [exists_ok_iff_forall_ne_error]
  exact forall_congr' fun e => not_congr (hf acc x e)

/-- If a refusal depends on the element alone, a run passes the lists without such elements. -/
lemma exists_foldlM_eq_ok_iff (list : List α) (start : β) :
    (∃ acc, list.foldlM f start = .ok acc) ↔ ∀ x ∈ list, ∀ e, ¬ R x e := by
  induction list generalizing start with
  | nil => exact ⟨fun _ => by simp, fun _ => ⟨start, rfl⟩⟩
  | cons x list ih =>
    rw [List.foldlM_cons, exists_bind_eq_ok_iff, List.forall_mem_cons]
    constructor
    · rintro ⟨next, acc, hx, hlist⟩
      exact ⟨(exists_step_eq_ok_iff hf start x).1 ⟨next, hx⟩, (ih next).1 ⟨acc, hlist⟩⟩
    · rintro ⟨hx, hlist⟩
      obtain ⟨next, hnext⟩ := (exists_step_eq_ok_iff hf start x).2 hx
      obtain ⟨acc, hacc⟩ := (ih next).2 hlist
      exact ⟨next, acc, hnext, hacc⟩

/-- If a refusal depends on the element alone, a run ends early at the first such element. -/
lemma foldlM_eq_error_iff_first {list : List α} {start : β} {e : ε} :
    list.foldlM f start = .error e ↔ ∃ front x rest, list = front ++ x :: rest ∧
      (∀ y ∈ front, ∀ e', ¬ R y e') ∧ R x e := by
  rw [foldlM_eq_error_iff]
  constructor
  · rintro ⟨front, x, rest, acc, hlist, hfront, hx⟩
    exact ⟨front, x, rest, hlist, (exists_foldlM_eq_ok_iff hf front start).1 ⟨acc, hfront⟩,
      (hf acc x e).1 hx⟩
  · rintro ⟨front, x, rest, hlist, hfront, hx⟩
    obtain ⟨acc, hacc⟩ := (exists_foldlM_eq_ok_iff hf front start).2 hfront
    exact ⟨front, x, rest, acc, hlist, hacc, (hf acc x e).2 hx⟩

end Memoryless

end Runs

namespace Registry

/-! ### A list of names -/

lemma distinct_concat (list : String) (names : List String) (name : String) :
    distinct list (names ++ [name]) = distinct list names >>= fun seen =>
      if seen.contains name then .error (.duplicateDirective name list)
      else .ok (seen.insert name) := by
  rw [distinct, List.foldlM_append]
  refine bind_congr fun seen => ?_
  rw [List.foldlM_cons]
  split <;> rfl

/-- A list of names is accepted if they are all different. -/
lemma exists_distinct_eq_ok_iff (list : String) (names : List String) :
    (∃ set, distinct list names = .ok set) ↔ names.Nodup := by
  induction names using List.reverseRecOn with
  | nil => exact ⟨fun _ => List.nodup_nil, fun _ => ⟨∅, rfl⟩⟩
  | append_singleton names name ih =>
    rw [distinct_concat, exists_bind_eq_ok_iff, List.nodup_append_comm, List.singleton_append,
      List.nodup_cons, ← ih]
    constructor
    · rintro ⟨seen, set, hseen, hset⟩
      split at hset
      · exact absurd hset (by simp)
      · rename_i hnew
        rw [Std.TreeSet.contains_iff_mem, holdsNames_of_distinct hseen] at hnew
        exact ⟨hnew, seen, hseen⟩
    · rintro ⟨hnew, seen, hseen⟩
      rw [← holdsNames_of_distinct hseen, ← Std.TreeSet.contains_iff_mem] at hnew
      exact ⟨seen, _, hseen, if_neg hnew⟩

/-- A list of names is refused for the first name that is there already. -/
lemma distinct_eq_error_iff {list : String} {names : List String} {fault : SchemaError} :
    distinct list names = .error fault ↔
      ∃ name, IsFirstRepeat names name ∧ fault = .duplicateDirective name list := by
  rw [distinct, foldlM_eq_error_iff]
  constructor
  · rintro ⟨front, name, rest, seen, rfl, hfront, hname⟩
    split at hname
    · rename_i hold
      rw [Std.TreeSet.contains_iff_mem, holdsNames_of_distinct hfront] at hold
      exact ⟨name, ⟨front, rest, rfl, hold, (exists_distinct_eq_ok_iff list front).1 ⟨seen, hfront⟩⟩,
        (Except.error.inj hname).symm⟩
    · exact absurd hname (by simp)
  · rintro ⟨name, ⟨front, rest, rfl, hold, hnodup⟩, rfl⟩
    obtain ⟨seen, hfront⟩ := (exists_distinct_eq_ok_iff list front).2 hnodup
    rw [← holdsNames_of_distinct hfront, ← Std.TreeSet.contains_iff_mem] at hold
    exact ⟨front, name, rest, seen, rfl, hfront, if_pos hold⟩

/-! ### The rule of a section type -/

section Rule

variable {groups : Std.TreeMap String (Std.TreeSet String)} {lists : NameLists}
  (hgroups : ∀ name, name ∈ groups ↔ name ∈ lists) {sectionType : String}
include hgroups

/-- A list of groups is refused for the first one that is not defined. -/
lemma includeGroups_eq_error_iff {direct : Std.TreeSet String} {names : List String}
    {fault : SchemaError} :
    includeGroups groups sectionType direct names = .error fault ↔
      ∃ group, IsFirstUndefined lists names group ∧ fault = .undefinedGroup sectionType group := by
  rw [includeGroups, foldlM_eq_error_iff_first
    (R := fun group fault => group ∉ lists ∧ fault = .undefinedGroup sectionType group)]
  · constructor
    · rintro ⟨front, group, rest, hnames, hfront, hgroup, hfault⟩
      exact ⟨group, ⟨front, rest, hnames, hgroup, by simpa using hfront⟩, hfault⟩
    · rintro ⟨group, ⟨front, rest, hnames, hgroup, hfront⟩, hfault⟩
      exact ⟨front, group, rest, hnames, by simpa using hfront, hgroup, hfault⟩
  · intro allowed group fault
    rw [← hgroups, Std.TreeMap.mem_iff_isSome_getElem?]
    rcases groups[group]? with _ | members
    · simp [eq_comm]
    · simp

/-- A list of groups is accepted if they are all defined. -/
lemma exists_includeGroups_eq_ok_iff (direct : Std.TreeSet String) (names : List String) :
    (∃ allowed, includeGroups groups sectionType direct names = .ok allowed) ↔
      ∀ group ∈ names, group ∈ lists := by
  constructor
  · rintro ⟨allowed, hallowed⟩ group hgroup
    exact (hgroups group).1 ((mem_includeGroups_iff hallowed).1 group hgroup)
  · intro hdefined
    refine exists_ok_iff_forall_ne_error.2 fun fault hfault => ?_
    obtain ⟨group, ⟨front, rest, rfl, hundefined, -⟩, -⟩ :=
      (includeGroups_eq_error_iff hgroups).1 hfault
    exact hundefined (hdefined group (by simp))

/-- The rule of a section type is accepted if it is sound. -/
lemma exists_sectionOfRule_eq_ok_iff (rule : SectionRule) :
    (∃ type, sectionOfRule groups sectionType rule = .ok type) ↔ rule.IsSound lists := by
  rw [sectionOfRule, exists_bind_eq_ok_iff]
  constructor
  · rintro ⟨direct, type, hdirect, htype⟩
    obtain ⟨allowed, hallowed, -⟩ := exists_ok_of_bind htype
    exact ⟨(exists_distinct_eq_ok_iff _ _).1 ⟨direct, hdirect⟩,
      (exists_includeGroups_eq_ok_iff hgroups _ _).1 ⟨allowed, hallowed⟩⟩
  · rintro ⟨hnodup, hdefined⟩
    obtain ⟨direct, hdirect⟩ := (exists_distinct_eq_ok_iff sectionType _).2 hnodup
    obtain ⟨allowed, hallowed⟩ := (exists_includeGroups_eq_ok_iff hgroups direct _).2 hdefined
    exact ⟨direct, ⟨direct, rule.groups, allowed⟩, hdirect, by rw [hallowed]; rfl⟩

/-- The rule of a section type is refused for its first fault. -/
lemma sectionOfRule_eq_error_iff {rule : SectionRule} {fault : SchemaError} :
    sectionOfRule groups sectionType rule = .error fault ↔
      rule.FirstFault lists sectionType fault := by
  rw [sectionOfRule, bind_eq_error_iff]
  constructor
  · rintro (hdirect | ⟨direct, hdirect, hgroup⟩)
    · obtain ⟨directive, hfirst, rfl⟩ := distinct_eq_error_iff.1 hdirect
      exact .repeated hfirst
    · have hnodup := (exists_distinct_eq_ok_iff _ _).1 ⟨direct, hdirect⟩
      rcases bind_eq_error_iff.1 hgroup with hgroup | ⟨_, -, hgroup⟩
      · obtain ⟨group, hfirst, rfl⟩ := (includeGroups_eq_error_iff hgroups).1 hgroup
        exact .undefined hnodup hfirst
      · exact absurd hgroup (by simp [pure, Except.pure])
  · rintro (hfirst | ⟨hnodup, hfirst⟩)
    · exact Or.inl (distinct_eq_error_iff.2 ⟨_, hfirst, rfl⟩)
    · obtain ⟨direct, hdirect⟩ := (exists_distinct_eq_ok_iff sectionType _).2 hnodup
      exact Or.inr ⟨direct, hdirect, bind_eq_error_iff.2
        (Or.inl ((includeGroups_eq_error_iff hgroups).2 ⟨_, hfirst, rfl⟩))⟩

end Rule

/-! ### The entries of a map -/

/-- The first entry of a map with a property, in the order of the bytes of the names: all entries of
smaller names have another one. -/
lemma exists_first_entry_iff {α : Type} {map : Std.TreeMap String α} {P Q : String → α → Prop} :
    (∃ front entry rest, map.toList = front ++ entry :: rest ∧
      (∀ other ∈ front, P other.1 other.2) ∧ Q entry.1 entry.2) ↔
    ∃ (name : String) (value : α), map[name]? = some value ∧ Q name value ∧
      ∀ (other : String) (earlier : α), BytesPrecede other name → map[other]? = some earlier →
        P other earlier := by
  have hordered := map.ordered_keys_toList
  constructor
  · rintro ⟨front, ⟨name, value⟩, rest, hlist, hfront, hentry⟩
    rw [hlist] at hordered
    obtain ⟨-, hbehind, -⟩ := List.pairwise_append.1 hordered
    refine ⟨name, value, ?_, hentry, fun other earlier hprecede hother => ?_⟩
    · rw [← Std.TreeMap.mem_toList_iff_getElem?_eq_some, hlist]
      simp
    · rw [← Std.TreeMap.mem_toList_iff_getElem?_eq_some, hlist] at hother
      have hlt := compare_eq_lt_iff_bytesPrecede.2 hprecede
      rcases List.mem_append.1 hother with hother | hother
      · exact hfront _ hother
      · -- an entry behind has a greater name
        exfalso
        rcases List.mem_cons.1 hother with heq | hother
        · obtain ⟨rfl, -⟩ := Prod.mk.inj heq
          exact absurd hlt (by simp)
        · have hgt := (List.pairwise_cons.1 hbehind).1 _ hother
          exact Std.OrientedCmp.not_lt_of_lt hgt hlt
  · rintro ⟨name, value, hname, hentry, hbefore⟩
    obtain ⟨front, rest, hlist⟩ :=
      List.append_of_mem (Std.TreeMap.mem_toList_iff_getElem?_eq_some.2 hname)
    refine ⟨front, (name, value), rest, hlist, fun other hother => ?_, hentry⟩
    rw [hlist] at hordered
    have hlt := (List.pairwise_append.1 hordered).2.2 other hother _ List.mem_cons_self
    refine hbefore other.1 other.2 (compare_eq_lt_iff_bytesPrecede.1 hlt) ?_
    rw [← Std.TreeMap.mem_toList_iff_getElem?_eq_some, hlist]
    exact List.mem_append_left _ hother

section Filled

variable {α β : Type} {read : String → α → Except SchemaError β} {map : Std.TreeMap String α}

/-- Filling a map from another one ends at the first entry that is refused. -/
lemma foldlM_insert_toList_eq_error_iff {fault : SchemaError} :
    map.toList.foldlM (fun (map : Std.TreeMap String β) (name, entry) => do
      return map.insert name (← read name entry)) ∅ = .error fault ↔
    ∃ (name : String) (entry : α), map[name]? = some entry ∧ read name entry = .error fault ∧
      ∀ (other : String) (earlier : α), BytesPrecede other name → map[other]? = some earlier →
        ∃ value, read other earlier = .ok value := by
  rw [← exists_first_entry_iff
    (P := fun other earlier => ∃ value, read other earlier = .ok value),
    foldlM_eq_error_iff_first (R := fun entry fault => read entry.1 entry.2 = .error fault)]
  · simp only [exists_ok_iff_forall_ne_error, ne_eq]
  · rintro filled ⟨name, entry⟩ fault
    rw [bind_eq_error_iff]
    simp [pure, Except.pure]

/-- Filling a map from another one succeeds if every entry is accepted. -/
lemma exists_foldlM_insert_toList_eq_ok_iff :
    (∃ result, map.toList.foldlM (fun (map : Std.TreeMap String β) (name, entry) => do
      return map.insert name (← read name entry)) ∅ = .ok result) ↔
    ∀ (name : String) (entry : α), map[name]? = some entry → ∃ value, read name entry = .ok value := by
  constructor
  · rintro ⟨result, hresult⟩ name entry hentry
    obtain ⟨value, -, hread⟩ := exists_left_of_rel (rel_foldlM_insert_toList hresult name) hentry
    exact ⟨value, hread⟩
  · intro hread
    refine exists_ok_iff_forall_ne_error.2 fun fault hfault => ?_
    obtain ⟨name, entry, hentry, hrefused, -⟩ := foldlM_insert_toList_eq_error_iff.1 hfault
    exact exists_ok_iff_forall_ne_error.1 (hread name entry hentry) fault hrefused

end Filled

/-! ### The table -/

lemma exists_groupsOfTable_eq_ok_iff (table : Table) :
    (∃ groups, groupsOfTable table.groups.toList = .ok groups) ↔ table.GroupsSound := by
  rw [groupsOfTable, exists_foldlM_insert_toList_eq_ok_iff]
  simp only [exists_distinct_eq_ok_iff]
  rfl

/-- The groups that are read are those of the table. -/
lemma mem_groups_iff {table : Table} {groups : Std.TreeMap String (Std.TreeSet String)}
    (h : groupsOfTable table.groups.toList = .ok groups) (name : String) :
    name ∈ groups ↔ name ∈ table.groups := by
  rw [Std.TreeMap.mem_iff_isSome_getElem?, Std.TreeMap.mem_iff_isSome_getElem?,
    isSome_eq_of_rel (rel_foldlM_insert_toList h name)]

/-- The section types are accepted if all rules are sound. -/
lemma exists_sectionsOfTable_eq_ok_iff {table : Table}
    {groups : Std.TreeMap String (Std.TreeSet String)}
    (h : groupsOfTable table.groups.toList = .ok groups) :
    (∃ sections, sectionsOfTable groups table.sections.toList = .ok sections) ↔
      ∀ (name : String) (rule : SectionRule), table.sections[name]? = some rule →
        rule.IsSound table.groups := by
  rw [sectionsOfTable, exists_foldlM_insert_toList_eq_ok_iff]
  simp only [exists_sectionOfRule_eq_ok_iff (mem_groups_iff h)]

/-- A table is accepted if it is sound. -/
lemma exists_ofTable_eq_ok_iff (table : Table) :
    (∃ registry, ofTable table = .ok registry) ↔ table.IsSound := by
  rw [ofTable, exists_bind_eq_ok_iff]
  constructor
  · rintro ⟨groups, registry, hgroups, hregistry⟩
    obtain ⟨sections, hsections, -⟩ := exists_ok_of_bind hregistry
    exact ⟨(exists_groupsOfTable_eq_ok_iff table).1 ⟨groups, hgroups⟩,
      (exists_sectionsOfTable_eq_ok_iff hgroups).1 ⟨sections, hsections⟩⟩
  · rintro ⟨hgroups, hrules⟩
    obtain ⟨groups, hgroups⟩ := (exists_groupsOfTable_eq_ok_iff table).2 hgroups
    obtain ⟨sections, hsections⟩ := (exists_sectionsOfTable_eq_ok_iff hgroups).2 hrules
    exact ⟨groups, ⟨groups, sections⟩, hgroups, by rw [hsections]; rfl⟩

/-- A table is refused for its first fault. -/
lemma ofTable_eq_error_iff {table : Table} {fault : SchemaError} :
    ofTable table = .error fault ↔ table.FirstFault fault := by
  rw [ofTable, bind_eq_error_iff]
  constructor
  · rintro (hgroups | ⟨groups, hgroups, hsections⟩)
    · obtain ⟨name, names, hname, hrefused, hbefore⟩ :=
        foldlM_insert_toList_eq_error_iff.1 hgroups
      obtain ⟨directive, hfirst, rfl⟩ := distinct_eq_error_iff.1 hrefused
      exact .group hname hfirst fun other list hprecede hother =>
        (exists_distinct_eq_ok_iff other list).1 (hbefore other list hprecede hother)
    · have hsound := (exists_groupsOfTable_eq_ok_iff table).1 ⟨groups, hgroups⟩
      rcases bind_eq_error_iff.1 hsections with hsections | ⟨_, -, hsections⟩
      · obtain ⟨name, rule, hname, hrefused, hbefore⟩ :=
          foldlM_insert_toList_eq_error_iff.1 hsections
        exact .rule hsound hname ((sectionOfRule_eq_error_iff (mem_groups_iff hgroups)).1 hrefused)
          fun other earlier hprecede hother =>
            (exists_sectionOfRule_eq_ok_iff (mem_groups_iff hgroups) earlier).1
              (hbefore other earlier hprecede hother)
      · exact absurd hsections (by simp [pure, Except.pure])
  · rintro (⟨hname, hfirst, hbefore⟩ | ⟨hsound, hname, hfirst, hbefore⟩)
    · refine Or.inl (foldlM_insert_toList_eq_error_iff.2 ⟨_, _, hname,
        distinct_eq_error_iff.2 ⟨_, hfirst, rfl⟩, fun other list hprecede hother => ?_⟩)
      exact (exists_distinct_eq_ok_iff other list).2 (hbefore other list hprecede hother)
    · obtain ⟨groups, hgroups⟩ := (exists_groupsOfTable_eq_ok_iff table).2 hsound
      refine Or.inr ⟨groups, hgroups, bind_eq_error_iff.2 (Or.inl
        (foldlM_insert_toList_eq_error_iff.2 ⟨_, _, hname,
          (sectionOfRule_eq_error_iff (mem_groups_iff hgroups)).2 hfirst,
          fun other earlier hprecede hother => ?_⟩))⟩
      exact (exists_sectionOfRule_eq_ok_iff (mem_groups_iff hgroups) earlier).2
        (hbefore other earlier hprecede hother)

/-- The section type of a rule has the directives and the groups of the rule. -/
lemma holdsNames_of_sectionOfRule {groups : Std.TreeMap String (Std.TreeSet String)}
    {name : String} {rule : SectionRule} {type : SectionType}
    (h : sectionOfRule groups name rule = .ok type) :
    HoldsNames type.directives rule.directives ∧ type.groups = rule.groups := by
  obtain ⟨direct, hdirect, h⟩ := exists_ok_of_bind h
  obtain ⟨allowed, -, h⟩ := exists_ok_of_bind h
  obtain rfl : (⟨direct, rule.groups, allowed⟩ : SectionType) = type := Except.ok.inj h
  exact ⟨holdsNames_of_distinct hdirect, rfl⟩

/-- **Exactly the sound tables are accepted.**  A table is accepted if no list of names holds a name
twice and every group of a section type is defined.  The registry then has the groups and the section
types of the table, with the same names.  Any other table is refused, for its first fault: groups come
before section types, both in the order of the bytes of their names; within a list it is the first name
that is there already; within a section type such a name comes before an undefined group, and of
several undefined groups it is the first. -/
theorem ofTable_accepts_sound_tables (table : Table) :
    ((∃ registry, ofTable table = .ok registry) ↔ table.IsSound) ∧
    (∀ registry, ofTable table = .ok registry →
      (∀ name : String, Option.Rel HoldsNames registry.groups[name]? table.groups[name]?) ∧
      ∀ name : String, Option.Rel
        (fun type rule => HoldsNames type.directives rule.directives ∧ type.groups = rule.groups)
        registry.sections[name]? table.sections[name]?) ∧
    ∀ fault, ofTable table = .error fault ↔ table.FirstFault fault := by
  refine ⟨exists_ofTable_eq_ok_iff table, fun registry hregistry => ?_,
    fun fault => ofTable_eq_error_iff⟩
  obtain ⟨hgroups, hsections⟩ := ofTable_eq_ok hregistry
  exact ⟨fun name => rel_imp (hgroups name) fun _ _ => holdsNames_of_distinct,
    fun name => rel_imp (hsections name) fun _ _ => holdsNames_of_sectionOfRule⟩

/-- Two names are listed twice in the second group, and the section type has faults of its own. -/
theorem ofTable_accepts_sound_tables_repeat :
    let table : Table := ⟨.ofList [("b", ["x", "y", "y", "x"]), ("a", ["x"])],
      .ofList [("S", (⟨["k", "k"], ["c"]⟩ : SectionRule))]⟩
    ofTable table = .error (.duplicateDirective "y" "b") ∧
      table.FirstFault (.duplicateDirective "y" "b") ∧ ¬ table.IsSound := by
  intro table
  have hrefused : ofTable table = .error (.duplicateDirective "y" "b") := rfl
  obtain ⟨haccepted, -, hfault⟩ := ofTable_accepts_sound_tables table
  refine ⟨hrefused, (hfault _).1 hrefused, fun hsound => ?_⟩
  obtain ⟨registry, hregistry⟩ := haccepted.2 hsound
  exact absurd (hrefused.symm.trans hregistry) (by simp)

end Registry

end UnitCheck
