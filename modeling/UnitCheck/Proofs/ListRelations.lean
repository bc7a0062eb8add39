/-
Lists whose entries are related.

What `List.Forall₂` and `List.Pairwise` say of the entries of one list is carried over to the entries
of another.
-/
import Mathlib.Data.List.Forall2

namespace UnitCheck

variable {α β γ : Type}

/-! ### Two lists, entry by entry -/

lemma forall₂_filterMap {R : α → β → Prop} {f : α → Option β} {list : List α}
    (h : ∀ a ∈ list, ∃ b, f a = some b ∧ R a b) : List.Forall₂ R list (list.filterMap f) := by
  induction list with
  | nil => exact .nil
  | cons a list ih =>
    obtain ⟨b, hb, hab⟩ := h a List.mem_cons_self
    rw [List.filterMap_cons_some hb]
    exact .cons hab (ih fun a ha => h a (List.mem_cons_of_mem _ ha))

/-- Two lists that are related to a third one are related to each other. -/
lemma forall₂_of_common {R : α → γ → Prop} {S : β → γ → Prop} {T : α → β → Prop} {as : List α}
    {bs : List β} {cs : List γ} (ha : List.Forall₂ R as cs) (hb : List.Forall₂ S bs cs)
    (h : ∀ a b c, R a c → S b c → T a b) : List.Forall₂ T as bs := by
  induction ha generalizing bs with
  | nil =>
    cases hb
    exact .nil
  | cons hac _ ih =>
    cases hb with
    | cons hbc hb => exact .cons (h _ _ _ hac hbc) (ih hb)

variable {R : α → α → Prop} {list : List α} {a : α}

lemma eq_or_rel_getLast {last : α} (h : list.Pairwise R) (hlast : list.getLast? = some last)
    (ha : a ∈ list) : a = last ∨ R a last := by
  obtain ⟨front, rfl⟩ := List.getLast?_eq_some_iff.1 hlast
  rcases List.mem_append.1 ha with ha | ha
  · exact Or.inr ((List.pairwise_append.1 h).2.2 a ha last (List.mem_singleton_self last))
  · exact Or.inl (List.mem_singleton.1 ha)

end UnitCheck
