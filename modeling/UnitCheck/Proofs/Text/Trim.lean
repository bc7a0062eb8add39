/-
Trimming.

A text falls into its indentation, its trimmed form and a blank rest.  What follows about
trimmed texts rests on this one decomposition, and on the fact that blank characters added at
an end make no difference.
-/
import Mathlib.Data.List.DropRight
import UnitCheck.Text.Blank

namespace UnitCheck

/-- A text that neither begins nor ends with a blank character. -/
structure Trimmed (text : List Char) : Prop where
  head : ∀ c ∈ text.head?, isBlank c = false
  last : ∀ c ∈ text.getLast?, isBlank c = false

instance (text : List Char) : Decidable (Trimmed text) :=
  decidable_of_iff (text.head?.any isBlank = false ∧ text.getLast?.any isBlank = false)
    ⟨fun ⟨hhead, hlast⟩ => ⟨(Option.any_eq_false _ _).1 hhead, (Option.any_eq_false _ _).1 hlast⟩,
      fun h => ⟨(Option.any_eq_false _ _).2 h.head, (Option.any_eq_false _ _).2 h.last⟩⟩

/-! ### The end of a text -/

lemma dropEndWhile_eq_rdropWhile (p : Char → Bool) (text : List Char) :
    dropEndWhile p text = text.rdropWhile p := rfl

/-- What is dropped at the end of a text satisfies the condition throughout. -/
lemma exists_dropEndWhile_append (p : Char → Bool) (text : List Char) :
    ∃ rest, (∀ c ∈ rest, p c = true) ∧ dropEndWhile p text ++ rest = text :=
  ⟨text.rtakeWhile p, fun _ hc => List.mem_rtakeWhile_imp hc,
    List.rdropWhile_append_rtakeWhile⟩

lemma dropEndWhile_append_of_forall {p : Char → Bool} {rest : List Char}
    (h : ∀ c ∈ rest, p c = true) (text : List Char) :
    dropEndWhile p (text ++ rest) = dropEndWhile p text := by
  induction rest using List.reverseRecOn with
  | nil => rw [List.append_nil]
  | append_singleton rest c ih =>
    have hc : p c = true := h c (by simp)
    rw [dropEndWhile_eq_rdropWhile, ← List.append_assoc, List.rdropWhile_concat_pos p _ c hc]
    exact ih fun d hd => h d (by simp [hd])

lemma trimEnd_append_of_blank {rest : List Char} (h : ∀ c ∈ rest, isBlank c = true)
    (text : List Char) : trimEnd (text ++ rest) = trimEnd text :=
  dropEndWhile_append_of_forall h text

lemma getLast?_dropEndWhile (p : Char → Bool) (text : List Char) :
    ∀ c ∈ (dropEndWhile p text).getLast?, p c = false := by
  intro c hc
  obtain ⟨hne, rfl⟩ := List.mem_getLast?_eq_getLast hc
  exact Bool.eq_false_iff.2 (List.rdropWhile_last_not p text hne)

lemma isBlank_getLast_trimEnd (text : List Char) :
    ∀ c ∈ (trimEnd text).getLast?, isBlank c = false :=
  getLast?_dropEndWhile isBlank text

/-! ### Both ends -/

/-- A text is its indentation, its trimmed form and a blank rest. -/
lemma exists_indentation_append_trim (text : List Char) :
    ∃ rest, (∀ c ∈ rest, isBlank c = true) ∧ indentation text ++ (trim text ++ rest) = text := by
  obtain ⟨rest, hrest, h⟩ := exists_dropEndWhile_append isBlank (trimStart text)
  refine ⟨rest, hrest, ?_⟩
  rw [show trim text ++ rest = trimStart text from h]
  exact indentation_append_trimStart text

lemma mem_of_mem_trim {text : List Char} {c : Char} (h : c ∈ trim text) : c ∈ text := by
  obtain ⟨rest, -, heq⟩ := exists_indentation_append_trim text
  rw [← heq]
  simp [h]

lemma trim_eq_nil_iff {text : List Char} : trim text = [] ↔ ∀ c ∈ text, isBlank c = true := by
  constructor
  · intro hnil c hc
    obtain ⟨rest, hrest, heq⟩ := exists_indentation_append_trim text
    rw [← heq, hnil] at hc
    rcases List.mem_append.1 hc with hc | hc
    · exact List.mem_takeWhile_imp hc
    · exact hrest c hc
  · intro h
    have hstart : trimStart text = [] := List.dropWhile_eq_nil_iff.2 h
    rw [trim, hstart]
    rfl

lemma trim_ne_nil_iff {text : List Char} : trim text ≠ [] ↔ ∃ c ∈ text, isBlank c = false := by
  rw [ne_eq, trim_eq_nil_iff]
  push Not
  simp only [Bool.not_eq_true]

lemma trimStart_append {a : List Char} (h : trim a ≠ []) (b : List Char) :
    trimStart (a ++ b) = trimStart a ++ b := by
  obtain ⟨c, hc, hblank⟩ := trim_ne_nil_iff.1 h
  unfold trimStart
  rw [List.dropWhile_append, if_neg]
  intro hnil
  rw [List.isEmpty_iff, List.dropWhile_eq_nil_iff] at hnil
  exact absurd (hnil c hc) (by simp [hblank])

/-- Blank characters behind a text do not change its trimmed form. -/
lemma trim_append_of_blank {rest : List Char} (h : ∀ c ∈ rest, isBlank c = true)
    (text : List Char) : trim (text ++ rest) = trim text := by
  by_cases hnil : trim text = []
  · rw [hnil, trim_eq_nil_iff]
    intro c hc
    rcases List.mem_append.1 hc with hc | hc
    · exact trim_eq_nil_iff.1 hnil c hc
    · exact h c hc
  · rw [trim, trimStart_append hnil, trimEnd_append_of_blank h, ← trim]

/-- The trimmed form is a leading part of what is left without the indentation. -/
lemma head?_trim {text : List Char} (h : trim text ≠ []) :
    (trim text).head? = (trimStart text).head? := by
  obtain ⟨rest, -, heq⟩ := exists_dropEndWhile_append isBlank (trimStart text)
  obtain ⟨c, trimmed, htrim⟩ := List.exists_cons_of_ne_nil h
  rw [← heq, show dropEndWhile isBlank (trimStart text) = trim text from rfl, htrim]
  rfl

/-- A part in front of a text begins as the text does, once both are trimmed. -/
lemma head?_trim_append {part : List Char} (h : trim part ≠ []) (rest : List Char) :
    (trim (part ++ rest)).head? = (trim part).head? := by
  obtain ⟨c, hc, hblank⟩ := trim_ne_nil_iff.1 h
  have hne : trim (part ++ rest) ≠ [] :=
    trim_ne_nil_iff.2 ⟨c, List.mem_append_left _ hc, hblank⟩
  obtain ⟨d, trimmed, htrim⟩ := List.exists_cons_of_ne_nil h
  have hhead : (trimStart part).head? = some d := by
    rw [← head?_trim h, htrim]
    rfl
  rw [head?_trim hne, head?_trim h, trimStart_append h, List.head?_append, hhead]
  rfl

lemma trimmed_trim (text : List Char) : Trimmed (trim text) := by
  refine ⟨fun c hc => ?_, isBlank_getLast_trimEnd _⟩
  have hne : trim text ≠ [] := by
    intro hnil
    rw [hnil] at hc
    exact absurd hc (by simp)
  have hstart := List.head?_dropWhile_not isBlank text
  rw [show List.dropWhile isBlank text = trimStart text from rfl, ← head?_trim hne,
    Option.mem_def.1 hc] at hstart
  simpa using hstart

lemma Trimmed.trimEnd_eq {text : List Char} (h : Trimmed text) : trimEnd text = text := by
  rw [trimEnd, dropEndWhile_eq_rdropWhile, List.rdropWhile_eq_self_iff]
  intro hne
  simpa using h.last _ (List.getLast?_eq_some_getLast hne)

lemma Trimmed.trim_eq {text : List Char} (h : Trimmed text) : trim text = text := by
  have hstart : trimStart text = text := by
    cases text with
    | nil => rfl
    | cons c text =>
      have hc : isBlank c = false := h.head c rfl
      simp [trimStart, hc]
  rw [trim, hstart, h.trimEnd_eq]

/-- What stands behind a text that is not blank leaves its indentation alone. -/
lemma indentation_append {a : List Char} (h : trim a ≠ []) (b : List Char) :
    indentation (a ++ b) = indentation a := by
  obtain ⟨c, hc, hblank⟩ := trim_ne_nil_iff.1 h
  unfold indentation
  rw [List.takeWhile_append, if_neg]
  -- the indentation would be all of `a`, but `c` is not blank
  intro hlen
  have hall := List.takeWhile_prefix isBlank |>.eq_of_length hlen
  rw [← hall] at hc
  exact absurd (List.mem_takeWhile_imp hc) (by simp [hblank])

end UnitCheck
