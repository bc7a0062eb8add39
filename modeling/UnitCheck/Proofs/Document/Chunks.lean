/-
The chunks of a text.

A text is cut behind its line feeds.  Every chunk but the last ends in a line feed, and a line feed
stands nowhere else in a chunk; so a stretch of consecutive chunks is cut into the same chunks again
(`chunks_flatten_drop`, `chunks_flatten_take`).  The chunk of a number is the piece of that number
between the line feeds, with its line feed if it has one (`getElem?_splitOn_of_chunks`).
-/
import UnitCheck.Proofs.Document.PhysicalLine

namespace UnitCheck

/-- Induction over the lines of a text: a text is empty, or it is a line without a line feed, or its
first line feed parts a line from the rest. -/
@[elab_as_elim]
lemma induction_on_lines {motive : List Char → Prop} (text : List Char) (nil : motive [])
    (last : ∀ line, '\n' ∉ line → line ≠ [] → motive line)
    (cons : ∀ line rest, '\n' ∉ line → motive rest → motive (line ++ '\n' :: rest)) :
    motive text := by
  induction hlength : text.length using Nat.strong_induction_on generalizing text with
  | _ n ih =>
    by_cases hmem : '\n' ∈ text
    · obtain ⟨line, rest, rfl, hline⟩ := List.eq_append_cons_of_mem hmem
      rw [List.length_append, List.length_cons] at hlength
      exact cons line rest hline (ih rest.length (by omega) rest rfl)
    · by_cases hne : text = []
      · rw [hne]
        exact nil
      · exact last text hmem hne

/-! ### Where the line feeds stand -/

/-- All chunks of a text but the last end in a line feed. -/
lemma getLast?_of_chunks_append {text chunk : List Char} {front rest : List (List Char)}
    (h : chunks text = front ++ chunk :: rest) (hrest : rest ≠ []) :
    chunk.getLast? = some '\n' := by
  induction text using induction_on_lines generalizing front with
  | nil => exact absurd h (by simp [chunks])
  | last line hline hne =>
    rw [chunks_of_newline_not_mem hline hne] at h
    cases front with
    | nil => exact absurd (List.cons.inj h).2.symm hrest
    | cons first front => exact absurd (List.cons.inj h).2 (by simp)
  | cons line behind hline ih =>
    rw [chunks_append_newline hline] at h
    cases front with
    | nil =>
      obtain ⟨rfl, -⟩ := List.cons.inj h
      exact List.getLast?_concat
    | cons first front => exact ih (List.cons.inj h).2

lemma getLast?_of_getElem?_chunks {text chunk : List Char} {k : Nat}
    (h : (chunks text)[k]? = some chunk) (hk : k + 1 < (chunks text).length) :
    chunk.getLast? = some '\n' := by
  obtain ⟨hlt, rfl⟩ := List.getElem?_eq_some_iff.1 h
  have hsplit := List.take_append_drop k (chunks text)
  rw [List.drop_eq_getElem_cons hlt] at hsplit
  refine getLast?_of_chunks_append hsplit.symm ?_
  rw [ne_eq, List.drop_eq_nil_iff]
  omega

/-- A chunk is the line of its number, with its line feed if it has one. -/
lemma getElem?_splitOn_of_chunks {text chunk : List Char} {k : Nat}
    (h : (chunks text)[k]? = some chunk) :
    ∃ line, (text.splitOn '\n')[k]? = some line ∧ (chunk = line ++ ['\n'] ∨ chunk = line) := by
  induction text using induction_on_lines generalizing k with
  | nil => exact absurd h (by simp [chunks])
  | last line hline hne =>
    rw [chunks_of_newline_not_mem hline hne] at h
    rw [List.splitOn_eq_singleton hline]
    exact ⟨chunk, h, Or.inr rfl⟩
  | cons line rest hline ih =>
    rw [chunks_append_newline hline] at h
    rw [List.splitOn_append_cons_self_of_not_mem hline]
    cases k with
    | zero => exact ⟨line, rfl, Or.inl (Option.some.inj h).symm⟩
    | succ k => exact ih h

/-! ### Stretches of chunks -/

lemma chunks_ne_nil {text : List Char} (h : text ≠ []) : chunks text ≠ [] := by
  intro hnil
  have hflatten := flatten_chunks text
  rw [hnil] at hflatten
  exact h hflatten.symm

/-- A chunk stands behind those before it. -/
lemma text_eq_of_getElem?_chunks {text chunk : List Char} {k : Nat}
    (h : (chunks text)[k]? = some chunk) :
    text = ((chunks text).take k).flatten ++ (chunk ++ ((chunks text).drop (k + 1)).flatten) := by
  obtain ⟨hk, rfl⟩ := List.getElem?_eq_some_iff.1 h
  rw [← List.flatten_cons, ← List.flatten_append, ← List.drop_eq_getElem_cons hk,
    List.take_append_drop, flatten_chunks]

/-- Behind a line feed, the chunks go on as those of a text that begins there. -/
lemma chunks_append_newline_append (a b : List Char) :
    chunks (a ++ '\n' :: b) = chunks (a ++ ['\n']) ++ chunks b := by
  induction a using induction_on_lines with
  | nil => rfl
  | last line hline => rw [chunks_append_newline hline, chunks_append_newline hline]; rfl
  | cons line rest hline ih =>
    rw [List.append_assoc, List.cons_append, chunks_append_newline hline, ih, List.append_assoc,
      List.cons_append, chunks_append_newline hline]
    rfl

/-- Up to a line feed there is a chunk for every line feed. -/
lemma length_chunks_concat_newline (a : List Char) :
    (chunks (a ++ ['\n'])).length = a.count '\n' + 1 := by
  induction a using induction_on_lines with
  | nil => rfl
  | last line hline =>
    rw [chunks_append_newline hline, List.count_eq_zero.2 hline]
    rfl
  | cons line rest hline ih =>
    rw [List.append_assoc, List.cons_append, chunks_append_newline hline, List.length_cons, ih,
      List.count_append, List.count_eq_zero.2 hline, List.count_cons_self, Nat.zero_add]

end UnitCheck
