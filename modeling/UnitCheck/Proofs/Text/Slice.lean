/-
Slices of a text.

A span cuts a part out of a text exactly when the text falls into what stands before the span,
the part, and what stands behind, with the ends of the span at the two seams.
-/
import Mathlib.Tactic.Lemma
import UnitCheck.Span

namespace UnitCheck

/-- Does the offset fall between two characters of the text, or at one of its ends? -/
def IsBoundary (text : List Char) (offset : Nat) : Prop :=
  ∃ before after, text = before ++ after ∧ byteLength before = offset

lemma byteLength_pos {text : List Char} (h : text ≠ []) : 0 < byteLength text := by
  cases text with
  | nil => exact absurd rfl h
  | cons c text =>
    have := c.utf8Size_pos
    rw [byteLength_cons]
    omega

/-- A part in front of a text is known from its number of bytes. -/
lemma append_inj_of_byteLength {a a' b b' : List Char} (h : a ++ b = a' ++ b')
    (hlength : byteLength a = byteLength a') : a = a' ∧ b = b' := by
  have hcut := splitAtByte?_append a b
  rw [h, hlength, splitAtByte?_append] at hcut
  obtain ⟨ha, hb⟩ := Prod.mk.inj (Option.some.inj hcut)
  exact ⟨ha.symm, hb.symm⟩

/-- A cut gives two parts of the text, the first of the given number of bytes. -/
lemma eq_append_of_splitAtByte? {n : Nat} {text before after : List Char}
    (h : splitAtByte? n text = some (before, after)) :
    text = before ++ after ∧ byteLength before = n := by
  fun_induction splitAtByte? n text generalizing before with
  | case1 text =>
    obtain ⟨rfl, rfl⟩ := Prod.mk.inj (Option.some.inj h)
    exact ⟨rfl, rfl⟩
  | case2 => exact absurd h (by simp)
  | case3 n c text hsize ih =>
    obtain ⟨⟨first, rest⟩, hcut, heq⟩ := Option.map_eq_some_iff.1 h
    obtain ⟨rfl, rfl⟩ := Prod.mk.inj heq
    obtain ⟨rfl, hlength⟩ := ih hcut
    refine ⟨rfl, ?_⟩
    rw [byteLength_cons, hlength]
    omega
  | case4 => exact absurd h (by simp)

/-- The parts between separators do not hold the separator. -/
lemma not_mem_of_mem_splitOn {separator : Char} {text part : List Char}
    (h : part ∈ text.splitOn separator) : separator ∉ part := by
  induction text generalizing part with
  | nil =>
    rw [List.mem_singleton.1 h]
    simp
  | cons c text ih =>
    rw [List.splitOn_cons_eq_if_modifyHead] at h
    split at h
    · rcases List.mem_cons.1 h with rfl | h
      · simp
      · exact ih h
    · rename_i hc
      obtain ⟨first, rest, hsplit⟩ := List.exists_cons_of_ne_nil (List.splitOn_ne_nil separator text)
      rw [hsplit] at h ih
      rcases List.mem_cons.1 h with rfl | h
      · simp only [beq_iff_eq] at hc
        simpa [Ne.symm hc] using ih List.mem_cons_self
      · exact ih (List.mem_cons_of_mem _ h)

namespace Span

/-- A span whose ends are those of a part of the text covers that part. -/
lemma slice?_eq_some {span : Span} {text before part after : List Char}
    (htext : text = before ++ (part ++ after)) (hstart : span.start = byteLength before)
    (hstop : span.stop = byteLength before + byteLength part) : span.slice? text = some part := by
  have hlength : span.length = byteLength part := by
    rw [length]
    omega
  rw [slice?, if_pos (by omega), hstart, dropBytes?_eq_map, htext, splitAtByte?_append, hlength]
  simp [splitAtByte?_append]

/-- A part that a span covers stands in the text between the two ends of the span. -/
lemma exists_append_of_slice?_eq_some {span : Span} {text part : List Char}
    (h : span.slice? text = some part) :
    ∃ before after, text = before ++ (part ++ after) ∧ span.start = byteLength before ∧
      span.stop = byteLength before + byteLength part := by
  rw [slice?] at h
  split at h
  · rename_i hordered
    obtain ⟨rest, hrest, hpart⟩ := Option.bind_eq_some_iff.1 h
    obtain ⟨⟨first, after⟩, hcut, heq⟩ := Option.bind_eq_some_iff.1 hpart
    obtain rfl : first = part := Option.some.inj heq
    rw [dropBytes?_eq_map] at hrest
    obtain ⟨⟨before, rest'⟩, hbefore, rfl⟩ := Option.map_eq_some_iff.1 hrest
    obtain ⟨rfl, hstart⟩ := eq_append_of_splitAtByte? hbefore
    obtain ⟨rfl, hlength⟩ := eq_append_of_splitAtByte? hcut
    refine ⟨before, after, rfl, hstart.symm, ?_⟩
    rw [hstart, hlength, length]
    omega
  · exact absurd h (by simp)

end Span

end UnitCheck
