/-
Lines that are swallowed by a continuation.

Whether a line continues a value is said here without a machine: some earlier entry asks for a
continuation, is not itself part of one, and no line between ends it.  The definition goes back
to earlier lines, and `swallowed_succ_iff` turns it into a rule for the next line.  The reader
follows the same rule (`readLine_snd_iff_swallowed`).
-/
import UnitCheck.Proofs.Document.LineKind

namespace UnitCheck

/-- Does a line that continues a value leave the continuation open? -/
def KeepsOpen (text : List Char) : Prop :=
  IsCommentLine text ∨ EndsInBackslash (trim text)

instance (text : List Char) : Decidable (KeepsOpen text) :=
  inferInstanceAs (Decidable (_ ∨ _))

/-- Line `j` belongs to a continuation: there is an earlier entry that does not, whose value ends
in a backslash, and every line strictly between the two keeps the continuation open. -/
def Swallowed (lines : List Line) (j : Nat) : Prop :=
  ∃ i line, ∃ _ : i < j, lines[i]? = some line ∧ IsEntry line.text ∧ ¬ Swallowed lines i ∧
    EndsInBackslash (trim (valuePart line.text)) ∧
    ∀ m between, i < m → m < j → lines[m]? = some between → KeepsOpen between.text
termination_by j

lemma swallowed_iff (lines : List Line) (j : Nat) :
    Swallowed lines j ↔ ∃ i line, i < j ∧ lines[i]? = some line ∧ IsEntry line.text ∧
      ¬ Swallowed lines i ∧ EndsInBackslash (trim (valuePart line.text)) ∧
      ∀ m between, i < m → m < j → lines[m]? = some between → KeepsOpen between.text := by
  rw [Swallowed]
  simp only [exists_prop]

lemma not_swallowed_zero (lines : List Line) : ¬ Swallowed lines 0 := by
  rw [swallowed_iff]
  rintro ⟨i, -, hi, -⟩
  omega

/-- The rule for the next line: it is swallowed if this one begins a continuation or leaves one
open. -/
lemma swallowed_succ_iff {lines : List Line} {k : Nat} {line : Line} (hk : lines[k]? = some line) :
    Swallowed lines (k + 1) ↔
      (¬ Swallowed lines k ∧ IsEntry line.text ∧ EndsInBackslash (trim (valuePart line.text))) ∨
        (Swallowed lines k ∧ KeepsOpen line.text) := by
  constructor
  · intro h
    obtain ⟨i, entry, hi, hentry, hkind, hfresh, hasks, hopen⟩ := (swallowed_iff lines (k + 1)).1 h
    -- the continuation began before line `k`, or it begins there
    rcases Nat.lt_succ_iff_lt_or_eq.1 hi with hi | rfl
    · refine Or.inr ⟨?_, hopen k line hi (Nat.lt_succ_self k) hk⟩
      exact (swallowed_iff lines k).2 ⟨i, entry, hi, hentry, hkind, hfresh, hasks,
        fun m between him hmk => hopen m between him (by omega)⟩
    · obtain rfl : line = entry := Option.some.inj (hk.symm.trans hentry)
      exact Or.inl ⟨hfresh, hkind, hasks⟩
  · rintro (⟨hfresh, hkind, hasks⟩ | ⟨hswallowed, hkeeps⟩)
    · exact (swallowed_iff lines (k + 1)).2 ⟨k, line, Nat.lt_succ_self k, hk, hkind, hfresh, hasks,
        fun m between hkm hmk => by omega⟩
    · obtain ⟨i, entry, hi, hentry, hkind, hfresh, hasks, hopen⟩ :=
        (swallowed_iff lines k).1 hswallowed
      refine (swallowed_iff lines (k + 1)).2
        ⟨i, entry, by omega, hentry, hkind, hfresh, hasks, fun m between him hmk hm => ?_⟩
      rcases Nat.lt_succ_iff_lt_or_eq.1 hmk with hmk | rfl
      · exact hopen m between him hmk hm
      · obtain rfl : line = between := Option.some.inj (hk.symm.trans hm)
        exact hkeeps

/-- The reader's step: if it knows whether this line is swallowed, it knows so of the next. -/
lemma readLine_snd_iff_swallowed {lines : List Line} {k : Nat} {line : Line} {continued : Bool}
    (hk : lines[k]? = some line) (hcontinued : continued = true ↔ Swallowed lines k) :
    (readLine continued line).2 = true ↔ Swallowed lines (k + 1) := by
  rw [swallowed_succ_iff hk]
  cases continued with
  | true =>
    have hswallowed : Swallowed lines k := hcontinued.1 rfl
    simp only [hswallowed, not_true, false_and, true_and, false_or, KeepsOpen]
    by_cases hcomment : IsCommentLine line.text
    · simp [readLine_continued_of_comment line hcomment, hcomment]
    · simp [readLine_continued line hcomment, splitContinuation_snd, hcomment]
  | false =>
    have hfresh : ¬ Swallowed lines k := fun h => absurd (hcontinued.2 h) (by simp)
    simp only [hfresh, not_false_iff, true_and, false_and, or_false]
    by_cases hentry : IsEntry line.text
    · simp [readLine_of_entry line hentry, splitContinuation_snd, hentry]
    · by_cases hheader : ∃ name, IsHeader line.text name
      · obtain ⟨name, hname⟩ := hheader
        simp [readLine_of_header line hname, hentry]
      · push Not at hheader
        simp [readLine_of_neither line hentry hheader, hentry]

end UnitCheck
