/-
Numbers and the digits that stand for them.

Digits are read from the front; `ofDigitsFrom?_append` says what one more digit at the end adds, and
`Nat.toDigits_eq_if` splits decimal notation there.
-/
import Mathlib.Tactic.Lemma
import UnitCheck.Text.Numeral

namespace UnitCheck

/-! ### Digits -/

lemma digitValue?_digitChar {d : Nat} (h : d < 10) : digitValue? 10 d.digitChar = some d := by
  revert d
  decide

lemma digitChar_eq_zero_iff {d : Nat} (h : d < 10) : d.digitChar = '0' ↔ d = 0 := by
  revert d
  decide

/-- Letters stand for ten and more, so they are not decimal digits. -/
lemma isDigit_of_digitValue? {c : Char} {d : Nat} (h : digitValue? 10 c = some d) :
    isDigit c = true := by
  obtain ⟨hvalue, hlt⟩ := Option.filter_eq_some_iff.1 h
  have hlt : d < 10 := of_decide_eq_true hlt
  split at hvalue
  · assumption
  · split at hvalue
    · have := Option.some.inj hvalue
      omega
    · split at hvalue
      · have := Option.some.inj hvalue
        omega
      · exact absurd hvalue (by simp)

/-! ### Texts of digits -/

lemma ofDigitsFrom?_append (base acc : Nat) (digits : List Char) (c : Char) :
    ofDigitsFrom? base acc (digits ++ [c]) =
      (ofDigitsFrom? base acc digits).bind fun n => (digitValue? base c).map (base * n + ·) := by
  induction digits generalizing acc with
  | nil =>
    rcases hd : digitValue? base c with _ | d
    · simp [ofDigitsFrom?, hd]
    · simp [ofDigitsFrom?, hd]
  | cons d digits ih =>
    rcases hd : digitValue? base d with _ | v
    · simp [ofDigitsFrom?, hd]
    · simp [ofDigitsFrom?, hd, ih]

lemma isDigit_of_ofDigits? {digits : List Char} {n : Nat} (h : ofDigits? 10 digits = some n) :
    digits ≠ [] ∧ ∀ c ∈ digits, isDigit c = true := by
  have hfrom : ∀ (digits : List Char) (acc : Nat), ofDigitsFrom? 10 acc digits = some n →
      ∀ c ∈ digits, isDigit c = true := by
    intro digits
    induction digits with
    | nil => simp
    | cons d digits ih =>
      intro acc hdigits c hc
      obtain ⟨v, hv, hdigits⟩ := Option.bind_eq_some_iff.1 hdigits
      rcases List.mem_cons.1 hc with rfl | hc
      · exact isDigit_of_digitValue? hv
      · exact ih _ hdigits c hc
  rw [ofDigits?] at h
  split at h
  · exact absurd h (by simp)
  · rename_i hne
    exact ⟨by simpa using hne, hfrom digits 0 h⟩

/-! ### Decimal notation -/

lemma length_toDigits_mono {m n : Nat} (h : m ≤ n) :
    (Nat.toDigits 10 m).length ≤ (Nat.toDigits 10 n).length := by
  rw [Nat.length_toDigits_le_iff (by decide) Nat.length_toDigits_pos]
  exact Nat.lt_of_le_of_lt h
    ((Nat.length_toDigits_le_iff (by decide) Nat.length_toDigits_pos).1 (Nat.le_refl _))

lemma ofDigits?_toDigits (n : Nat) : ofDigits? 10 (Nat.toDigits 10 n) = some n := by
  have hfrom : ofDigitsFrom? 10 0 (Nat.toDigits 10 n) = some n := by
    induction n using Nat.strongRecOn with
    | ind n ih =>
      rw [Nat.toDigits_eq_if (by decide)]
      split
      case isTrue hlt => simp [ofDigitsFrom?, digitValue?_digitChar hlt]
      case isFalse hge =>
        have hlast : n % 10 < 10 := Nat.mod_lt _ (by decide)
        rw [ofDigitsFrom?_append, ih (n / 10) (by omega), Option.bind_some,
          digitValue?_digitChar hlast, Option.map_some, Nat.div_add_mod]
  rw [ofDigits?, if_neg (by simp), hfrom]

/-- A number begins with a zero only if it is zero. -/
lemma head?_toDigits_eq_zero {n : Nat} (h : (Nat.toDigits 10 n).head? = some '0') : n = 0 := by
  induction n using Nat.strongRecOn with
  | ind n ih =>
    rw [Nat.toDigits_eq_if (by decide)] at h
    split at h
    case isTrue hlt => exact (digitChar_eq_zero_iff hlt).1 (by simpa using h)
    case isFalse hge =>
      obtain ⟨c, rest, hc⟩ := List.exists_cons_of_ne_nil (@Nat.toDigits_ne_nil (n / 10) 10)
      have hzero := ih (n / 10) (by omega) (by simpa [hc] using h)
      omega

end UnitCheck
