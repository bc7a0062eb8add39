/-
The order of texts by their bytes.

Texts are compared character by character, and names are listed in that order.  The order of the
UTF-8 bytes is the same (`encode_lt_encode_iff`): a character with a greater number has more bytes and
then a greater first byte, or else the first of its bytes that differs is greater.
-/
import Mathlib.Data.String.Basic
import UnitCheck.Text.Utf8

namespace UnitCheck

/-- The first text comes before the second if their bytes are compared. -/
def BytesPrecede (a b : String) : Prop :=
  Utf8.encode a.toList < Utf8.encode b.toList

namespace Utf8

/-! ### One character -/

/-- The bytes of a character, by their number. -/
lemma encodeChar_cases (c : Char) :
    (c.toNat < 0x80 ∧ String.utf8EncodeChar c = [UInt8.ofNat c.toNat]) ∨
    (0x80 ≤ c.toNat ∧ c.toNat < 0x800 ∧ String.utf8EncodeChar c =
      [UInt8.ofNat (c.toNat / 64 + 192), UInt8.ofNat (c.toNat % 64 + 128)]) ∨
    (0x800 ≤ c.toNat ∧ c.toNat < 0x10000 ∧ String.utf8EncodeChar c =
      [UInt8.ofNat (c.toNat / 4096 + 224), UInt8.ofNat (c.toNat / 64 % 64 + 128),
        UInt8.ofNat (c.toNat % 64 + 128)]) ∨
    (0x10000 ≤ c.toNat ∧ c.toNat < 0x110000 ∧ String.utf8EncodeChar c =
      [UInt8.ofNat (c.toNat / 262144 + 240), UInt8.ofNat (c.toNat / 4096 % 64 + 128),
        UInt8.ofNat (c.toNat / 64 % 64 + 128), UInt8.ofNat (c.toNat % 64 + 128)]) := by
  have hmax : c.toNat < 0x110000 := by
    have hvalid := c.valid
    simp only [UInt32.isValidChar, Nat.isValidChar] at hvalid
    show c.val.toNat < _
    omega
  have hencode : String.utf8EncodeChar c =
      if c.toNat ≤ 127 then [UInt8.ofNat c.toNat]
      else if c.toNat ≤ 2047 then
        [UInt8.ofNat (c.toNat / 64 % 32 + 192), UInt8.ofNat (c.toNat % 64 + 128)]
      else if c.toNat ≤ 65535 then
        [UInt8.ofNat (c.toNat / 4096 % 16 + 224), UInt8.ofNat (c.toNat / 64 % 64 + 128),
          UInt8.ofNat (c.toNat % 64 + 128)]
      else
        [UInt8.ofNat (c.toNat / 262144 % 8 + 240), UInt8.ofNat (c.toNat / 4096 % 64 + 128),
          UInt8.ofNat (c.toNat / 64 % 64 + 128), UInt8.ofNat (c.toNat % 64 + 128)] := rfl
  by_cases h₁ : c.toNat ≤ 127
  · rw [if_pos h₁] at hencode
    exact Or.inl ⟨by omega, hencode⟩
  by_cases h₂ : c.toNat ≤ 2047
  · rw [if_neg h₁, if_pos h₂, Nat.mod_eq_of_lt (by omega : c.toNat / 64 < 32)] at hencode
    exact Or.inr (Or.inl ⟨by omega, by omega, hencode⟩)
  by_cases h₃ : c.toNat ≤ 65535
  · rw [if_neg h₁, if_neg h₂, if_pos h₃,
      Nat.mod_eq_of_lt (by omega : c.toNat / 4096 < 16)] at hencode
    exact Or.inr (Or.inr (Or.inl ⟨by omega, by omega, hencode⟩))
  · rw [if_neg h₁, if_neg h₂, if_neg h₃,
      Nat.mod_eq_of_lt (by omega : c.toNat / 262144 < 8)] at hencode
    exact Or.inr (Or.inr (Or.inr ⟨by omega, hmax, hencode⟩))

lemma ofNat_lt_ofNat_iff {m n : Nat} (hm : m < 256) (hn : n < 256) :
    UInt8.ofNat m < UInt8.ofNat n ↔ m < n := by
  rw [UInt8.lt_iff_toNat_lt, UInt8.toNat_ofNat_of_lt' hm, UInt8.toNat_ofNat_of_lt' hn]

lemma ofNat_eq_ofNat_iff {m n : Nat} (hm : m < 256) (hn : n < 256) :
    UInt8.ofNat m = UInt8.ofNat n ↔ m = n := by
  rw [← UInt8.toNat_inj, UInt8.toNat_ofNat_of_lt' hm, UInt8.toNat_ofNat_of_lt' hn]

/-- The bytes of two characters tell which one comes first, whatever stands behind them. -/
lemma encodeChar_append_lt {c d : Char} (h : c < d) (rest rest' : List UInt8) :
    String.utf8EncodeChar c ++ rest < String.utf8EncodeChar d ++ rest' := by
  have hlt : c.toNat < d.toNat := h
  rcases encodeChar_cases c with ⟨hc, heq⟩ | ⟨hc, hc', heq⟩ | ⟨hc, hc', heq⟩ | ⟨hc, hc', heq⟩ <;>
    rcases encodeChar_cases d with
      ⟨hd, heq'⟩ | ⟨hd, hd', heq'⟩ | ⟨hd, hd', heq'⟩ | ⟨hd, hd', heq'⟩ <;>
    rw [heq, heq'] <;>
    simp (disch := omega) only [List.cons_append, List.nil_append, List.cons_lt_cons_iff,
      ofNat_lt_ofNat_iff, ofNat_eq_ofNat_iff] <;>
    omega

/-! ### Texts -/

lemma encode_cons (c : Char) (text : List Char) :
    encode (c :: text) = String.utf8EncodeChar c ++ encode text := rfl

lemma encode_lt_encode {a b : List Char} (h : a < b) : encode a < encode b := by
  induction h with
  | @nil c text =>
    have hpos := c.utf8Size_pos
    rw [← String.length_utf8EncodeChar, List.length_pos_iff] at hpos
    obtain ⟨byte, bytes, hbytes⟩ := List.exists_cons_of_ne_nil hpos
    rw [encode_cons, hbytes]
    exact List.nil_lt_cons _ _
  | rel hlt => exact encodeChar_append_lt hlt _ _
  | cons _ ih => exact List.append_left_lt ih

/-- Texts are in the order of their bytes. -/
lemma encode_lt_encode_iff {a b : List Char} : encode a < encode b ↔ a < b := by
  refine ⟨fun h => ?_, encode_lt_encode⟩
  rcases lt_trichotomy a b with hlt | rfl | hlt
  · exact hlt
  · exact absurd h (List.lt_irrefl _)
  · exact absurd h (List.lt_asymm (encode_lt_encode hlt))

end Utf8

/-- Names are listed in the order of their bytes. -/
lemma compare_eq_lt_iff_bytesPrecede {a b : String} : compare a b = .lt ↔ BytesPrecede a b := by
  rw [BytesPrecede, Utf8.encode_lt_encode_iff, ← String.lt_iff_toList_lt]
  exact compareOfLessAndEq_eq_lt

end UnitCheck
