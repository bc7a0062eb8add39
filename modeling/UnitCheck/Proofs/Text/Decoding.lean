/-
Reading damaged text.

The rule for reading bytes that need not be a text is stated apart from the reader (`Decodes`): where
the bytes of a character stand, it is read; bytes that begin a character and do not go on so are one
damage, as many as can be taken together; a byte that begins no character is a damage of its own.

The reader follows the rule (`decodes_iff`).  What carries the proof is what a character at hand owes:
after its first bytes it is owed exactly what the bytes of some character go on with
(`Pending.After`).  All numbers are in the first byte and the one behind it (`encodeChar_eq_cons_iff`).

From the rule it is plain that damage does not spread.  A byte below 128 is a character by itself and
stands in no other, so it divides what is read before it from what is read behind it, and each line
can be read by itself.
-/
import UnitCheck.Proofs.Text.ByteOrder

namespace UnitCheck

namespace Utf8

/-- Are these the bytes that are owed, and is this the character that they complete? -/
def Pending.Completes : Pending → List UInt8 → Char → Prop
  | _, [], _ => False
  | pending, byte :: bytes, c => pending.accepts byte ∧
    match pending.more with
    | 0 => bytes = [] ∧ c = Char.ofNat (pending.grow byte)
    | more + 1 => Completes { bits := pending.grow byte, more } bytes c

section Completes

variable {pending : Pending} {byte : UInt8} {bytes : List UInt8} {c : Char}

lemma Pending.completes_cons_of_zero (hmore : pending.more = 0) :
    pending.Completes (byte :: bytes) c ↔
      pending.accepts byte = true ∧ bytes = [] ∧ c = Char.ofNat (pending.grow byte) := by
  rw [Completes, hmore]

lemma Pending.completes_cons_of_succ {more : Nat} (hmore : pending.more = more + 1) :
    pending.Completes (byte :: bytes) c ↔ pending.accepts byte = true ∧
      Pending.Completes { bits := pending.grow byte, more } bytes c := by
  rw [Completes, hmore]

end Completes

/-- Do these bytes, behind a first byte that begins this, complete this character? -/
def Lead.Completes : Lead → List UInt8 → Char → Prop
  | .whole d, bytes, c => bytes = [] ∧ c = d
  | .begun pending, bytes, c => pending.Completes bytes c
  | .invalid, _, _ => False

/-- Is the byte one of those that follow a first byte? -/
def IsTail (byte : UInt8) : Prop :=
  0x80 ≤ byte.toNat ∧ byte.toNat ≤ 0xBF

/-- What a first byte begins, by its number.  Of the bytes that may follow it, some are left out: those
that would lead to a number with a shorter form, to a surrogate, or beyond the last character. -/
inductive Lead.BegunBy (n : Nat) : Lead → Prop
  | one (h : n < 0x80) : BegunBy n (.whole (Char.ofNat n))
  | two {pending : Pending} (h : 0xC2 ≤ n ∧ n < 0xE0) (hbits : pending.bits = n - 0xC0)
    (hmore : pending.more = 0) (hrange : pending.low ≤ pending.high)
    (haccepts : ∀ byte, pending.accepts byte = true ↔ IsTail byte) : BegunBy n (.begun pending)
  | three {pending : Pending} (h : 0xE0 ≤ n ∧ n < 0xF0) (hbits : pending.bits = n - 0xE0)
    (hmore : pending.more = 1) (hrange : pending.low ≤ pending.high)
    (haccepts : ∀ byte, pending.accepts byte = true ↔ IsTail byte ∧
      0x20 ≤ pending.grow byte ∧ (pending.grow byte < 0x360 ∨ 0x380 ≤ pending.grow byte)) :
    BegunBy n (.begun pending)
  | four {pending : Pending} (h : 0xF0 ≤ n ∧ n < 0xF5) (hbits : pending.bits = n - 0xF0)
    (hmore : pending.more = 2) (hrange : pending.low ≤ pending.high)
    (haccepts : ∀ byte, pending.accepts byte = true ↔ IsTail byte ∧
      0x10 ≤ pending.grow byte ∧ pending.grow byte < 0x110) : BegunBy n (.begun pending)
  | none (h : 0x80 ≤ n ∧ n < 0xC2 ∨ 0xF5 ≤ n) : BegunBy n .invalid

lemma Pending.accepts_iff {pending : Pending} {byte : UInt8} :
    pending.accepts byte = true ↔
      pending.low.toNat ≤ byte.toNat ∧ byte.toNat ≤ pending.high.toNat := by
  rw [accepts, Bool.and_eq_true, decide_eq_true_iff, decide_eq_true_iff, UInt8.le_iff_toNat_le,
    UInt8.le_iff_toNat_le]

lemma tail_low_le : (0x80 : UInt8) ≤ 0xBF := by
  decide

section Ranges

variable {n : Nat} {pending : Pending}

/-- Three bytes: how the range of the second one is cut. -/
lemma Lead.BegunBy.three_of_range (h : 0xE0 ≤ n ∧ n < 0xF0) (hbits : pending.bits = n - 0xE0)
    (hmore : pending.more = 1)
    (hlow : pending.low.toNat = if n = 0xE0 then 0xA0 else 0x80)
    (hhigh : pending.high.toNat = if n = 0xED then 0x9F else 0xBF) :
    Lead.BegunBy n (.begun pending) := by
  refine .three h hbits hmore (UInt8.le_iff_toNat_le.2 ?_) fun byte => ?_
  · rw [hlow, hhigh]
    split_ifs <;> omega
  · rw [Pending.accepts_iff, hlow, hhigh]
    unfold IsTail Pending.grow
    rw [hbits]
    split_ifs <;> omega

/-- Four bytes: how the range of the second one is cut. -/
lemma Lead.BegunBy.four_of_range (h : 0xF0 ≤ n ∧ n < 0xF5) (hbits : pending.bits = n - 0xF0)
    (hmore : pending.more = 2)
    (hlow : pending.low.toNat = if n = 0xF0 then 0x90 else 0x80)
    (hhigh : pending.high.toNat = if n = 0xF4 then 0x8F else 0xBF) :
    Lead.BegunBy n (.begun pending) := by
  refine .four h hbits hmore (UInt8.le_iff_toNat_le.2 ?_) fun byte => ?_
  · rw [hlow, hhigh]
    split_ifs <;> omega
  · rw [Pending.accepts_iff, hlow, hhigh]
    unfold IsTail Pending.grow
    rw [hbits]
    split_ifs <;> omega

end Ranges

lemma lead_begunBy (byte : UInt8) : (lead byte).BegunBy byte.toNat := by
  have hmax := byte.toNat_lt
  dsimp only [lead]
  generalize byte.toNat = n at hmax ⊢
  by_cases h₁ : n < 0x80
  · rw [if_pos h₁]
    exact .one h₁
  rw [if_neg h₁]
  by_cases h₂ : n < 0xC2
  · rw [if_pos h₂]
    exact .none (by omega)
  rw [if_neg h₂]
  by_cases h₃ : n < 0xE0
  · rw [if_pos h₃]
    exact .two (by omega) rfl rfl tail_low_le fun next => Pending.accepts_iff
  rw [if_neg h₃]
  by_cases h₄ : n = 0xE0
  · rw [if_pos h₄, h₄]
    exact .three_of_range (by omega) rfl rfl rfl rfl
  rw [if_neg h₄]
  by_cases h₅ : n = 0xED
  · rw [if_pos h₅, h₅]
    exact .three_of_range (by omega) rfl rfl rfl rfl
  rw [if_neg h₅]
  by_cases h₆ : n < 0xF0
  · rw [if_pos h₆]
    exact .three_of_range (by omega) rfl rfl (if_neg h₄).symm (if_neg h₅).symm
  rw [if_neg h₆]
  by_cases h₇ : n = 0xF0
  · rw [if_pos h₇, h₇]
    exact .four_of_range (by omega) rfl rfl rfl rfl
  rw [if_neg h₇]
  by_cases h₈ : n < 0xF4
  · rw [if_pos h₈]
    exact .four_of_range (by omega) rfl rfl (if_neg h₇).symm (if_neg (by omega)).symm
  rw [if_neg h₈]
  by_cases h₉ : n = 0xF4
  · rw [if_pos h₉, h₉]
    exact .four_of_range (by omega) rfl rfl rfl rfl
  rw [if_neg h₉]
  exact .none (by omega)

/-! ### The bytes of a character -/

section Grow

variable {pending : Pending} {byte : UInt8}

lemma Pending.grow_eq {n : Nat} (hbits : pending.bits = n / 64) (hbyte : byte.toNat = n % 64 + 128) :
    pending.grow byte = n := by
  unfold grow
  omega

/-- The number that a following byte leads to holds the bits read before and those of the byte. -/
lemma Pending.exists_grow (pending : Pending) (h : IsTail byte) :
    ∃ n, pending.grow byte = n ∧ n / 64 = pending.bits ∧ UInt8.ofNat (n % 64 + 128) = byte := by
  obtain ⟨hlow, hhigh⟩ := h
  have hmod : pending.grow byte % 64 + 128 = byte.toNat := by
    unfold grow
    omega
  refine ⟨_, rfl, ?_, by rw [hmod, UInt8.ofNat_toNat]⟩
  unfold grow
  omega

end Grow

lemma toNat_tail (n : Nat) : (UInt8.ofNat (n % 64 + 128)).toNat = n % 64 + 128 := by
  rw [UInt8.toNat_ofNat', Nat.mod_eq_of_lt (by omega)]

lemma isTail_tail (n : Nat) : IsTail (UInt8.ofNat (n % 64 + 128)) := by
  unfold IsTail
  rw [toNat_tail]
  omega

lemma accepts_tail_iff {bits more : Nat} {byte : UInt8} :
    Pending.accepts { bits, more } byte = true ↔ IsTail byte :=
  Pending.accepts_iff

lemma isScalar (c : Char) : c.toNat < 0xD800 ∨ 0xDFFF < c.toNat ∧ c.toNat < 0x110000 :=
  c.valid

/-- The last byte of a character completes it. -/
lemma completes_tail (c : Char) :
    Pending.Completes { bits := c.toNat / 64, more := 0 } [UInt8.ofNat (c.toNat % 64 + 128)] c := by
  refine (Pending.completes_cons_of_zero rfl).2 ⟨accepts_tail_iff.2 (isTail_tail _), rfl, ?_⟩
  rw [Pending.grow_eq rfl (toNat_tail _), Char.ofNat_toNat]

/-- The first byte of a character tells which bytes can follow. -/
lemma completes_of_encodeChar {c : Char} {byte : UInt8} {bytes : List UInt8}
    (h : String.utf8EncodeChar c = byte :: bytes) : (lead byte).Completes bytes c := by
  have hscalar := isScalar c
  have hlead := lead_begunBy byte
  generalize lead byte = first at hlead ⊢
  rcases encodeChar_cases c with ⟨hc, heq⟩ | ⟨hc, hc', heq⟩ | ⟨hc, hc', heq⟩ | ⟨hc, hc', heq⟩ <;>
    rw [heq] at h <;> obtain ⟨hbyte, rfl⟩ := List.cons.inj h <;>
    replace hbyte := congrArg UInt8.toNat hbyte <;>
    rw [UInt8.toNat_ofNat', Nat.mod_eq_of_lt (by omega)] at hbyte
  · cases hlead with
    | one h => exact ⟨rfl, by rw [← hbyte, Char.ofNat_toNat]⟩
    | _ => omega
  · cases hlead with
    | @two pending h hbits hmore _ haccepts =>
      have hgrow : pending.grow (UInt8.ofNat (c.toNat % 64 + 128)) = c.toNat :=
        Pending.grow_eq (by omega) (toNat_tail _)
      refine (Pending.completes_cons_of_zero hmore).2 ⟨(haccepts _).2 (isTail_tail _), rfl, ?_⟩
      rw [hgrow, Char.ofNat_toNat]
    | _ => omega
  · cases hlead with
    | @three pending h hbits hmore _ haccepts =>
      have hgrow : pending.grow (UInt8.ofNat (c.toNat / 64 % 64 + 128)) = c.toNat / 64 :=
        Pending.grow_eq (by omega) (toNat_tail _)
      refine (Pending.completes_cons_of_succ hmore).2 ⟨(haccepts _).2 ⟨isTail_tail _, ?_⟩, ?_⟩
      · omega
      · rw [hgrow]
        exact completes_tail c
    | _ => omega
  · cases hlead with
    | @four pending h hbits hmore _ haccepts =>
      have hgrow : pending.grow (UInt8.ofNat (c.toNat / 4096 % 64 + 128)) = c.toNat / 4096 :=
        Pending.grow_eq (by omega) (toNat_tail _)
      have hgrow' : Pending.grow { bits := c.toNat / 4096, more := 1 }
          (UInt8.ofNat (c.toNat / 64 % 64 + 128)) = c.toNat / 64 :=
        Pending.grow_eq (by dsimp only; omega) (toNat_tail _)
      refine (Pending.completes_cons_of_succ hmore).2 ⟨(haccepts _).2 ⟨isTail_tail _, ?_⟩, ?_⟩
      · omega
      · rw [hgrow]
        refine (Pending.completes_cons_of_succ rfl).2 ⟨accepts_tail_iff.2 (isTail_tail _), ?_⟩
        rw [hgrow']
        exact completes_tail c
    | _ => omega

/-- The bytes of the character with a given number. -/
lemma encodeChar_ofNat {n : Nat} (h : n < 0xD800 ∨ 0xE000 ≤ n) (h' : n < 0x110000) :
    String.utf8EncodeChar (Char.ofNat n) =
      if n < 0x80 then [UInt8.ofNat n]
      else if n < 0x800 then [UInt8.ofNat (n / 64 + 192), UInt8.ofNat (n % 64 + 128)]
      else if n < 0x10000 then [UInt8.ofNat (n / 4096 + 224), UInt8.ofNat (n / 64 % 64 + 128),
        UInt8.ofNat (n % 64 + 128)]
      else [UInt8.ofNat (n / 262144 + 240), UInt8.ofNat (n / 4096 % 64 + 128),
        UInt8.ofNat (n / 64 % 64 + 128), UInt8.ofNat (n % 64 + 128)] := by
  have hvalid : n.isValidChar := by
    unfold Nat.isValidChar
    omega
  have hn : (Char.ofNat n).toNat = n := by
    rw [Char.ofNat, dif_pos hvalid]
    rfl
  have hcases := encodeChar_cases (Char.ofNat n)
  rw [hn] at hcases
  rcases hcases with ⟨hlt, heq⟩ | ⟨hle, hlt, heq⟩ | ⟨hle, hlt, heq⟩ | ⟨hle, hlt, heq⟩
  · rw [heq, if_pos hlt]
  · rw [heq, if_neg (by omega), if_pos hlt]
  · rw [heq, if_neg (by omega), if_neg (by omega), if_pos hlt]
  · rw [heq, if_neg (by omega), if_neg (by omega), if_neg (by omega)]

lemma exists_of_completes_tail {m : Nat} {bytes : List UInt8} {c : Char}
    (h : Pending.Completes { bits := m, more := 0 } bytes c) :
    ∃ n last, bytes = [last] ∧ UInt8.ofNat (n % 64 + 128) = last ∧ n / 64 = m ∧
      c = Char.ofNat n := by
  obtain _ | ⟨last, bytes⟩ := bytes
  · exact absurd h id
  obtain ⟨hlast, rfl, hc⟩ := (Pending.completes_cons_of_zero rfl).1 h
  obtain ⟨n, hn, hm, hlast⟩ := Pending.exists_grow { bits := m, more := 0 } (accepts_tail_iff.1 hlast)
  exact ⟨n, last, rfl, hlast, hm, hn ▸ hc⟩

/-- Bytes that can follow a first byte complete a character. -/
lemma encodeChar_of_completes {c : Char} {byte : UInt8} {bytes : List UInt8}
    (h : (lead byte).Completes bytes c) : String.utf8EncodeChar c = byte :: bytes := by
  have hlead := lead_begunBy byte
  generalize lead byte = first at hlead h
  cases hlead with
  | one hbyte =>
    obtain ⟨rfl, rfl⟩ := h
    rw [encodeChar_ofNat (by omega) (by omega), if_pos hbyte, UInt8.ofNat_toNat]
  | @two pending hbyte hbits hmore _ haccepts =>
    obtain _ | ⟨last, bytes⟩ := bytes
    · exact absurd h id
    obtain ⟨hlast, rfl, hc⟩ := (Pending.completes_cons_of_zero hmore).1 h
    obtain ⟨n, hn, hbits', hlast⟩ := pending.exists_grow ((haccepts _).1 hlast)
    have hfirst : n / 64 + 192 = byte.toNat := by omega
    rw [hc, hn, encodeChar_ofNat (by omega) (by omega), if_neg (by omega), if_pos (by omega), hfirst,
      hlast, UInt8.ofNat_toNat]
  | @three pending hbyte hbits hmore _ haccepts =>
    obtain _ | ⟨next, bytes⟩ := bytes
    · exact absurd h id
    obtain ⟨hnext, h⟩ := (Pending.completes_cons_of_succ hmore).1 h
    obtain ⟨hnext, hlong, hsurrogate⟩ := (haccepts _).1 hnext
    obtain ⟨m, hm, hbits', hnext⟩ := pending.exists_grow hnext
    rw [hm] at hlong hsurrogate h
    obtain ⟨n, last, rfl, hlast, hm', hc⟩ := exists_of_completes_tail h
    have hfirst : n / 4096 + 224 = byte.toNat := by omega
    rw [hc, encodeChar_ofNat (by omega) (by omega), if_neg (by omega), if_neg (by omega),
      if_pos (by omega), hfirst, hm', hnext, hlast, UInt8.ofNat_toNat]
  | @four pending hbyte hbits hmore _ haccepts =>
    obtain _ | ⟨next, _ | ⟨third, bytes⟩⟩ := bytes
    · exact absurd h id
    · exact absurd ((Pending.completes_cons_of_succ hmore).1 h).2 id
    obtain ⟨hnext, h⟩ := (Pending.completes_cons_of_succ hmore).1 h
    obtain ⟨hnext, hlong, hmax⟩ := (haccepts _).1 hnext
    obtain ⟨l, hl, hbits', hnext⟩ := pending.exists_grow hnext
    rw [hl] at hlong hmax h
    obtain ⟨hthird, h⟩ := (Pending.completes_cons_of_succ rfl).1 h
    obtain ⟨m, hm, hl', hthird⟩ := Pending.exists_grow { bits := l, more := 1 }
      (accepts_tail_iff.1 hthird)
    replace hl' : m / 64 = l := hl'
    rw [hm] at h
    obtain ⟨n, last, rfl, hlast, hm', hc⟩ := exists_of_completes_tail h
    have hfirst : n / 262144 + 240 = byte.toNat := by omega
    have hsecond : n / 4096 = l := by omega
    rw [hc, encodeChar_ofNat (by omega) (by omega), if_neg (by omega), if_neg (by omega),
      if_neg (by omega), hfirst, hsecond, hm', hnext, hthird, hlast, UInt8.ofNat_toNat]
  | none => exact absurd h id

/-- The bytes of a character are a first byte and what it owes. -/
lemma encodeChar_eq_cons_iff {c : Char} {byte : UInt8} {bytes : List UInt8} :
    String.utf8EncodeChar c = byte :: bytes ↔ (lead byte).Completes bytes c :=
  ⟨completes_of_encodeChar, encodeChar_of_completes⟩

lemma encodeChar_ne_nil (c : Char) : String.utf8EncodeChar c ≠ [] := by
  rw [← List.length_pos_iff, String.length_utf8EncodeChar]
  exact c.utf8Size_pos

/-! ### The rule -/

/-- The bytes of some character begin with these. -/
def Begins (front : List UInt8) : Prop :=
  ∃ c bytes, String.utf8EncodeChar c = front ++ bytes

/-- The bytes of some character begin with these, at least one, and go on. -/
def IsCutOff (front : List UInt8) : Prop :=
  front ≠ [] ∧ ∃ c bytes, String.utf8EncodeChar c = front ++ bytes ∧ bytes ≠ []

/-- What bytes are read as: characters, and `none` for each damage. -/
inductive Decodes : List UInt8 → List (Option Char) → Prop
  /-- Nothing is left. -/
  | nil : Decodes [] []
  /-- The bytes of a character come first. -/
  | char {bytes : List UInt8} {result : List (Option Char)} (c : Char) (h : Decodes bytes result) :
    Decodes (String.utf8EncodeChar c ++ bytes) (some c :: result)
  /-- Some first bytes of a character come first, and with the byte behind them they are not. -/
  | cutOff {front bytes : List UInt8} {result : List (Option Char)} (hfront : IsCutOff front)
    (hends : ∀ byte ∈ bytes.head?, ¬ Begins (front ++ [byte])) (h : Decodes bytes result) :
    Decodes (front ++ bytes) (none :: result)
  /-- A byte comes first that begins no character. -/
  | stray {byte : UInt8} {bytes : List UInt8} {result : List (Option Char)}
    (hbyte : ¬ Begins [byte]) (h : Decodes bytes result) : Decodes (byte :: bytes) (none :: result)

/-! ### What is owed -/

/-- The character at hand has these bytes so far, and it is owed what the bytes of some character go
on with. -/
structure Pending.After (pending : Pending) (front : List UInt8) : Prop where
  ne_nil : front ≠ []
  low_le : pending.low ≤ pending.high
  completes_iff : ∀ bytes c, String.utf8EncodeChar c = front ++ bytes ↔ pending.Completes bytes c

lemma lead_after {byte : UInt8} {pending : Pending} (h : lead byte = .begun pending) :
    pending.After [byte] := by
  refine ⟨by simp, ?_, fun bytes c => ?_⟩
  · have hlead := lead_begunBy byte
    rw [h] at hlead
    cases hlead with
    | two _ _ _ hrange _ => exact hrange
    | three _ _ _ hrange _ => exact hrange
    | four _ _ _ hrange _ => exact hrange
  · rw [List.singleton_append, encodeChar_eq_cons_iff, h]
    rfl

lemma isTail_low : IsTail 0x80 :=
  ⟨le_refl _, by decide⟩

lemma Pending.exists_completes {pending : Pending} (h : pending.low ≤ pending.high) :
    ∃ bytes c, pending.Completes bytes c := by
  have haccepts : pending.accepts pending.low = true := by
    rw [accepts_iff]
    exact ⟨le_refl _, UInt8.le_iff_toNat_le.1 h⟩
  induction hmore : pending.more generalizing pending with
  | zero => exact ⟨[pending.low], _, (completes_cons_of_zero hmore).2 ⟨haccepts, rfl, rfl⟩⟩
  | succ more ih =>
    obtain ⟨bytes, c, hcompletes⟩ :=
      @ih { bits := pending.grow pending.low, more } tail_low_le (accepts_tail_iff.2 isTail_low) rfl
    exact ⟨pending.low :: bytes, c, (completes_cons_of_succ hmore).2 ⟨haccepts, hcompletes⟩⟩

namespace Pending.After

variable {pending : Pending} {front : List UInt8} {byte : UInt8}

lemma isCutOff (h : pending.After front) : IsCutOff front := by
  obtain ⟨bytes, c, hcompletes⟩ := exists_completes h.low_le
  refine ⟨h.ne_nil, c, bytes, (h.completes_iff bytes c).2 hcompletes, ?_⟩
  rintro rfl
  exact hcompletes

/-- The last byte that is owed. -/
lemma last (h : pending.After front) (hmore : pending.more = 0) (hbyte : pending.accepts byte = true) :
    String.utf8EncodeChar (Char.ofNat (pending.grow byte)) = front ++ [byte] :=
  (h.completes_iff _ _).2 ((completes_cons_of_zero hmore).2 ⟨hbyte, rfl, rfl⟩)

/-- A byte that is owed, with more of them behind it. -/
lemma next {more : Nat} (h : pending.After front) (hmore : pending.more = more + 1)
    (hbyte : pending.accepts byte = true) :
    Pending.After { bits := pending.grow byte, more } (front ++ [byte]) := by
  refine ⟨by simp, tail_low_le, fun bytes c => ?_⟩
  rw [List.append_assoc, h.completes_iff, List.singleton_append, completes_cons_of_succ hmore]
  exact and_iff_right hbyte

lemma accepts_iff_begins (h : pending.After front) :
    pending.accepts byte = true ↔ Begins (front ++ [byte]) := by
  constructor
  · intro hbyte
    rcases hmore : pending.more with _ | more
    · exact ⟨_, [], by rw [List.append_nil, h.last hmore hbyte]⟩
    · obtain ⟨-, c, bytes, hbytes, -⟩ := (h.next hmore hbyte).isCutOff
      exact ⟨c, bytes, hbytes⟩
  · rintro ⟨c, bytes, hbytes⟩
    rw [List.append_assoc, h.completes_iff] at hbytes
    exact hbytes.1

end Pending.After

/-! ### The reader follows the rule -/

/-- A byte that does not fit is read again as a first byte. -/
lemma decodeFrom_refused {pending : Pending} {byte : UInt8} (h : pending.accepts byte = false)
    (bytes : List UInt8) :
    decodeFrom (some pending) (byte :: bytes) = none :: decodeFrom none (byte :: bytes) := by
  simp only [decodeFrom, h, Bool.false_eq_true, if_false]

/-- The reader takes the bytes that are owed. -/
lemma decodeFrom_completes {pending : Pending} {bytes : List UInt8} {c : Char}
    (h : pending.Completes bytes c) (rest : List UInt8) :
    decodeFrom (some pending) (bytes ++ rest) = some c :: decodeFrom none rest := by
  induction bytes generalizing pending with
  | nil => exact absurd h id
  | cons byte bytes ih =>
    rw [List.cons_append, decodeFrom, if_pos h.1]
    rcases hmore : pending.more with _ | more
    · obtain ⟨-, rfl, hc⟩ := (Pending.completes_cons_of_zero hmore).1 h
      rw [hc, List.nil_append]
    · exact ih ((Pending.completes_cons_of_succ hmore).1 h).2

/-- The reader takes the bytes of a character. -/
lemma decodeFrom_encodeChar (c : Char) (rest : List UInt8) :
    decodeFrom none (String.utf8EncodeChar c ++ rest) = some c :: decodeFrom none rest := by
  obtain ⟨byte, bytes, hbytes⟩ := List.exists_cons_of_ne_nil (encodeChar_ne_nil c)
  have hcompletes := encodeChar_eq_cons_iff.1 hbytes
  rw [hbytes, List.cons_append, decodeFrom]
  cases hlead : lead byte with
  | whole d =>
    rw [hlead] at hcompletes
    obtain ⟨rfl, rfl⟩ := hcompletes
    rfl
  | begun pending =>
    rw [hlead] at hcompletes
    exact decodeFrom_completes hcompletes rest
  | invalid =>
    rw [hlead] at hcompletes
    exact absurd hcompletes id

/-- The reader drops a character that does not go on. -/
lemma decodeFrom_cutOff {pending : Pending} {front bytes owed rest : List UInt8} {c : Char}
    (hafter : pending.After front) (h : pending.Completes (bytes ++ owed) c) (howed : owed ≠ [])
    (hends : ∀ byte ∈ rest.head?, ¬ Begins (front ++ bytes ++ [byte])) :
    decodeFrom (some pending) (bytes ++ rest) = none :: decodeFrom none rest := by
  induction bytes generalizing pending front with
  | nil =>
    cases rest with
    | nil => rfl
    | cons byte rest =>
      refine decodeFrom_refused ?_ rest
      rw [List.append_nil] at hends
      rw [← Bool.not_eq_true, hafter.accepts_iff_begins]
      exact hends byte rfl
  | cons byte bytes ih =>
    rw [List.cons_append, decodeFrom, if_pos h.1]
    rcases hmore : pending.more with _ | more
    · obtain ⟨-, hnil, -⟩ := (Pending.completes_cons_of_zero hmore).1 h
      exact absurd (List.append_eq_nil_iff.1 hnil).2 howed
    · obtain ⟨hbyte, h⟩ := (Pending.completes_cons_of_succ hmore).1 h
      refine ih (hafter.next hmore hbyte) h ?_
      simpa using hends

/-- The reader finds what the rule says. -/
lemma Decodes.decodeFrom_eq {bytes : List UInt8} {result : List (Option Char)}
    (h : Decodes bytes result) : decodeFrom none bytes = result := by
  induction h with
  | nil => rfl
  | char c _ ih => rw [decodeFrom_encodeChar, ih]
  | @cutOff front bytes result hfront hends _ ih =>
    obtain ⟨hne, c, owed, hc, howed⟩ := hfront
    obtain ⟨byte, front, rfl⟩ := List.exists_cons_of_ne_nil hne
    have hcompletes := encodeChar_eq_cons_iff.1 hc
    rw [List.cons_append, decodeFrom]
    cases hlead : lead byte with
    | whole d =>
      rw [hlead] at hcompletes
      exact absurd (List.append_eq_nil_iff.1 hcompletes.1).2 howed
    | begun pending =>
      rw [hlead] at hcompletes
      rw [← ih]
      exact decodeFrom_cutOff (lead_after hlead) hcompletes howed hends
    | invalid =>
      rw [hlead] at hcompletes
      exact absurd hcompletes id
  | @stray byte bytes result hbyte _ ih =>
    rw [decodeFrom]
    cases hlead : lead byte with
    | whole d =>
      have hd : String.utf8EncodeChar d = [byte] := by
        rw [encodeChar_eq_cons_iff, hlead]
        exact ⟨rfl, rfl⟩
      exact absurd ⟨d, [], hd⟩ hbyte
    | begun pending =>
      obtain ⟨-, c, owed, hc, -⟩ := (lead_after hlead).isCutOff
      exact absurd ⟨c, owed, hc⟩ hbyte
    | invalid => simp only [ih]

/-- What the reader finds is what the rule says, between characters and inside one. -/
lemma decodes_decodeFrom (bytes : List UInt8) :
    Decodes bytes (decodeFrom none bytes) ∧
      ∀ pending front, Pending.After pending front →
        Decodes (front ++ bytes) (decodeFrom (some pending) bytes) := by
  induction bytes with
  | nil =>
    refine ⟨.nil, fun pending front hafter => ?_⟩
    exact .cutOff hafter.isCutOff (by simp) .nil
  | cons byte bytes ih =>
    obtain ⟨hbetween, hinside⟩ := ih
    have hfirst : Decodes (byte :: bytes) (decodeFrom none (byte :: bytes)) := by
      rw [decodeFrom]
      cases hlead : lead byte with
      | whole d =>
        have hd : String.utf8EncodeChar d = [byte] := by
          rw [encodeChar_eq_cons_iff, hlead]
          exact ⟨rfl, rfl⟩
        have hchar := Decodes.char d hbetween
        rwa [hd] at hchar
      | begun pending => exact hinside pending [byte] (lead_after hlead)
      | invalid =>
        refine .stray ?_ hbetween
        rintro ⟨c, rest, hc⟩
        rw [List.singleton_append, encodeChar_eq_cons_iff, hlead] at hc
        exact hc
    refine ⟨hfirst, fun pending front hafter => ?_⟩
    by_cases hbyte : pending.accepts byte = true
    · rw [decodeFrom, if_pos hbyte]
      rcases hmore : pending.more with _ | more
      · have hchar := Decodes.char (Char.ofNat (pending.grow byte)) hbetween
        rwa [hafter.last hmore hbyte, List.append_assoc] at hchar
      · have hrest := hinside _ _ (hafter.next hmore hbyte)
        rwa [List.append_assoc] at hrest
    · rw [Bool.not_eq_true] at hbyte
      rw [decodeFrom_refused hbyte]
      refine .cutOff hafter.isCutOff ?_ hfirst
      simp [← hafter.accepts_iff_begins, hbyte]

/-- **The reader follows the rule.** -/
lemma decodes_iff {bytes : List UInt8} {result : List (Option Char)} :
    Decodes bytes result ↔ decodeFrom none bytes = result :=
  ⟨Decodes.decodeFrom_eq, fun h => h ▸ (decodes_decodeFrom bytes).1⟩

/-! ### Bytes below 128 -/

lemma encodeChar_of_lt {byte : UInt8} (h : byte < 0x80) :
    String.utf8EncodeChar (Char.ofNat byte.toNat) = [byte] := by
  have hlt : byte.toNat < 0x80 := UInt8.lt_iff_toNat_lt.1 h
  rw [encodeChar_ofNat (by omega) (by omega), if_pos hlt, UInt8.ofNat_toNat]

/-- A byte below 128 stands in no character but its own. -/
lemma encodeChar_of_mem {c : Char} {byte : UInt8} (hbyte : byte < 0x80)
    (h : byte ∈ String.utf8EncodeChar c) : String.utf8EncodeChar c = [byte] := by
  have hlt : byte.toNat < 0x80 := UInt8.lt_iff_toNat_lt.1 hbyte
  rcases encodeChar_cases c with ⟨hc, heq⟩ | ⟨hc, hc', heq⟩ | ⟨hc, hc', heq⟩ | ⟨hc, hc', heq⟩ <;>
    rw [heq] at h ⊢
  · rw [List.mem_singleton.1 h]
  all_goals
    exfalso
    simp only [List.mem_cons, List.not_mem_nil, or_false, ← UInt8.toNat_inj] at h
    simp (disch := omega) only [UInt8.toNat_ofNat', Nat.mod_eq_of_lt] at h
    omega

/-- A byte below 128 ends what stands before it. -/
lemma not_begins_of_lt {front : List UInt8} {byte : UInt8} (hfront : front ≠ [])
    (hbyte : byte < 0x80) : ¬ Begins (front ++ [byte]) := by
  rintro ⟨c, bytes, hc⟩
  have hmem : byte ∈ String.utf8EncodeChar c := by simp [hc]
  rw [encodeChar_of_mem hbyte hmem, List.append_assoc] at hc
  have hlength := congrArg List.length hc
  have hpos := List.length_pos_iff.2 hfront
  simp at hlength
  omega

/-- A byte below 128 divides what is read before it from what is read behind it. -/
lemma Decodes.append_cons {before behind : List UInt8} {byte : UInt8}
    {result result' : List (Option Char)} (hbefore : Decodes before result) (hbyte : byte < 0x80)
    (hbehind : Decodes behind result') :
    Decodes (before ++ byte :: behind) (result ++ some (Char.ofNat byte.toNat) :: result') := by
  induction hbefore with
  | nil =>
    have hchar := Decodes.char (Char.ofNat byte.toNat) hbehind
    rwa [encodeChar_of_lt hbyte] at hchar
  | char c _ ih =>
    rw [List.append_assoc]
    exact .char c ih
  | @cutOff front bytes result hfront hends _ ih =>
    rw [List.append_assoc]
    refine .cutOff hfront ?_ ih
    cases bytes with
    | nil => simpa using not_begins_of_lt hfront.1 hbyte
    | cons next bytes => exact hends
  | stray hstray _ ih => exact .stray hstray ih

/-- The bytes of a character that is read stand among those that it is read from. -/
lemma Decodes.mem_of_mem {bytes : List UInt8} {result : List (Option Char)} (h : Decodes bytes result)
    {c : Char} (hc : some c ∈ result) {byte : UInt8} (hbyte : byte ∈ String.utf8EncodeChar c) :
    byte ∈ bytes := by
  induction h with
  | nil => exact absurd hc List.not_mem_nil
  | char d _ ih =>
    rcases List.mem_cons.1 hc with heq | hc
    · obtain rfl := Option.some.inj heq
      exact List.mem_append_left _ hbyte
    · exact List.mem_append_right _ (ih hc)
  | cutOff _ _ _ ih => exact List.mem_append_right _ (ih (by simpa using hc))
  | stray _ _ ih => exact List.mem_cons_of_mem _ (ih (by simpa using hc))

/-! ### Texts -/

lemma decodes_encode (text : List Char) : Decodes (encode text) (text.map some) := by
  induction text with
  | nil => exact .nil
  | cons c text ih => exact .char c ih

lemma decode_eq_of_decodes {bytes : List UInt8} {result : List (Option Char)}
    (h : Decodes bytes result) : decode bytes = result.map (·.getD replacement) := by
  rw [decode, decodes_iff.1 h]

/-- The bytes of a text are read as that text. -/
lemma decode_encode (text : List Char) : decode (encode text) = text := by
  rw [decode_eq_of_decodes (decodes_encode text), List.map_map]
  exact List.map_id text

/-- Bytes that are read without damage are those of the text that is read. -/
lemma Decodes.encode_eq {bytes : List UInt8} {result : List (Option Char)} (h : Decodes bytes result)
    (hwhole : none ∉ result) : encode (result.map (·.getD replacement)) = bytes := by
  induction h with
  | nil => rfl
  | char c _ ih =>
    rw [List.map_cons, Option.getD_some, encode_cons, ih (by simpa using hwhole)]
  | cutOff => exact absurd List.mem_cons_self hwhole
  | stray => exact absurd List.mem_cons_self hwhole

lemma isDamaged_eq_false_iff {bytes : List UInt8} :
    isDamaged bytes = false ↔ none ∉ decodeFrom none bytes := by
  rw [isDamaged, List.any_eq_false]
  constructor
  · intro h hnone
    exact h none hnone rfl
  · intro h c? hc hnone
    exact h (Option.isNone_iff_eq_none.1 hnone ▸ hc)

lemma isDamaged_eq_false_iff_encode_decode {bytes : List UInt8} :
    isDamaged bytes = false ↔ encode (decode bytes) = bytes := by
  rw [isDamaged_eq_false_iff]
  constructor
  · exact (decodes_decodeFrom bytes).1.encode_eq
  · intro h
    rw [← h, decodes_iff.1 (decodes_encode _)]
    simp

lemma decode_append_cons {byte : UInt8} (h : byte < 0x80) (before behind : List UInt8) :
    decode (before ++ byte :: behind) =
      decode before ++ Char.ofNat byte.toNat :: decode behind := by
  have hdecodes := (decodes_decodeFrom before).1.append_cons h (decodes_decodeFrom behind).1
  rw [decode_eq_of_decodes hdecodes, List.map_append, List.map_cons]
  rfl

/-! ### Lines -/

/-- Bytes without a line feed are read as a text without one. -/
lemma newline_not_mem_decode {bytes : List UInt8} (h : 0x0A ∉ bytes) : '\n' ∉ decode bytes := by
  intro hmem
  obtain ⟨c?, hc, hnewline⟩ := List.mem_map.1 hmem
  cases c? with
  | none => exact absurd hnewline (by decide)
  | some c =>
    obtain rfl : c = '\n' := hnewline
    exact h ((decodes_decodeFrom bytes).1.mem_of_mem hc (by decide))

/-- The lines of the text that is read are those of the bytes, each read by itself. -/
lemma splitOn_decode (bytes : List UInt8) :
    (decode bytes).splitOn '\n' = (bytes.splitOn 0x0A).map decode := by
  by_cases h : 0x0A ∈ bytes
  · obtain ⟨line, behind, hbytes, hline⟩ := List.eq_append_cons_of_mem h
    have hshorter : behind.length < bytes.length := by
      rw [hbytes, List.length_append, List.length_cons]
      omega
    have hbehind := splitOn_decode behind
    have hnewline : Char.ofNat (0x0A : UInt8).toNat = '\n' := rfl
    rw [hbytes, decode_append_cons (by decide), hnewline, List.splitOn_append_cons_self,
      List.splitOn_append_cons_self, List.map_append, hbehind, List.splitOn_eq_singleton hline,
      List.splitOn_eq_singleton (newline_not_mem_decode hline), List.map_singleton]
  · rw [List.splitOn_eq_singleton h, List.splitOn_eq_singleton (newline_not_mem_decode h),
      List.map_singleton]
termination_by bytes.length

/-- **Damage stays where it is.**  Bytes are read by the rule, with one replacement character for each
damage.  The bytes of a text are read as that text, and bytes count as undamaged exactly if they are
those of the text that is read.  A byte below 128 is read as its character, and what stands before it
and behind it is read as if it stood alone.  So the bytes of the text that is read are read as the same
text, and the lines of that text are those of the bytes, each read by itself. -/
theorem decode_confines_damage :
    (∀ bytes, ∃ result, Decodes bytes result ∧
      decode bytes = result.map (·.getD replacement)) ∧
    (∀ text, decode (encode text) = text) ∧
    (∀ bytes, isDamaged bytes = false ↔ encode (decode bytes) = bytes) ∧
    (∀ (before behind : List UInt8) (byte : UInt8), byte < 0x80 →
      decode (before ++ byte :: behind) =
        decode before ++ Char.ofNat byte.toNat :: decode behind) ∧
    (∀ bytes, decode (encode (decode bytes)) = decode bytes) ∧
    ∀ bytes, (decode bytes).splitOn '\n' = (bytes.splitOn 0x0A).map decode := by
  refine ⟨fun bytes => ?_, decode_encode, fun bytes => isDamaged_eq_false_iff_encode_decode,
    fun before behind byte hbyte => decode_append_cons hbyte before behind,
    fun bytes => decode_encode (decode bytes), splitOn_decode⟩
  exact ⟨_, (decodes_decodeFrom bytes).1, rfl⟩

/-- A line feed in the midst of the three bytes of a character, which is read as two damages. -/
theorem decode_confines_damage_divided :
    (0x0A : UInt8) < 0x80 ∧
      decode ([0xE2, 0x82] ++ 0x0A :: [0xAC, 0x41]) =
        decode [0xE2, 0x82] ++ '\n' :: decode [0xAC, 0x41] ∧
      decode [0xE2, 0x82] = [replacement] ∧ decode [0xAC, 0x41] = [replacement, 'A'] := by
  have hbyte : (0x0A : UInt8) < 0x80 := by decide
  exact ⟨hbyte, decode_confines_damage.2.2.2.1 [0xE2, 0x82] [0xAC, 0x41] 0x0A hbyte, by decide,
    by decide⟩

end Utf8

end UnitCheck
