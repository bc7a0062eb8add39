/-
Positions by a plain scan.

A line index looks an offset up by bisection among the starts of the lines.  `countAtMost_eq` says
what bisection finds: the number of leading entries that are at most the bound, wherever it starts
looking.  A search that tells a hit from a miss leads to the same line (`Searches.countAtMost_eq`).
The starts up to an offset between two characters are those of the lines that begin before it, so the
position of the offset is what a scan of the text before it counts (`position?_append`).  Whatever is
scanned moves the position on, to the right or to a later line, so positions come in the order of
their offsets (`precedes_of_lt`).
-/
import Mathlib.Data.List.DropRight
import UnitCheck.LineIndex
import UnitCheck.Proofs.Text.Slice

namespace UnitCheck

namespace LineIndex

/-! ### Bisection -/

/-- The first `count` numbers are at most the bound, and those behind them are not. -/
structure Splits (numbers : Array Nat) (bound count : Nat) : Prop where
  atMost : ∀ i n, i < count → numbers[i]? = some n → n ≤ bound
  above : ∀ i n, count ≤ i → numbers[i]? = some n → bound < n

/-- Bisection finds where the numbers are split, if it looks around that place. -/
lemma countAtMost_eq {numbers : Array Nat} {bound count : Nat} (h : Splits numbers bound count)
    (lo hi : Nat) (hlo : lo ≤ count) (hhi : count ≤ hi) (hsize : hi ≤ numbers.size) :
    countAtMost numbers bound lo hi = count := by
  fun_induction countAtMost numbers bound lo hi with
  | case1 lo hi hlt middle hle ih =>
    -- the middle number is at most the bound, so the split is behind it
    have hmiddle : middle < numbers.size := by omega
    rw [Array.getD_eq_getD_getElem?, Array.getElem?_eq_getElem hmiddle, Option.getD_some] at hle
    refine ih ?_ hhi hsize
    by_contra hcount
    have := h.above middle _ (by omega) (Array.getElem?_eq_getElem hmiddle)
    omega
  | case2 lo hi hlt middle hgt ih =>
    -- the middle number is above the bound, so the split is not behind it
    have hmiddle : middle < numbers.size := by omega
    rw [Array.getD_eq_getD_getElem?, Array.getElem?_eq_getElem hmiddle, Option.getD_some] at hgt
    refine ih hlo ?_ (by omega)
    by_contra hcount
    have := h.atMost middle _ (by omega) (Array.getElem?_eq_getElem hmiddle)
    omega
  | case3 lo hi hge => omega

lemma splits_append {a b : List Nat} {bound : Nat} (ha : ∀ n ∈ a, n ≤ bound)
    (hb : ∀ n ∈ b, bound < n) : Splits (a ++ b).toArray bound a.length := by
  refine ⟨fun i n hi hn => ?_, fun i n hi hn => ?_⟩
  · rw [List.getElem?_toArray, List.getElem?_append_left hi] at hn
    exact ha n (List.mem_of_getElem? hn)
  · rw [List.getElem?_toArray, List.getElem?_append_right hi] at hn
    exact hb n (List.mem_of_getElem? hn)

/-! ### The starts of lines -/

lemma startsFrom_append (offset : Nat) (a b : List Char) :
    startsFrom offset (a ++ b) = startsFrom offset a ++ startsFrom (offset + byteLength a) b := by
  induction a generalizing offset with
  | nil => simp [startsFrom]
  | cons c a ih =>
    simp only [List.cons_append, startsFrom, ih, byteLength_cons, Nat.add_assoc]
    split <;> rfl

lemma mem_startsFrom_bounds {offset n : Nat} {text : List Char} (h : n ∈ startsFrom offset text) :
    offset < n ∧ n ≤ offset + byteLength text := by
  induction text generalizing offset with
  | nil => exact absurd h (by simp [startsFrom])
  | cons c text ih =>
    have hpos := c.utf8Size_pos
    have hrest : n ∈ startsFrom (offset + c.utf8Size) text →
        offset < n ∧ n ≤ offset + byteLength (c :: text) := by
      intro hmem
      have := ih hmem
      rw [byteLength_cons]
      omega
    rw [startsFrom] at h
    split at h
    · rcases List.mem_cons.1 h with rfl | h
      · rw [byteLength_cons]
        omega
      · exact hrest h
    · exact hrest h

lemma length_startsFrom (offset : Nat) (text : List Char) :
    (startsFrom offset text).length = text.count '\n' := by
  induction text generalizing offset with
  | nil => rfl
  | cons c text ih =>
    rw [startsFrom]
    by_cases hc : c = '\n'
    · rw [if_pos hc, hc, List.length_cons, ih, List.count_cons_self]
    · rw [if_neg hc, ih, List.count_cons_of_ne hc]

/-- The last line of a text begins behind its last line feed. -/
lemma getElem?_starts (text : List Char) :
    (0 :: startsFrom 0 text)[text.count '\n']? =
      some (byteLength (text.rdropWhile (· != '\n'))) := by
  induction text using List.reverseRecOn with
  | nil => rfl
  | append_singleton text c ih =>
    rw [startsFrom_append, Nat.zero_add, ← List.cons_append, List.count_append]
    by_cases hc : c = '\n'
    · -- a line feed at the end begins a new line behind it
      subst hc
      have hlength : (0 :: startsFrom 0 text).length = text.count '\n' + 1 := by
        rw [List.length_cons, length_startsFrom]
      rw [List.rdropWhile_concat_neg _ _ _ (by simp), List.count_singleton_self, ← hlength]
      simp [startsFrom]
    · rw [List.rdropWhile_concat_pos _ _ _ (by simp [hc]), ← ih]
      simp [startsFrom, hc]

lemma startsFrom_increasing (offset : Nat) (text : List Char) :
    (startsFrom offset text).Pairwise (· < ·) := by
  induction text generalizing offset with
  | nil => exact List.Pairwise.nil
  | cons c text ih =>
    rw [startsFrom]
    split
    · exact List.pairwise_cons.2 ⟨fun n hn => (mem_startsFrom_bounds hn).1, ih _⟩
    · exact ih _

/-- The starts of the lines increase. -/
lemma starts_increasing (text : List Char) : (0 :: startsFrom 0 text).Pairwise (· < ·) :=
  List.pairwise_cons.2 ⟨fun _ hn => (mem_startsFrom_bounds hn).1, startsFrom_increasing 0 text⟩

/-- Wherever an offset lies, some lines begin at or before it, and all others behind it. -/
lemma exists_splits_starts (text : List Char) (bound : Nat) :
    ∃ count, Splits (ofText text).starts bound (count + 1) ∧
      count < (ofText text).starts.size := by
  set before := (startsFrom 0 text).takeWhile (· ≤ bound) with hbefore
  set behind := (startsFrom 0 text).dropWhile (· ≤ bound) with hbehind
  have hstarts : (ofText text).starts = ((0 :: before) ++ behind).toArray := by
    rw [List.cons_append, hbefore, hbehind, List.takeWhile_append_dropWhile]
    rfl
  rw [hstarts]
  have hsize : before.length < ((0 :: before) ++ behind).toArray.size := by
    rw [List.size_toArray, List.length_append, List.length_cons]
    omega
  refine ⟨before.length, splits_append (fun n hn => ?_) fun n hn => ?_, hsize⟩
  · rcases List.mem_cons.1 hn with rfl | hn
    · exact Nat.zero_le _
    · simpa using List.mem_takeWhile_imp hn
  · -- the first start behind is above the offset, and the others come after it
    have hincreasing : behind.Pairwise (· < ·) :=
      (startsFrom_increasing 0 text).sublist (List.dropWhile_sublist _)
    rcases hcons : behind with _ | ⟨first, rest⟩
    · exact absurd (hcons ▸ hn) List.not_mem_nil
    · have hfirst : bound < first := by
        have := List.head?_dropWhile_not (· ≤ bound) (startsFrom 0 text)
        rw [← hbehind, hcons] at this
        simpa using this
      rw [hcons] at hn hincreasing
      rcases List.mem_cons.1 hn with rfl | hn
      · exact hfirst
      · exact hfirst.trans ((List.pairwise_cons.1 hincreasing).1 n hn)

/-! ### Hit and miss -/

/-- The answer of a search for a number among increasing ones: its index if it is there, and else the
index at which it would have to be inserted. -/
inductive Searches (numbers : Array Nat) (target : Nat) : Except Nat Nat → Prop
  | hit {i : Nat} (hget : numbers[i]? = some target) : Searches numbers target (.ok i)
  | miss {i : Nat} (hsize : i ≤ numbers.size)
      (hbefore : ∀ j n, j < i → numbers[j]? = some n → n < target)
      (hbehind : ∀ j n, i ≤ j → numbers[j]? = some n → target < n) :
      Searches numbers target (.error i)

/-- The index of the line on which an offset lies, by what the search for it among the starts of the
lines answers.  The offset is the start of the line that is hit; else the line is the one before the
place at which it would be inserted. -/
def lineOfAnswer : Except Nat Nat → Nat
  | .ok i => i
  | .error i => i - 1

/-- The starts up to one of them are those at most as great. -/
lemma splits_of_hit {text : List Char} {i offset : Nat}
    (h : (ofText text).starts[i]? = some offset) : Splits (ofText text).starts offset (i + 1) := by
  have hincreasing := List.pairwise_iff_getElem.1 (starts_increasing text)
  have hstarts : (ofText text).starts = (0 :: startsFrom 0 text).toArray := rfl
  rw [hstarts, List.getElem?_toArray] at h
  obtain ⟨hi, rfl⟩ := List.getElem?_eq_some_iff.1 h
  refine ⟨fun j n hj hn => ?_, fun j n hj hn => ?_⟩
  · rw [hstarts, List.getElem?_toArray] at hn
    obtain ⟨hj', rfl⟩ := List.getElem?_eq_some_iff.1 hn
    rcases Nat.lt_or_eq_of_le (Nat.le_of_lt_succ hj) with hlt | rfl
    · exact (hincreasing j i hj' hi hlt).le
    · exact le_refl _
  · rw [hstarts, List.getElem?_toArray] at hn
    obtain ⟨hj', rfl⟩ := List.getElem?_eq_some_iff.1 hn
    exact hincreasing i j hi hj' hj

/-- A search for an offset among the starts of the lines has an answer. -/
lemma exists_searches (text : List Char) (offset : Nat) :
    ∃ answer, Searches (ofText text).starts offset answer := by
  obtain ⟨count, hsplits, hcount⟩ := exists_splits_starts text offset
  have hget := Array.getElem?_eq_getElem hcount
  rcases Nat.lt_or_eq_of_le (hsplits.atMost count _ (Nat.lt_succ_self _) hget) with hlt | heq
  · refine ⟨.error (count + 1), .miss hcount (fun j n hj hn => ?_) hsplits.above⟩
    exact ((splits_of_hit hget).atMost j n hj hn).trans_lt hlt
  · exact ⟨.ok count, .hit (heq ▸ hget)⟩

/-- Hit or miss, the line is the last one that begins at or before the offset.  A miss is never in
front of the first line. -/
lemma Searches.countAtMost_eq {text : List Char} {offset : Nat} {answer : Except Nat Nat}
    (h : Searches (ofText text).starts offset answer) :
    countAtMost (ofText text).starts offset 0 (ofText text).starts.size =
      lineOfAnswer answer + 1 := by
  cases h with
  | @hit i hget =>
    have hsize : i < (ofText text).starts.size := (Array.getElem?_eq_some_iff.1 hget).1
    exact LineIndex.countAtMost_eq (splits_of_hit hget) _ _ (Nat.zero_le _) hsize (le_refl _)
  | @miss i hsize hbefore hbehind =>
    have hpos : 0 < i := by
      by_contra hzero
      have := hbehind 0 0 (by omega) rfl
      omega
    have hsplits : Splits (ofText text).starts offset i :=
      ⟨fun j n hj hn => (hbefore j n hj hn).le, hbehind⟩
    rw [LineIndex.countAtMost_eq hsplits _ _ (Nat.zero_le _) hsize (le_refl _), lineOfAnswer]
    omega

/-- **Positions by search.**  The position of an offset is found from what a search for it among the
starts of the lines answers, hit or miss. -/
theorem position?_eq_of_searches (text : List Char) (offset : Nat) {answer : Except Nat Nat}
    (h : Searches (ofText text).starts (min offset (byteLength text)) answer) :
    (ofText text).position? offset =
      ((ofText text).starts[lineOfAnswer answer]?).bind fun start =>
        (Span.slice? ⟨start, min offset (byteLength text)⟩ text).map fun before =>
          ⟨lineOfAnswer answer + 1, before.length + 1⟩ := by
  have hline := h.countAtMost_eq
  have hsize : (ofText text).size = byteLength text := rfl
  have htext : (ofText text).text = text := rfl
  simp only [position?, hsize, htext, hline, Nat.add_sub_cancel, Option.bind_eq_bind,
    Option.pure_def, Option.map_eq_bind, Function.comp_def]

/-! ### Positions -/

/-- **The position of an offset is what a scan counts.**  This is about offsets between characters,
so the text falls into what stands before the offset and what stands behind. -/
lemma position?_append (before after : List Char) :
    (ofText (before ++ after)).position? (byteLength before) = some (.after before) := by
  have hsplit : before.rdropWhile (· != '\n') ++ before.rtakeWhile (· != '\n') = before :=
    List.rdropWhile_append_rtakeWhile
  have hstarts : 0 :: startsFrom 0 (before ++ after)
      = (0 :: startsFrom 0 before) ++ startsFrom (byteLength before) after := by
    rw [startsFrom_append, Nat.zero_add, List.cons_append]
  have hlength : (0 :: startsFrom 0 before).length = before.count '\n' + 1 := by
    rw [List.length_cons, length_startsFrom]
  have hline : countAtMost (0 :: startsFrom 0 (before ++ after)).toArray (byteLength before) 0
      (0 :: startsFrom 0 (before ++ after)).toArray.size = before.count '\n' + 1 := by
    -- lines that begin in the text before begin at or before its end, and all others behind it
    rw [hstarts, ← hlength]
    refine countAtMost_eq (splits_append (fun n hn => ?_) fun n hn => ?_) _ _ (Nat.zero_le _) ?_
      (le_refl _)
    · rcases List.mem_cons.1 hn with rfl | hn
      · exact Nat.zero_le _
      · have := mem_startsFrom_bounds hn
        omega
    · exact (mem_startsFrom_bounds hn).1
    · simp
  have hstart : (0 :: startsFrom 0 (before ++ after)).toArray[before.count '\n']?
      = some (byteLength (before.rdropWhile (· != '\n'))) := by
    rw [List.getElem?_toArray, hstarts, List.getElem?_append_left (by omega), getElem?_starts]
  have hcolumn : Span.slice? ⟨byteLength (before.rdropWhile (· != '\n')), byteLength before⟩
      (before ++ after) = some (before.rtakeWhile (· != '\n')) := by
    have htext : before ++ after =
        before.rdropWhile (· != '\n') ++ (before.rtakeWhile (· != '\n') ++ after) := by
      rw [← List.append_assoc, hsplit]
    exact Span.slice?_eq_some htext rfl (by rw [← byteLength_append, hsplit])
  have hmin : min (byteLength before) (byteLength (before ++ after)) = byteLength before := by
    rw [byteLength_append]
    omega
  simp only [position?, ofText, hmin, hline, Nat.add_sub_cancel, hstart, hcolumn,
    Option.bind_eq_bind, Option.bind_some, Option.pure_def]
  simp [Position.after, List.rtakeWhile]

end LineIndex

/-! ### Reading on -/

/-- What is on the same line moves the column. -/
lemma Position.after_append (before : List Char) {part : List Char} (h : '\n' ∉ part) :
    Position.after (before ++ part) =
      ⟨(Position.after before).line, (Position.after before).column + part.length⟩ := by
  have hall : ∀ c ∈ part.reverse, (c != '\n') = true := by
    intro c hc
    simp only [bne_iff_ne, ne_eq]
    rintro rfl
    exact h (List.mem_reverse.1 hc)
  simp only [Position.after, List.count_append, List.count_eq_zero.2 h, List.reverse_append,
    List.takeWhile_append_of_pos hall, List.length_append, List.length_reverse]
  simp only [Nat.add_zero, Position.mk.injEq, true_and]
  omega

/-- The position comes before another one: it is on an earlier line, or further left on the same
line. -/
def Position.Precedes (a b : Position) : Prop :=
  a.line < b.line ∨ a.line = b.line ∧ a.column < b.column

/-- Whatever is read moves the position on. -/
lemma Position.precedes_after_append (before : List Char) {part : List Char} (h : part ≠ []) :
    (Position.after before).Precedes (Position.after (before ++ part)) := by
  by_cases hnewline : '\n' ∈ part
  · refine Or.inl ?_
    have hcount := List.count_pos_iff.2 hnewline
    simp only [Position.after, List.count_append]
    omega
  · refine Or.inr ?_
    have hlength := List.length_pos_iff.2 h
    rw [Position.after_append before hnewline]
    exact ⟨rfl, by simp only; omega⟩

lemma Position.Precedes.ne {a b : Position} (h : a.Precedes b) : a ≠ b := by
  rintro rfl
  rcases h with h | ⟨-, h⟩
  · exact absurd h (Nat.lt_irrefl _)
  · exact absurd h (Nat.lt_irrefl _)

/-! ### All offsets -/

namespace LineIndex

/-- An offset that has a position lies between two characters. -/
lemma isBoundary_of_position? {text : List Char} {offset : Nat} {position : Position}
    (h : (ofText text).position? offset = some position) :
    IsBoundary text (min offset (byteLength text)) := by
  obtain ⟨start, -, h⟩ := Option.bind_eq_some_iff.1 h
  obtain ⟨part, hslice, -⟩ := Option.bind_eq_some_iff.1 h
  obtain ⟨before, after, htext, -, hstop⟩ := Span.exists_append_of_slice?_eq_some hslice
  refine ⟨before ++ part, after, ?_, ?_⟩
  · rw [List.append_assoc]
    exact htext
  · rw [byteLength_append]
    exact hstop.symm

/-- An offset counts as the end of the text if it lies beyond. -/
lemma position?_min (text : List Char) (offset : Nat) :
    (ofText text).position? (min offset (byteLength text)) = (ofText text).position? offset := by
  simp only [position?, ofText, Nat.min_assoc, Nat.min_self]

/-- Of two offsets between characters, the earlier one has the earlier position. -/
lemma precedes_of_lt {text : List Char} {a b : Nat} (ha : IsBoundary text a)
    (hb : IsBoundary text b) (hlt : a < b) :
    ∃ p q, (ofText text).position? a = some p ∧ (ofText text).position? b = some q ∧
      p.Precedes q := by
  obtain ⟨before, after, rfl, rfl⟩ := ha
  obtain ⟨before', after', htext, rfl⟩ := hb
  have hpart : ∃ part, before' = before ++ part := by
    rcases List.append_eq_append_iff.1 htext with ⟨part, hpart, -⟩ | ⟨part, hpart, -⟩
    · exact ⟨part, hpart⟩
    · rw [hpart, byteLength_append] at hlt
      omega
  obtain ⟨part, rfl⟩ := hpart
  have hne : part ≠ [] := by
    rintro rfl
    exact absurd hlt (by simp)
  refine ⟨.after before, .after (before ++ part), position?_append _ _, ?_,
    Position.precedes_after_append before hne⟩
  rw [htext]
  exact position?_append _ _

/-- **The line index agrees with a plain scan.**  The starts of the lines increase.  Let an offset be
cut down to the size of the text.  Bisection tells the starts at or before it from those behind it, and
there is at least one of the former, the last of which is then looked up.  The offset has no position
exactly if it lies inside a character.  Else the line counts the line feeds before it and the column
the characters behind the last of them.  Later offsets have later positions, so no two have the
same. -/
theorem position?_eq_scan (text : List Char) :
    (ofText text).starts.toList.Pairwise (· < ·) ∧
    (∀ offset, ∃ count start,
      countAtMost (ofText text).starts (min offset (byteLength text)) 0 (ofText text).starts.size =
          count + 1 ∧
        Splits (ofText text).starts (min offset (byteLength text)) (count + 1) ∧
        (ofText text).starts[count]? = some start ∧ start ≤ min offset (byteLength text)) ∧
    (∀ offset, (ofText text).position? offset = none ↔
      ¬ IsBoundary text (min offset (byteLength text))) ∧
    (∀ offset before after, text = before ++ after →
      byteLength before = min offset (byteLength text) →
      (ofText text).position? offset =
        some ⟨before.count '\n' + 1, (before.reverse.takeWhile (· != '\n')).length + 1⟩) ∧
    (∀ a b, IsBoundary text a → IsBoundary text b → a < b →
      ∃ p q, (ofText text).position? a = some p ∧ (ofText text).position? b = some q ∧
        p.Precedes q) ∧
    ∀ a b, IsBoundary text a → IsBoundary text b →
      (ofText text).position? a = (ofText text).position? b → a = b := by
  have hscan : ∀ offset before after, text = before ++ after →
      byteLength before = min offset (byteLength text) →
      (ofText text).position? offset = some (.after before) := by
    intro offset before after htext hlength
    rw [← position?_min, ← hlength, htext]
    exact position?_append before after
  refine ⟨starts_increasing text, fun offset => ?_, fun offset => ⟨?_, ?_⟩, hscan,
    fun a b => precedes_of_lt, fun a b ha hb heq => ?_⟩
  · obtain ⟨count, hsplits, hcount⟩ := exists_splits_starts text (min offset (byteLength text))
    have hstart := Array.getElem?_eq_getElem hcount
    exact ⟨count, _, countAtMost_eq hsplits _ _ (Nat.zero_le _) hcount (le_refl _), hsplits, hstart,
      hsplits.atMost count _ (Nat.lt_succ_self count) hstart⟩
  · rintro hnone ⟨before, after, htext, hlength⟩
    rw [hscan offset before after htext hlength] at hnone
    exact absurd hnone (by simp)
  · intro hinside
    rcases hposition : (ofText text).position? offset with _ | position
    · rfl
    · exact absurd (isBoundary_of_position? hposition) hinside
  · by_contra hne
    rcases Nat.lt_or_gt_of_ne hne with hlt | hlt
    · obtain ⟨p, q, hp, hq, hprecedes⟩ := precedes_of_lt ha hb hlt
      exact hprecedes.ne (Option.some.inj (hp.symm.trans (heq.trans hq)))
    · obtain ⟨p, q, hp, hq, hprecedes⟩ := precedes_of_lt hb ha hlt
      exact hprecedes.ne (Option.some.inj (hp.symm.trans (heq.symm.trans hq)))

/-- A text with a character of two bytes: offset 1 lies inside it, and offset 9 beyond the text. -/
theorem position?_eq_scan_wide :
    (ofText "é\nab".toList).position? 1 = none ∧
    (ofText "é\nab".toList).position? 9 = some ⟨2, 3⟩ ∧
    ∃ p q, (ofText "é\nab".toList).position? 2 = some p ∧
      (ofText "é\nab".toList).position? 4 = some q ∧ p.Precedes q := by
  obtain ⟨-, -, hnone, hscan, horder, -⟩ := position?_eq_scan "é\nab".toList
  refine ⟨(hnone 1).2 ?_, hscan 9 "é\nab".toList [] rfl (by decide),
    horder 2 4 ⟨['é'], "\nab".toList, rfl, by decide⟩ ⟨"é\na".toList, ['b'], rfl, by decide⟩
      (by decide)⟩
  rintro ⟨before, after, htext, hlength⟩
  cases before with
  | nil => exact absurd hlength (by decide)
  | cons c before =>
    obtain rfl : 'é' = c := (List.cons.inj htext).1
    have hsize : byteLength ('é' :: before) = 2 + byteLength before := rfl
    have hone : min 1 (byteLength "é\nab".toList) = 1 := by decide
    omega

end LineIndex

end UnitCheck
