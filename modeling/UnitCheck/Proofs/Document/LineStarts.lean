/-
Where the lines of a text begin and end.

The reader cuts a text behind its line feeds and adds up the sizes of the chunks.  The line index looks for
the line feeds.  Both find the same places: the starts in the index are the offsets of the lines, and
behind a last line feed there is one more (`map_offset_linesFrom`).  A chunk is a line and its line end,
so the lines and line ends make up the text (`exists_lineEnd`).
-/
import UnitCheck.Proofs.Document.Chunks
import UnitCheck.Proofs.LineIndex

namespace UnitCheck

/-! ### Offsets -/

/-- The text is empty or ends in a line feed, so that a further line would begin at its end. -/
def EndsAtLineStart (text : List Char) : Prop :=
  text = [] ∨ text.getLast? = some '\n'

instance (text : List Char) : Decidable (EndsAtLineStart text) :=
  inferInstanceAs (Decidable (_ ∨ _))

lemma not_endsAtLineStart {line : List Char} (h : '\n' ∉ line) (hne : line ≠ []) :
    ¬ EndsAtLineStart line := by
  rintro (hnil | hlast)
  · exact hne hnil
  · exact h (List.mem_of_getLast? hlast)

lemma endsAtLineStart_append_newline (line rest : List Char) :
    EndsAtLineStart (line ++ '\n' :: rest) ↔ EndsAtLineStart rest := by
  cases rest with
  | nil => simp [EndsAtLineStart]
  | cons c rest => simp [EndsAtLineStart]

lemma LineIndex.startsFrom_of_newline_not_mem {text : List Char} (h : '\n' ∉ text) (offset : Nat) :
    startsFrom offset text = [] := by
  rw [← List.length_eq_zero_iff, length_startsFrom, List.count_eq_zero.2 h]

lemma LineIndex.startsFrom_append_newline {line : List Char} (h : '\n' ∉ line) (rest : List Char)
    (offset : Nat) :
    startsFrom offset (line ++ '\n' :: rest) =
      (offset + byteLength (line ++ ['\n'])) :: startsFrom (offset + byteLength (line ++ ['\n'])) rest := by
  have hsize : offset + byteLength (line ++ ['\n']) = offset + byteLength line + 1 := by
    rw [byteLength_append, byteLength_newline_cons, byteLength_nil, Nat.add_assoc]
  rw [startsFrom_append, startsFrom_of_newline_not_mem h, hsize]
  rfl

/-- The offsets of the lines are the starts that are found by looking for line feeds.  Only a start at the
end of the text is that of no line. -/
lemma map_offset_linesFrom (offset : Nat) (text : List Char) :
    (linesFrom offset (chunks text)).map (·.offset) ++
        (if EndsAtLineStart text then [offset + byteLength text] else []) =
      offset :: LineIndex.startsFrom offset text := by
  induction text using induction_on_lines generalizing offset with
  | nil => rfl
  | last line hline hne =>
    rw [chunks_of_newline_not_mem hline hne, if_neg (not_endsAtLineStart hline hne),
      LineIndex.startsFrom_of_newline_not_mem hline]
    rfl
  | cons line rest hline ih =>
    have hsize : offset + byteLength (line ++ '\n' :: rest) =
        offset + byteLength (line ++ ['\n']) + byteLength rest := by
      rw [Nat.add_assoc, ← byteLength_append, List.append_assoc, List.singleton_append]
    rw [chunks_append_newline hline, linesFrom, List.map_cons, List.cons_append, hsize,
      if_congr (endsAtLineStart_append_newline line rest) rfl rfl, ih,
      LineIndex.startsFrom_append_newline hline]

/-- The mark in front of a text adds no start. -/
lemma startsFrom_withoutMark (text : List Char) :
    LineIndex.startsFrom (byteLength text - byteLength (withoutMark text)) (withoutMark text) =
      LineIndex.startsFrom 0 text := by
  obtain ⟨mark, hmark, hsize⟩ := exists_mark_append text
  have hcount := congrArg (List.count '\n') hmark
  rw [List.count_append, count_withoutMark] at hcount
  have hnewline : '\n' ∉ mark := List.count_eq_zero.1 (by omega)
  conv_rhs => rw [hmark]
  rw [LineIndex.startsFrom_append, LineIndex.startsFrom_of_newline_not_mem hnewline, hsize, Nat.zero_add,
    List.nil_append]

lemma byteLength_sub_add_withoutMark (text : List Char) :
    byteLength text - byteLength (withoutMark text) + byteLength (withoutMark text) =
      byteLength text := by
  obtain ⟨mark, hmark, hsize⟩ := exists_mark_append text
  rw [← hsize, ← byteLength_append, ← hmark]

/-- The starts in the index by the lines of the text. -/
lemma map_offset_linesOf (text : List Char) :
    (linesOf text).map (·.offset) ++
        (if EndsAtLineStart (withoutMark text) then [byteLength text] else []) =
      (byteLength text - byteLength (withoutMark text)) :: LineIndex.startsFrom 0 text := by
  rw [← startsFrom_withoutMark, ← map_offset_linesFrom, linesOf_eq_linesFrom,
    byteLength_sub_add_withoutMark]

lemma getElem?_of_linesOf {text : List Char} {k : Nat} {line : Line}
    (h : (linesOf text)[k]? = some line) :
    ((byteLength text - byteLength (withoutMark text)) :: LineIndex.startsFrom 0 text)[k]? =
      some line.offset := by
  have hk : k < (linesOf text).length := (List.getElem?_eq_some_iff.1 h).1
  rw [← map_offset_linesOf, List.getElem?_append_left (by rwa [List.length_map]), List.getElem?_map, h]
  rfl

/-- The mark has three bytes. -/
lemma byteLength_sub_withoutMark (text : List Char) :
    byteLength text - byteLength (withoutMark text) =
      if text.head? = some byteOrderMark then 3 else 0 := by
  rw [withoutMark]
  split
  next hmark =>
    obtain ⟨rest, rfl⟩ := List.head?_eq_some_iff.1 hmark
    rw [List.tail_cons, byteLength_cons, Nat.add_sub_cancel_right]
    rfl
  next => exact Nat.sub_self _

/-! ### Line ends -/

lemma getElem?_linesFrom (offset k : Nat) (cs : List (List Char)) :
    (linesFrom offset cs)[k]? = cs[k]?.map fun chunk =>
      ⟨offset + byteLength (cs.take k).flatten, dropEndWhile isLineEnd chunk⟩ := by
  induction cs generalizing offset k with
  | nil => rfl
  | cons chunk cs ih =>
    cases k with
    | zero => rfl
    | succ k =>
      rw [linesFrom, List.getElem?_cons_succ, List.getElem?_cons_succ, ih, List.take_succ_cons,
        List.flatten_cons, byteLength_append, Nat.add_assoc]

lemma length_linesFrom (offset : Nat) (cs : List (List Char)) :
    (linesFrom offset cs).length = cs.length := by
  induction cs generalizing offset with
  | nil => rfl
  | cons chunk cs ih => rw [linesFrom, List.length_cons, ih, List.length_cons]

/-- The offset at which the next line begins, or the end of the text behind the last line. -/
def nextOffset (text : List Char) (k : Nat) : Nat :=
  ((linesOf text)[k + 1]?.map (·.offset)).getD (byteLength text)

lemma nextOffset_eq (text : List Char) (k : Nat) :
    nextOffset text k = byteLength text - byteLength (withoutMark text) +
      byteLength ((chunks (withoutMark text)).take (k + 1)).flatten := by
  rw [nextOffset, linesOf_eq_linesFrom, getElem?_linesFrom]
  rcases hchunk : (chunks (withoutMark text))[k + 1]? with _ | chunk
  · -- all chunks are taken, and they make up the text behind the mark
    rw [List.take_of_length_le (List.getElem?_eq_none_iff.1 hchunk), flatten_chunks,
      byteLength_sub_add_withoutMark]
    rfl
  · rfl

/-- A line stands in the text at its offset, in a chunk that reaches up to the next line. -/
lemma exists_chunk_of_linesOf {text : List Char} {k : Nat} {line : Line}
    (h : (linesOf text)[k]? = some line) :
    ∃ chunk before after, (chunks (withoutMark text))[k]? = some chunk ∧
      line.text = dropEndWhile isLineEnd chunk ∧ text = before ++ (chunk ++ after) ∧
      byteLength before = line.offset ∧ nextOffset text k = line.offset + byteLength chunk := by
  rw [linesOf_eq_linesFrom, getElem?_linesFrom] at h
  obtain ⟨chunk, hchunk, rfl⟩ := Option.map_eq_some_iff.1 h
  obtain ⟨mark, hmark, hsize⟩ := exists_mark_append text
  have hbody := text_eq_of_getElem?_chunks hchunk
  refine ⟨chunk, mark ++ ((chunks (withoutMark text)).take k).flatten,
    ((chunks (withoutMark text)).drop (k + 1)).flatten, hchunk, rfl, ?_, ?_, ?_⟩
  · rw [List.append_assoc, ← hbody]
    exact hmark
  · rw [byteLength_append, hsize]
  · rw [nextOffset_eq, List.take_add_one, hchunk, Option.toList_some, List.flatten_append,
      List.flatten_singleton, byteLength_append, Nat.add_assoc]

/-- Only carriage returns are cut off at the end of a line. -/
lemma exists_replicate_return {line : List Char} (h : '\n' ∉ line) :
    ∃ returns, line = dropEndWhile isLineEnd line ++ List.replicate returns '\r' := by
  obtain ⟨rest, hrest, hline⟩ := exists_dropEndWhile_append isLineEnd line
  have hreturn : ∀ c ∈ rest, c = '\r' := by
    intro c hc
    have hmem : c ∈ line := hline ▸ List.mem_append_right _ hc
    have hend := hrest c hc
    rw [isLineEnd, Bool.or_eq_true, beq_iff_eq, beq_iff_eq] at hend
    refine hend.resolve_left ?_
    rintro rfl
    exact h hmem
  refine ⟨rest.length, ?_⟩
  rw [← List.eq_replicate_iff.2 ⟨rfl, hreturn⟩, hline]

/-- A chunk is a line and its line end.  Only the last chunk can be without a line feed. -/
lemma exists_lineEnd {text chunk : List Char} {k : Nat} (h : (chunks text)[k]? = some chunk) :
    ∃ returns lineFeed,
      chunk = dropEndWhile isLineEnd chunk ++ (List.replicate returns '\r' ++ lineFeed) ∧
      '\n' ∉ dropEndWhile isLineEnd chunk ∧
      (lineFeed = ['\n'] ∨ lineFeed = [] ∧ k + 1 = (chunks text).length) := by
  obtain ⟨line, hsplit, hchunk⟩ := getElem?_splitOn_of_chunks h
  have hline : '\n' ∉ line := not_mem_of_mem_splitOn (List.mem_of_getElem? hsplit)
  obtain ⟨returns, hreturns⟩ := exists_replicate_return hline
  have hdrop : '\n' ∉ dropEndWhile isLineEnd line := by
    intro hmem
    rw [hreturns] at hline
    exact hline (List.mem_append_left _ hmem)
  rcases hchunk with rfl | rfl
  · rw [dropEndWhile_append_of_forall (List.forall_mem_singleton.2 rfl)]
    refine ⟨returns, ['\n'], ?_, hdrop, Or.inl rfl⟩
    rw [← List.append_assoc, ← hreturns]
  · refine ⟨returns, [], by rwa [List.append_nil], hdrop, Or.inr ⟨rfl, ?_⟩⟩
    by_contra hk
    have hlt : k < (chunks text).length := (List.getElem?_eq_some_iff.1 h).1
    exact hline (List.mem_of_getLast? (getLast?_of_getElem?_chunks h (by omega)))

/-- A line stands in the text between what is before it and its line end. -/
lemma exists_append_of_linesOf {text : List Char} {k : Nat} {line : Line}
    (h : (linesOf text)[k]? = some line) :
    ∃ before returns lineFeed after,
      text = before ++ (line.text ++ ((List.replicate returns '\r' ++ lineFeed) ++ after)) ∧
      byteLength before = line.offset ∧
      nextOffset text k =
        line.offset + byteLength line.text + byteLength (List.replicate returns '\r' ++ lineFeed) ∧
      '\n' ∉ line.text ∧ (lineFeed = ['\n'] ∨ lineFeed = [] ∧ k + 1 = (linesOf text).length) := by
  obtain ⟨chunk, before, after, hchunk, hline, htext, hoffset, hnext⟩ := exists_chunk_of_linesOf h
  obtain ⟨returns, lineFeed, hends, hnewline, hlast⟩ := exists_lineEnd hchunk
  rw [← hline] at hends hnewline
  rw [hends] at htext hnext
  refine ⟨before, returns, lineFeed, after, ?_, hoffset, ?_, hnewline, ?_⟩
  · rw [← List.append_assoc line.text]
    exact htext
  · rw [hnext, byteLength_append, Nat.add_assoc]
  · rw [linesOf_eq_linesFrom, length_linesFrom]
    exact hlast

/-- A line does not end in a carriage return. -/
lemma getLast?_of_linesOf {text : List Char} {k : Nat} {line : Line}
    (h : (linesOf text)[k]? = some line) : line.text.getLast? ≠ some '\r' := by
  obtain ⟨chunk, -, -, -, hline, -⟩ := exists_chunk_of_linesOf h
  rw [hline]
  intro hlast
  exact absurd (getLast?_dropEndWhile isLineEnd chunk '\r' hlast) (by decide)

/-- **The lines of a text and its line index agree, and nothing is lost between the lines.**

There are as many lines as starts in the index, less one if the text behind the mark is empty or ends in
a line feed.  The first line begins at the front of the text or behind the mark, and each other one at the start
of its number.  Each line is the part of the text at its offset, holds no line feed and does not end in a
carriage return.  Between it and the next line, or the end of the text, stand carriage returns and then
a line feed, which only the last line can lack. -/
theorem lines_agree_with_index (text : List Char) :
    (linesOf text).length + (if EndsAtLineStart (withoutMark text) then 1 else 0) =
      (LineIndex.ofText text).starts.size ∧
    (∀ line, (linesOf text)[0]? = some line →
      line.offset = if text.head? = some byteOrderMark then 3 else 0) ∧
    (∀ k line, 1 ≤ k → (linesOf text)[k]? = some line →
      (LineIndex.ofText text).starts[k]? = some line.offset) ∧
    ∀ k line, (linesOf text)[k]? = some line →
      (Span.ofLength line.offset (byteLength line.text)).slice? text = some line.text ∧
      '\n' ∉ line.text ∧ line.text.getLast? ≠ some '\r' ∧
      ∃ returns lineFeed,
        Span.slice? ⟨line.offset + byteLength line.text, nextOffset text k⟩ text =
          some (List.replicate returns '\r' ++ lineFeed) ∧
        (lineFeed = ['\n'] ∨ lineFeed = [] ∧ k + 1 = (linesOf text).length) := by
  refine ⟨?_, ?_, ?_, ?_⟩
  · -- both sides count the offsets of the lines, and that of the end if a line begins there
    have hlength := congrArg List.length (map_offset_linesOf text)
    rw [List.length_append, List.length_map, apply_ite List.length] at hlength
    exact hlength
  · intro line hline
    rw [← byteLength_sub_withoutMark]
    exact (Option.some.inj (getElem?_of_linesOf hline)).symm
  · intro k line hk hline
    obtain ⟨j, rfl⟩ := Nat.exists_eq_add_of_le' hk
    rw [LineIndex.ofText, List.getElem?_toArray]
    exact getElem?_of_linesOf hline
  · intro k line hline
    obtain ⟨before, returns, lineFeed, after, htext, hoffset, hnext, hnewline, hlast⟩ :=
      exists_append_of_linesOf hline
    have hbehind : text =
        (before ++ line.text) ++ ((List.replicate returns '\r' ++ lineFeed) ++ after) := by
      rw [List.append_assoc]
      exact htext
    have hend : byteLength (before ++ line.text) = line.offset + byteLength line.text := by
      rw [byteLength_append, hoffset]
    refine ⟨Span.slice?_eq_some htext hoffset.symm ?_, hnewline, getLast?_of_linesOf hline, returns,
      lineFeed, Span.slice?_eq_some hbehind hend.symm ?_, hlast⟩
    · rw [hoffset]
      rfl
    · rw [hend]
      exact hnext

/-- A text with a mark, a line that ends in two carriage returns and a line feed, and a last line that
has no line feed. -/
theorem lines_agree_with_index_marked :
    linesOf "\uFEFFa\r\r\nb\r".toList = [⟨3, ['a']⟩, ⟨7, ['b']⟩] ∧
      (LineIndex.ofText "\uFEFFa\r\r\nb\r".toList).starts.size = 2 ∧
      (LineIndex.ofText "\uFEFFa\r\r\nb\r".toList).starts[1]? = some 7 ∧
      ∃ returns lineFeed,
        Span.slice? ⟨4, 7⟩ "\uFEFFa\r\r\nb\r".toList =
          some (List.replicate returns '\r' ++ lineFeed) ∧ lineFeed = ['\n'] := by
  have hlines : linesOf "\uFEFFa\r\r\nb\r".toList = [⟨3, ['a']⟩, ⟨7, ['b']⟩] := by decide
  obtain ⟨hcount, -, hstart, hline⟩ := lines_agree_with_index "\uFEFFa\r\r\nb\r".toList
  refine ⟨hlines, ?_, hstart 1 ⟨7, ['b']⟩ (by decide) (by decide), ?_⟩
  · rw [← hcount, hlines]
    decide
  · obtain ⟨-, -, -, returns, lineFeed, hslice, hlast⟩ := hline 0 ⟨3, ['a']⟩ (by decide)
    refine ⟨returns, lineFeed, hslice, hlast.resolve_right ?_⟩
    rintro ⟨-, hk⟩
    rw [hlines] at hk
    exact absurd hk (by decide)

end UnitCheck
