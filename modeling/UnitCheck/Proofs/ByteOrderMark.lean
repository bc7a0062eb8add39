/-
A byte order mark in front of a text.

The reader passes over the mark, so every line stands as many bytes further on as the mark has.  The
line index does not pass over it: the mark is a character of the first line, and the columns of that
line count it, but no others (`Position.after_cons_of_newline_mem`).  Diagnostics do not notice,
since a key stands behind the header of its section and so behind a line feed
(`exists_newline_before_diagnostic`).
-/
import UnitCheck.Proofs.Document.Append
import UnitCheck.Proofs.Findings

namespace UnitCheck

/-! ### Positions -/

/-- What stands in front of the first line feed counts for the first line only. -/
lemma Position.after_cons_of_newline_mem {c : Char} (hc : c ≠ '\n') {before : List Char}
    (h : '\n' ∈ before) : Position.after (c :: before) = Position.after before := by
  have hshort : (before.reverse.takeWhile (· != '\n')).length ≠ before.reverse.length := by
    intro hlength
    have hall := (List.takeWhile_prefix (· != '\n')).eq_of_length hlength
    have hnewline : '\n' ∈ before.reverse.takeWhile (· != '\n') := by
      rw [hall]
      exact List.mem_reverse.2 h
    exact absurd (List.mem_takeWhile_imp hnewline) (by simp)
  rw [Position.after, List.count_cons_of_ne hc, List.reverse_cons, List.takeWhile_append,
    if_neg hshort, Position.after]

/-- An offset of a text, with the mark in front of the text. -/
lemma position?_mark_cons (before after : List Char) :
    (LineIndex.ofText (byteOrderMark :: (before ++ after))).position? (byteLength before + 3) =
      some (.after (byteOrderMark :: before)) := by
  have hsize : byteLength before + 3 = byteLength (byteOrderMark :: before) := by
    rw [byteLength_cons, Nat.add_comm]
    rfl
  rw [hsize, ← List.cons_append, LineIndex.position?_append]

/-- A diagnostic marks a key behind a line feed. -/
lemma exists_newline_before_diagnostic {registry : Registry} {text : List Char}
    {diagnostic : Diagnostic} (h : diagnostic ∈ registry.validate (Document.parse text)) :
    ∃ before after, text = before ++ after ∧ byteLength before = diagnostic.span.start ∧
      '\n' ∈ before := by
  obtain ⟨row, hrow, hnumber, rfl⟩ := exists_row_of_mem_validate h
  obtain ⟨before, after, htext, hstart⟩ := hrow.covers_key.start_isBoundary
  refine ⟨before, after, htext, hstart, ?_⟩
  -- the line of the key is not the first one, so the scan up to the key counts a line feed
  have hposition := hrow.position_key hnumber
  rw [← hstart, htext, LineIndex.position?_append] at hposition
  have hline : before.count '\n' + 1 = row.number + 1 :=
    congrArg Position.line (Option.some.inj hposition)
  exact List.count_pos_iff.1 (by omega)

/-! ### The text with the mark -/

lemma physicalLines_mark_cons (text : List Char) :
    physicalLines (byteOrderMark :: text) = placeLines 3 (text.splitOn '\n') := by
  have hmark : withoutMark (byteOrderMark :: text) = text := rfl
  rw [physicalLines, hmark, byteLength_cons, Nat.add_sub_cancel_right]
  rfl

/-- The document of the text with the mark. -/
lemma parse_mark_cons {text : List Char} (h : text.head? ≠ some byteOrderMark) :
    Document.parse (byteOrderMark :: text) = (Document.parse text).mapSpans (· + 3) := by
  rw [parse_eq_ofPieces_physicalLines, physicalLines_mark_cons, pieces_physicalLines_of_no_mark h,
    ofPieces_map_mapSpan, parse_eq_ofPieces_physicalLines]

/-- **A byte order mark moves offsets and nothing else.**  Put a mark in front of a text that has
none.  The document is the same with all spans moved by the three bytes of the mark, and so are the
diagnostics.  Each diagnostic keeps its line and column, although an offset on the first line has
its column moved by one. -/
theorem byte_order_mark_moves_spans (text : List Char) (h : text.head? ≠ some byteOrderMark) :
    Document.parse (byteOrderMark :: text) = (Document.parse text).mapSpans (· + 3) ∧
    (∀ registry : Registry,
      registry.validate (Document.parse (byteOrderMark :: text)) =
        (registry.validate (Document.parse text)).map (Diagnostic.mapSpan (· + 3)) ∧
      ∀ diagnostic ∈ registry.validate (Document.parse text), ∃ position,
        (LineIndex.ofText text).position? diagnostic.span.start = some position ∧
          (LineIndex.ofText (byteOrderMark :: text)).position? (diagnostic.span.start + 3) =
            some position) ∧
    ∀ before after, text = before ++ after → '\n' ∉ before →
      (LineIndex.ofText text).position? (byteLength before) = some ⟨1, before.length + 1⟩ ∧
        (LineIndex.ofText (byteOrderMark :: text)).position? (byteLength before + 3) =
          some ⟨1, before.length + 2⟩ := by
  have hparse := parse_mark_cons h
  refine ⟨hparse, fun registry => ⟨?_, fun diagnostic hdiagnostic => ?_⟩, ?_⟩
  · rw [hparse, registry.validate_mapSpans]
  · obtain ⟨before, after, rfl, hstart, hnewline⟩ := exists_newline_before_diagnostic hdiagnostic
    rw [← hstart]
    refine ⟨.after before, LineIndex.position?_append before after, ?_⟩
    rw [position?_mark_cons, Position.after_cons_of_newline_mem (by decide) hnewline]
  · rintro before after rfl hnewline
    have hplain : Position.after ([] ++ before) = ⟨1, 1 + before.length⟩ :=
      Position.after_append [] hnewline
    have hmarked : Position.after ([byteOrderMark] ++ before) = ⟨1, 2 + before.length⟩ :=
      Position.after_append [byteOrderMark] hnewline
    refine ⟨?_, ?_⟩
    · rw [LineIndex.position?_append, Nat.add_comm, ← hplain, List.nil_append]
    · rw [position?_mark_cons, Nat.add_comm, ← hmarked, List.singleton_append]

/-- A text whose second line is flagged behind an indentation.  The header on the first line is at
column 2 without the mark. -/
theorem byte_order_mark_moves_spans_indented :
    " [A]\n é=1".toList.head? ≠ some byteOrderMark ∧
    (Registry.empty.extendSection "A" []).validate (Document.parse " [A]\n é=1".toList) =
      [.unrecognized ⟨6, 8⟩] ∧
    (Registry.empty.extendSection "A" []).validate (Document.parse "\uFEFF [A]\n é=1".toList) =
      [.unrecognized ⟨9, 11⟩] ∧
    (LineIndex.ofText " [A]\n é=1".toList).position? 1 = some ⟨1, 2⟩ ∧
    (LineIndex.ofText "\uFEFF [A]\n é=1".toList).position? 4 = some ⟨1, 3⟩ := by
  have hmark : " [A]\n é=1".toList.head? ≠ some byteOrderMark := by decide
  have htext : "\uFEFF [A]\n é=1".toList = byteOrderMark :: " [A]\n é=1".toList := by decide
  have hflagged : (Registry.empty.extendSection "A" []).validate
      (Document.parse " [A]\n é=1".toList) = [.unrecognized ⟨6, 8⟩] := by
    decide
  obtain ⟨-, hvalidate, hfirst⟩ := byte_order_mark_moves_spans " [A]\n é=1".toList hmark
  obtain ⟨hplain, hmarked⟩ := hfirst [' '] "[A]\n é=1".toList (by decide) (by decide)
  have hmoved := (hvalidate (Registry.empty.extendSection "A" [])).1
  rw [hflagged] at hmoved
  rw [htext]
  exact ⟨hmark, hflagged, hmoved, hplain, hmarked⟩

end UnitCheck
