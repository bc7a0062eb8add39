/-
Comments between lines.

A comment contributes nothing and leaves open whether a value is continued, so a line of the reader
can have a comment put in front of it wherever it stands.  What comes behind the comment is read as
before, further on in the text.
-/
import Mathlib.Data.List.Forall2
import UnitCheck.Proofs.Document.Append
import UnitCheck.Proofs.Document.Chunks
import UnitCheck.Proofs.Document.Values

namespace UnitCheck

/-- The text is a comment on a line of its own, with the line feed at the end: after blank characters
comes a number sign or a semicolon and then anything. -/
def IsCommentText (text : List Char) : Prop :=
  ∃ indent mark body, text = indent ++ mark :: (body ++ ['\n']) ∧
    (∀ c ∈ indent, isBlank c = true ∧ c ≠ '\n') ∧ (mark = '#' ∨ mark = ';') ∧ '\n' ∉ body

/-- A line of the reader begins between the two parts of a text, or the text ends there and the next
line would. -/
def BeginsLine (before after : List Char) : Prop :=
  (∃ line ∈ linesOf (before ++ after), line.offset = byteLength before) ∨
    (after = [] ∧ (before = [] ∨ before = [byteOrderMark] ∨ before.getLast? = some '\n'))

/-- The offset in a text into which so many bytes are put at a place. -/
def movedBehind (place bytes offset : Nat) : Nat :=
  if offset < place then offset else offset + bytes

/-! ### The comment -/

lemma isCommentLine_of_indented {indent body : List Char} {mark : Char}
    (hindent : ∀ c ∈ indent, isBlank c = true) (hmark : mark = '#' ∨ mark = ';') :
    IsCommentLine (indent ++ mark :: body) := by
  have hblank : isBlank mark = false := by
    rcases hmark with rfl | rfl
    · decide
    · decide
  have hne : trim (indent ++ mark :: body) ≠ [] :=
    trim_ne_nil_iff.2 ⟨mark, by simp, hblank⟩
  have hhead : (trim (indent ++ mark :: body)).head? = some mark := by
    rw [head?_trim hne, trimStart, List.dropWhile_append_of_pos hindent]
    simp [hblank]
  rw [IsCommentLine, hhead]
  exact hmark.imp (congrArg some) (congrArg some)

/-- A comment text is a comment line and a line feed. -/
lemma IsCommentText.exists_line {text : List Char} (h : IsCommentText text) :
    ∃ line, text = line ++ ['\n'] ∧ '\n' ∉ line ∧ IsCommentLine line := by
  obtain ⟨indent, mark, body, rfl, hindent, hmark, hbody⟩ := h
  refine ⟨indent ++ mark :: body, by simp, ?_, ?_⟩
  · intro hmem
    rcases List.mem_append.1 hmem with hmem | hmem
    · exact (hindent _ hmem).2 rfl
    · rcases List.mem_cons.1 hmem with rfl | hmem
      · exact absurd hmark (by decide)
      · exact hbody hmem
  · exact isCommentLine_of_indented (fun c hc => (hindent c hc).1) hmark

/-- A comment line does not begin with a byte order mark, which is not blank. -/
lemma IsCommentLine.head?_append_ne_mark {line : List Char} (h : IsCommentLine line)
    (rest : List Char) : (line ++ rest).head? ≠ some byteOrderMark := by
  cases line with
  | nil => exact absurd h (by decide)
  | cons c line =>
    rw [List.cons_append, List.head?_cons, ne_eq, Option.some_inj]
    rintro rfl
    have hmark : trim [byteOrderMark] = [byteOrderMark] := by decide
    have hhead : (trim (byteOrderMark :: line)).head? = (trim [byteOrderMark]).head? :=
      head?_trim_append (hmark ▸ List.cons_ne_nil _ _) line
    rw [IsCommentLine, hhead, hmark] at h
    exact absurd h (by decide)

lemma readLine_of_comment {line : Line} (h : IsCommentLine line.text) (continued : Bool) :
    readLine continued line = (none, continued) := by
  cases continued with
  | true => exact readLine_continued_of_comment line h
  | false => exact readLine_of_idle (Or.inr h) line.offset

/-- A comment among lines makes no difference to what they contribute. -/
lemma pieces_insert_comment {comment : Line} (h : IsCommentLine comment.text) (continued : Bool)
    (a b : List Line) : pieces continued (a ++ comment :: b) = pieces continued (a ++ b) := by
  rw [pieces_append, pieces_cons, readLine_of_comment h, Option.toList_none, List.nil_append,
    pieces_append]

/-! ### The place of the comment -/

/-- A line begins behind some of the chunks. -/
lemma exists_chunks_before {offset : Nat} {cs : List (List Char)} {line : Line}
    (h : line ∈ linesFrom offset cs) :
    ∃ front chunk rest, cs = front ++ chunk :: rest ∧
      line.offset = offset + byteLength front.flatten := by
  induction cs generalizing offset with
  | nil => exact absurd h (by simp [linesFrom])
  | cons chunk cs ih =>
    rcases List.mem_cons.1 h with rfl | h
    · exact ⟨[], chunk, cs, rfl, by simp⟩
    · obtain ⟨front, next, rest, rfl, hoffset⟩ := ih h
      refine ⟨chunk :: front, next, rest, rfl, ?_⟩
      rw [hoffset, List.flatten_cons, byteLength_append, Nat.add_assoc]

/-- A line begins at the front of the text, behind a byte order mark, or behind a line feed. -/
lemma BeginsLine.atLineStart {before after : List Char} (h : BeginsLine before after) :
    AtLineStart before after := by
  rcases h with ⟨line, hline, hoffset⟩ | ⟨rfl, rfl | h⟩
  · rw [linesOf_eq_linesFrom] at hline
    obtain ⟨mark, hmark, hsize⟩ := exists_mark_append (before ++ after)
    obtain ⟨front, chunk, rest, hchunks, hfront⟩ := exists_chunks_before hline
    have htext : before ++ after = (mark ++ front.flatten) ++ (chunk :: rest).flatten := by
      rw [List.append_assoc, ← List.flatten_append, ← hchunks, flatten_chunks]
      exact hmark
    obtain ⟨hbefore, hafter⟩ := append_inj_of_byteLength htext
      (by rw [byteLength_append, hsize, ← hfront, hoffset])
    rcases List.eq_nil_or_concat front with rfl | ⟨front, last, rfl⟩
    · rw [List.flatten_nil, List.append_nil] at hbefore
      rw [← hbefore] at hmark
      exact atLineStart_of_eq_withoutMark (List.append_cancel_left hmark)
    · -- any other line begins behind the line feed of the line before
      rw [List.concat_eq_append, List.append_assoc] at hchunks
      have hlast := getLast?_of_chunks_append hchunks (List.cons_ne_nil _ _)
      refine Or.inr (Or.inr ?_)
      rw [hbefore, List.concat_eq_append, List.flatten_append, List.flatten_singleton,
        ← List.append_assoc, List.getLast?_append, hlast]
      rfl
  · exact Or.inl ⟨rfl, by simp⟩
  · exact Or.inr h

lemma le_offset_of_mem_placeLines {offset : Nat} {texts : List (List Char)} {line : Line}
    (h : line ∈ placeLines offset texts) : offset ≤ line.offset := by
  obtain ⟨i, hi⟩ := List.getElem?_of_mem h
  obtain ⟨before, -, -, hoffset⟩ := placeLines_append hi
  omega

/-! ### The text with the comment -/

section

variable {before after comment : List Char}

/-- The document of the text with the comment. -/
lemma parse_with_comment (hplace : BeginsLine before after) (hcomment : IsCommentText comment) :
    Document.parse (before ++ (comment ++ after)) =
      (Document.parse (before ++ after)).mapSpans
        (movedBehind (byteLength before) (byteLength comment)) := by
  obtain ⟨lines, hbounds, hlines⟩ := hplace.atLineStart.exists_lines
  obtain ⟨line, rfl, hnewline, hline⟩ := hcomment.exists_line
  have hmark : (line ++ ['\n'] ++ after).head? ≠ some byteOrderMark := by
    rw [List.append_assoc]
    exact hline.head?_append_ne_mark _
  have hsize : byteLength (line ++ ['\n']) = byteLength line + 1 := by
    rw [byteLength_append, byteLength_newline_cons, byteLength_nil]
  have hsplit : (line ++ ['\n'] ++ after).splitOn '\n' = line :: after.splitOn '\n' := by
    rw [List.append_assoc, List.singleton_append]
    exact List.splitOn_append_cons_self_of_not_mem hnewline after
  rw [parse_eq_ofPieces_physicalLines, hlines _ fun h => absurd h hmark, hsplit, placeLines,
    pieces_insert_comment hline, parse_eq_ofPieces_physicalLines, hlines _ id,
    Nat.add_assoc, ← hsize]
  refine ofPieces_of_readAlike (List.rel_append ?_ ?_)
  · -- the lines before the comment stay where they are
    rw [List.forall₂_same]
    intro other hother continued
    refine readLine_moved _ (fun n hn => ?_) continued
    have := hbounds other hother
    exact if_pos (by omega)
  · refine forall₂_placeLines_add (fun n hn => ?_) _ _ (le_refl _)
    exact if_neg (by omega)

/-- A span lies before the place of the comment or behind it. -/
lemma span_before_or_behind (hplace : BeginsLine before after) :
    ∀ span ∈ (Document.parse (before ++ after)).spans,
      span.start ≤ span.stop ∧
        (span.stop < byteLength before ∨ byteLength before ≤ span.start) := by
  obtain ⟨lines, hbounds, hlines⟩ := hplace.atLineStart.exists_lines
  intro span hspan
  obtain ⟨hordered, row, hlies⟩ := exists_liesOn_of_mem_spans hspan
  have hstop := hlies.stop_le
  have hstart := hlies.offset_le
  have hmem := List.mem_of_getElem? hlies.line_eq
  rw [hlines after id] at hmem
  refine ⟨hordered, ?_⟩
  rcases List.mem_append.1 hmem with hmem | hmem
  · have := hbounds row.line hmem
    omega
  · have := le_offset_of_mem_placeLines hmem
    omega

end

/-- **Comments are transparent.**  Let a comment on a line of its own be put where a line of a text
begins.  The document has the same sections, keys and values as before.  A span of the document lies
before that place and is the same, or it lies behind and is moved by the bytes of the comment.  The
diagnostics mark the same keys. -/
theorem parse_insert_comment (before after comment : List Char) (hplace : BeginsLine before after)
    (hcomment : IsCommentText comment) :
    Document.parse (before ++ (comment ++ after)) =
      (Document.parse (before ++ after)).mapSpans
        (movedBehind (byteLength before) (byteLength comment)) ∧
    (∀ span ∈ (Document.parse (before ++ after)).spans,
      (span.stop < byteLength before ∧
        span.map (movedBehind (byteLength before) (byteLength comment)) = span) ∨
      (byteLength before ≤ span.start ∧
        span.map (movedBehind (byteLength before) (byteLength comment)) =
          ⟨span.start + byteLength comment, span.stop + byteLength comment⟩)) ∧
    ∀ registry : Registry,
      ((registry.validate (Document.parse (before ++ (comment ++ after)))).map fun diagnostic =>
          diagnostic.span.slice? (before ++ (comment ++ after))) =
        (registry.validate (Document.parse (before ++ after))).map fun diagnostic =>
          diagnostic.span.slice? (before ++ after) := by
  have hparse := parse_with_comment hplace hcomment
  refine ⟨hparse, fun span hspan => ?_, slices_validate_of_mapSpans hparse⟩
  obtain ⟨hordered, hbefore | hbehind⟩ := span_before_or_behind hplace span hspan
  · refine Or.inl ⟨hbefore, ?_⟩
    rw [Span.map, movedBehind, movedBehind, if_pos (by omega), if_pos hbefore]
  · refine Or.inr ⟨hbehind, ?_⟩
    rw [Span.map, movedBehind, movedBehind, if_neg (by omega), if_neg (by omega)]

/-- A comment that ends in a backslash, between a key and the second line of its value. -/
theorem parse_insert_comment_continued :
    BeginsLine "[A]\r\nk=x\\\n".toList " y\nz=".toList ∧ IsCommentText "\t; c=\\\n".toList ∧
      (Document.parse "[A]\r\nk=x\\\n\t; c=\\\n y\nz=".toList).sections =
        [⟨"A", ⟨0, 3⟩, [⟨"k", ⟨5, 6⟩, "x y"⟩, ⟨"z", ⟨20, 21⟩, ""⟩]⟩] ∧
      Document.parse "[A]\r\nk=x\\\n\t; c=\\\n y\nz=".toList =
        (Document.parse "[A]\r\nk=x\\\n y\nz=".toList).mapSpans (movedBehind 10 7) := by
  have hplace : BeginsLine "[A]\r\nk=x\\\n".toList " y\nz=".toList :=
    Or.inl ⟨⟨10, " y".toList⟩, by decide, by decide⟩
  have hindent : ∀ c ∈ ['\t'], isBlank c = true ∧ c ≠ '\n' := by
    intro c hc
    rw [List.mem_singleton.1 hc]
    decide
  have hcomment : IsCommentText "\t; c=\\\n".toList :=
    ⟨['\t'], ';', " c=\\".toList, by decide, hindent, by decide, by decide⟩
  exact ⟨hplace, hcomment, by decide, (parse_insert_comment _ _ _ hplace hcomment).1⟩

end UnitCheck
