/-
Texts that are put together.

The reader carries one thing from a line to the next: whether the value is continued.  So what it
reads behind a line feed depends on the text before only through `asksAfter` (`pieces_append`).  A
blank line ends every continuation, and a header closes the section before it.  Hence two texts with
a blank line between them are read and judged as if each stood alone, if the second one begins with
a header.
-/
import UnitCheck.Proofs.Document.Moved

namespace UnitCheck

/-! ### Reading on -/

/-- Does the last of the lines ask to be continued, given whether the line before the first one
did? -/
def asksAfter (continued : Bool) : List Line → Bool
  | [] => continued
  | line :: lines => asksAfter (readLine continued line).2 lines

lemma asksAfter_append (continued : Bool) (a b : List Line) :
    asksAfter continued (a ++ b) = asksAfter (asksAfter continued a) b := by
  induction a generalizing continued with
  | nil => rfl
  | cons line a ih => rw [List.cons_append, asksAfter, ih, asksAfter]

/-- The reader takes a line for part of a continuation if and only if the line is swallowed. -/
lemma asksAfter_take_iff_swallowed {lines : List Line} {k : Nat} (hk : k ≤ lines.length) :
    asksAfter false (lines.take k) = true ↔ Swallowed lines k := by
  induction k with
  | zero => simp [asksAfter, not_swallowed_zero]
  | succ k ih =>
    have hline : lines[k]? = some lines[k] := List.getElem?_eq_getElem hk
    rw [List.take_add_one, hline, Option.toList_some, asksAfter_append]
    exact readLine_snd_iff_swallowed hline (ih (by omega))

lemma pieces_append (continued : Bool) (a b : List Line) :
    pieces continued (a ++ b) = pieces continued a ++ pieces (asksAfter continued a) b := by
  induction a generalizing continued with
  | nil => rfl
  | cons line a ih =>
    rw [List.cons_append, pieces_cons, ih, pieces_cons, asksAfter, List.append_assoc]

lemma readLine_empty_snd (continued : Bool) (offset : Nat) :
    (readLine continued ⟨offset, []⟩).2 = false := by
  cases continued <;> rfl

lemma pieces_empty_line (continued : Bool) (offset : Nat) :
    ∀ piece ∈ pieces continued [⟨offset, []⟩], piece = .segment [] := by
  cases continued with
  | true =>
    intro piece hpiece
    exact List.mem_singleton.1 hpiece
  | false => exact fun piece hpiece => absurd hpiece List.not_mem_nil

lemma physicalLines_concat_newline (text : List Char) :
    physicalLines (text ++ ['\n']) = physicalLines text ++ [⟨byteLength text + 1, []⟩] :=
  physicalLines_append_newline text []

/-- A line feed at the end of a text makes no difference. -/
lemma parse_concat_newline (text : List Char) :
    Document.parse (text ++ ['\n']) = Document.parse text := by
  rw [parse_eq_ofPieces_physicalLines, physicalLines_concat_newline, pieces_append,
    ofPieces_append_empty _ (pieces_empty_line _ _), parse_eq_ofPieces_physicalLines]

/-- Behind an empty line, no value is continued. -/
lemma asksAfter_concat_newline (text : List Char) :
    asksAfter false (physicalLines (text ++ ['\n'])) = false := by
  rw [physicalLines_concat_newline, asksAfter_append]
  exact readLine_empty_snd _ _

/-! ### Sections behind -/

/-- Sections behind all pieces are left alone. -/
lemma foldr_cons_sections (ps : List Piece) (sections : List Section) :
    ps.foldr Gathered.cons { sections := sections } =
      { ps.foldr Gathered.cons {} with
        sections := (ps.foldr Gathered.cons {}).sections ++ sections } := by
  induction ps with
  | nil => rfl
  | cons piece ps ih =>
    rw [List.foldr_cons, ih, List.foldr_cons]
    cases piece with
    | header name span => rfl
    | entry key span segment => rfl
    | segment text => rfl

/-- A line that is blank or a comment. -/
def IsIdleLine (text : List Char) : Prop :=
  trim text = [] ∨ IsCommentLine text

instance (text : List Char) : Decidable (IsIdleLine text) :=
  inferInstanceAs (Decidable (_ ∨ _))

/-- The first line that is neither blank nor a comment, if there is one, holds the header of a
section. -/
def BeginsWithHeader (lines : List (List Char)) : Prop :=
  ∀ line, lines.find? (fun line => ¬ IsIdleLine line) = some line → ∃ name, IsHeader line name

lemma readLine_of_idle {text : List Char} (h : IsIdleLine text) (offset : Nat) :
    readLine false ⟨offset, text⟩ = (none, false) := by
  refine readLine_of_neither ⟨offset, text⟩ (fun hentry => ?_) fun name hname => ?_
  · rcases h with h | h
    · exact hentry.not_blank h
    · exact hentry.not_comment h
  · rcases h with h | h
    · exact hname.trim_ne_nil h
    · rw [IsCommentLine, hname.head_trim] at h
      exact absurd h (by decide)

/-- All that is gathered from lines that begin with a header belongs to their own sections. -/
lemma BeginsWithHeader.foldr_cons {texts : List (List Char)} (h : BeginsWithHeader texts)
    (offset : Nat) :
    ∃ sections, (pieces false (placeLines offset texts)).foldr Gathered.cons {} =
      { sections := sections } := by
  induction texts generalizing offset with
  | nil => exact ⟨[], rfl⟩
  | cons text texts ih =>
    rw [placeLines, pieces_cons]
    by_cases hidle : IsIdleLine text
    · have hrest : BeginsWithHeader texts := by
        intro line hline
        refine h line ?_
        rw [List.find?_cons_of_neg (by simpa using hidle), hline]
      rw [readLine_of_idle hidle]
      exact ih hrest _
    · -- the header takes all directives behind it and drops what waits for an entry
      obtain ⟨name, hname⟩ := h text (List.find?_cons_of_pos (by simpa using hidle))
      rw [readLine_of_header ⟨offset, text⟩ hname]
      exact ⟨_, rfl⟩

/-! ### A blank line between two texts -/

/-- The first line behind an empty line belongs to no continuation. -/
lemma not_swallowed_of_empty {lines : List Line} {k : Nat} {line : Line}
    (hk : lines[k]? = some line) (hline : line.text = []) : ¬ Swallowed lines (k + 1) := by
  rw [swallowed_succ_iff hk, hline]
  rintro (⟨-, hentry, -⟩ | ⟨-, hkeeps⟩)
  · exact hentry.not_blank rfl
  · exact absurd hkeeps (by decide)

/-- The lines of two texts with an empty line between them. -/
lemma physicalLines_append_blank (a b : List Char) :
    physicalLines (a ++ '\n' :: '\n' :: b) =
      physicalLines (a ++ ['\n']) ++ placeLines (byteLength a + 2) (b.splitOn '\n') := by
  have hsize : byteLength (a ++ ['\n']) + 1 = byteLength a + 2 := by
    rw [byteLength_append, byteLength_newline_cons, byteLength_nil]
  rw [← hsize, ← physicalLines_append_newline, List.append_assoc, List.singleton_append]

lemma pieces_physicalLines_of_no_mark {text : List Char} (h : text.head? ≠ some byteOrderMark)
    (continued : Bool) (n : Nat) :
    pieces continued (placeLines n (text.splitOn '\n')) =
      (pieces continued (physicalLines text)).map (Piece.mapSpan (· + n)) := by
  rw [physicalLines, withoutMark, if_neg h, Nat.sub_self, ← pieces_placeLines_add, Nat.zero_add]

/-- The sections of two texts with an empty line between them. -/
lemma sections_parse_append_blank (a : List Char) {b : List Char}
    (hmark : b.head? ≠ some byteOrderMark) (hheader : BeginsWithHeader (b.splitOn '\n')) :
    (Document.parse (a ++ '\n' :: '\n' :: b)).sections =
      (Document.parse a).sections ++
        ((Document.parse b).mapSpans (· + (byteLength a + 2))).sections := by
  obtain ⟨sections, hsections⟩ := hheader.foldr_cons (byteLength a + 2)
  have hbehind : ((Document.parse b).mapSpans (· + (byteLength a + 2))).sections = sections := by
    rw [parse_eq_ofPieces_physicalLines b, ← ofPieces_map_mapSpan,
      ← pieces_physicalLines_of_no_mark hmark, Document.ofPieces, hsections]
  rw [hbehind, parse_eq_ofPieces_physicalLines, physicalLines_append_blank, pieces_append,
    asksAfter_concat_newline, Document.ofPieces, List.foldr_append, hsections, foldr_cons_sections,
    ← parse_concat_newline a, parse_eq_ofPieces_physicalLines (a ++ ['\n']), Document.ofPieces]

/-- **Texts with a blank line between them are read independently.**  If the second text begins with
a section header and not with a byte order mark, the sections of both together are those of the
first, followed by those of the second with all spans moved behind the first, and so are the
diagnostics.  The blank line ends every continuation: the first line of the second text is never
part of one. -/
theorem parse_append_blank_line (a b : List Char) (hmark : b.head? ≠ some byteOrderMark)
    (hheader : BeginsWithHeader (b.splitOn '\n')) :
    (Document.parse (a ++ '\n' :: '\n' :: b)).sections =
      (Document.parse a).sections ++
        (Document.parse b).sections.map (Section.mapSpans (· + (byteLength a + 2))) ∧
    (∀ registry : Registry, registry.validate (Document.parse (a ++ '\n' :: '\n' :: b)) =
      registry.validate (Document.parse a) ++
        (registry.validate (Document.parse b)).map
          (Diagnostic.mapSpan (· + (byteLength a + 2)))) ∧
    ¬ Swallowed (physicalLines (a ++ '\n' :: '\n' :: b)) ((physicalLines a).length + 1) := by
  have hsections := sections_parse_append_blank a hmark hheader
  refine ⟨hsections, fun registry => ?_, ?_⟩
  · rw [Registry.validate, hsections, List.flatMap_append, ← Registry.validate_mapSpans]
    rfl
  · have hblank : (physicalLines (a ++ '\n' :: '\n' :: b))[(physicalLines a).length]?
        = some ⟨byteLength a + 1, []⟩ := by
      rw [physicalLines_append_blank, physicalLines_concat_newline, List.append_assoc,
        List.getElem?_append_right (le_refl _), Nat.sub_self]
      rfl
    exact not_swallowed_of_empty hblank rfl

/-- A text that ends in the middle of a value, and one with a comment in front of its header. -/
theorem parse_append_blank_line_continued :
    "# c\n[B]\nx=1".toList.head? ≠ some byteOrderMark ∧
    BeginsWithHeader ("# c\n[B]\nx=1".toList.splitOn '\n') ∧
    (Document.parse ("[A]\nk=v\\".toList ++ '\n' :: '\n' :: "# c\n[B]\nx=1".toList)).sections =
      (Document.parse "[A]\nk=v\\".toList).sections ++
        (Document.parse "# c\n[B]\nx=1".toList).sections.map (Section.mapSpans (· + 10)) := by
  have hmark : "# c\n[B]\nx=1".toList.head? ≠ some byteOrderMark := by decide
  have hheader : BeginsWithHeader ("# c\n[B]\nx=1".toList.splitOn '\n') := by
    intro line hline
    have hfirst : ("# c\n[B]\nx=1".toList.splitOn '\n').find? (fun line => ¬ IsIdleLine line)
        = some "[B]".toList := by
      decide
    obtain rfl : "[B]".toList = line := Option.some.inj (hfirst.symm.trans hline)
    exact ⟨"B".toList, by decide, by decide, by decide, by decide⟩
  exact ⟨hmark, hheader, (parse_append_blank_line "[A]\nk=v\\".toList _ hmark hheader).1⟩

end UnitCheck
