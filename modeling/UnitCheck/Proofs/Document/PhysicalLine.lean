/-
The physical lines of a text.

The reader cuts a text behind its line feeds and drops the line ends.  Here the text is cut at
the line feeds, and each line keeps all its characters, carriage returns included.  Both ways
give the same document (`parse_eq_ofPieces_physicalLines`): the carriage returns are blank, and
the empty line behind a last line feed contributes nothing.

A physical line stands in the text at its offset, and behind it comes a line feed unless it is
the last one (`physicalLines_append`, `physicalLines_append_of_lt`).
-/
import UnitCheck.Proofs.Document.LineKind
import UnitCheck.Proofs.Text.Slice

namespace UnitCheck

/-- The text without the byte order mark that may stand in front of it. -/
def withoutMark (text : List Char) : List Char :=
  if text.head? = some byteOrderMark then text.tail else text

/-- Consecutive lines with one line feed between each two, the first at the given offset. -/
def placeLines (offset : Nat) : List (List Char) → List Line
  | [] => []
  | text :: rest => ⟨offset, text⟩ :: placeLines (offset + byteLength text + 1) rest

/-- The physical lines of a text: what stands between its line feeds.  A byte order mark in front
belongs to no line. -/
def physicalLines (text : List Char) : List Line :=
  placeLines (byteLength text - byteLength (withoutMark text)) ((withoutMark text).splitOn '\n')

lemma byteLength_newline_cons (text : List Char) :
    byteLength ('\n' :: text) = 1 + byteLength text := rfl

/-! ### The same document -/

lemma chunks_append_newline {line : List Char} (h : '\n' ∉ line) (rest : List Char) :
    chunks (line ++ '\n' :: rest) = (line ++ ['\n']) :: chunks rest := by
  induction line with
  | nil => simp [chunks]
  | cons c line ih =>
    rw [List.mem_cons, not_or] at h
    rw [List.cons_append, chunks, if_neg (Ne.symm h.1), ih h.2]
    rfl

lemma chunks_of_newline_not_mem {line : List Char} (h : '\n' ∉ line) (hne : line ≠ []) :
    chunks line = [line] := by
  induction line with
  | nil => exact absurd rfl hne
  | cons c line ih =>
    rw [List.mem_cons, not_or] at h
    rw [chunks, if_neg (Ne.symm h.1)]
    cases line with
    | nil => rfl
    | cons d line => rw [ih h.2 (by simp)]

lemma isBlank_of_isLineEnd {c : Char} (h : isLineEnd c = true) : isBlank c = true := by
  simp only [isLineEnd, Bool.or_eq_true, beq_iff_eq] at h
  rcases h with rfl | rfl
  · decide
  · decide

/-- A line is read in the same way with and without its line end. -/
lemma readLine_dropEndWhile (continued : Bool) (offset : Nat) (text : List Char) :
    readLine continued ⟨offset, dropEndWhile isLineEnd text⟩ = readLine continued ⟨offset, text⟩ := by
  obtain ⟨rest, hrest, heq⟩ := exists_dropEndWhile_append isLineEnd text
  conv_rhs => rw [← heq]
  rw [readLine_append_of_blank fun c hc => isBlank_of_isLineEnd (hrest c hc)]

lemma readLine_dropEndWhile_newline (continued : Bool) (offset : Nat) (text : List Char) :
    readLine continued ⟨offset, dropEndWhile isLineEnd (text ++ ['\n'])⟩
      = readLine continued ⟨offset, text⟩ := by
  rw [readLine_dropEndWhile]
  refine readLine_append_of_blank ?_ continued offset text
  intro c hc
  rw [List.mem_singleton.1 hc]
  decide

/-- The lines cut behind the line feeds contribute what the lines cut at the line feeds do, up to
empty segments at the end. -/
lemma pieces_placeLines (texts : List (List Char)) (hne : texts ≠ [])
    (htexts : ∀ text ∈ texts, '\n' ∉ text) :
    ∀ (continued : Bool) (offset : Nat), ∃ ps, (∀ p ∈ ps, p = .segment []) ∧
      pieces continued (placeLines offset texts)
        = pieces continued (linesFrom offset (chunks (['\n'].intercalate texts))) ++ ps := by
  induction texts with
  | nil => exact absurd rfl hne
  | cons text texts ih =>
    intro continued offset
    have htext : '\n' ∉ text := htexts text (by simp)
    cases texts with
    | nil =>
      rw [List.intercalate_singleton]
      by_cases hnil : text = []
      · -- an empty last line exists only for the cut at the line feeds
        subst hnil
        cases continued with
        | true => exact ⟨[.segment []], by simp, rfl⟩
        | false => exact ⟨[], by simp, rfl⟩
      · refine ⟨[], by simp, ?_⟩
        rw [chunks_of_newline_not_mem htext hnil]
        simp only [linesFrom, placeLines, pieces, readLine_dropEndWhile, List.append_nil]
    | cons text' texts =>
      have hcut : ['\n'].intercalate (text :: text' :: texts)
          = text ++ '\n' :: ['\n'].intercalate (text' :: texts) := by
        simp [List.intercalate_cons_cons]
      have hsize : byteLength (text ++ ['\n']) = byteLength text + 1 := by
        rw [byteLength_append, byteLength_newline_cons, byteLength_nil]
      obtain ⟨ps, hps, heq⟩ := ih (by simp) (fun t ht => htexts t (by simp [ht]))
        (readLine continued ⟨offset, text⟩).2 (offset + byteLength text + 1)
      refine ⟨ps, hps, ?_⟩
      rw [hcut, chunks_append_newline htext, placeLines, pieces_cons, heq, linesFrom, pieces_cons,
        hsize, readLine_dropEndWhile_newline, ← Nat.add_assoc, List.append_assoc]

lemma joinSegments_singleton (segment : List Char) : joinSegments [segment] = segment := by
  by_cases h : segment = []
  · rw [h]
    rfl
  · simp [joinSegments, h]

lemma joinSegments_append_empty (segments : List (List Char)) {empty : List (List Char)}
    (hempty : ∀ s ∈ empty, s = []) : joinSegments (segments ++ empty) = joinSegments segments := by
  have hnone : empty.filter (· ≠ []) = [] := by simpa using hempty
  simp only [joinSegments, List.filter_append, hnone, List.append_nil]

lemma exists_foldr_cons_empty {empty : List Piece} (hempty : ∀ p ∈ empty, p = .segment []) :
    ∃ segments : List (List Char), (∀ s ∈ segments, s = []) ∧
      empty.foldr Gathered.cons {} = { segments := segments } := by
  induction empty with
  | nil => exact ⟨[], by simp, rfl⟩
  | cons p empty ih =>
    obtain ⟨segments, hsegments, heq⟩ := ih fun q hq => hempty q (by simp [hq])
    refine ⟨[] :: segments, by simpa using hsegments, ?_⟩
    rw [List.foldr_cons, heq, hempty p (by simp)]
    rfl

/-- With empty segments at the end, the reader gathers the same, but for empty segments that still
wait for their entry. -/
lemma exists_foldr_cons_append_empty (ps : List Piece) {empty : List Piece}
    (hempty : ∀ p ∈ empty, p = .segment []) :
    ∃ segments : List (List Char), (∀ s ∈ segments, s = []) ∧
      (ps ++ empty).foldr Gathered.cons {} =
        { ps.foldr Gathered.cons {} with
          segments := (ps.foldr Gathered.cons {}).segments ++ segments } := by
  induction ps with
  | nil => exact exists_foldr_cons_empty hempty
  | cons p ps ih =>
    obtain ⟨segments, hsegments, heq⟩ := ih
    rw [List.cons_append, List.foldr_cons, heq, List.foldr_cons]
    cases p with
    | header name span => exact ⟨[], by simp, rfl⟩
    | entry key span segment =>
      -- the entry takes all that waits, and the empty segments do not show in its value
      refine ⟨[], by simp, ?_⟩
      simp only [Gathered.cons, ← List.cons_append, joinSegments_append_empty _ hsegments,
        List.append_nil]
    | segment text => exact ⟨segments, hsegments, rfl⟩

/-- Empty segments at the end add nothing to a document. -/
lemma ofPieces_append_empty (ps : List Piece) {empty : List Piece}
    (hempty : ∀ p ∈ empty, p = .segment []) :
    Document.ofPieces (ps ++ empty) = Document.ofPieces ps := by
  obtain ⟨segments, -, heq⟩ := exists_foldr_cons_append_empty ps hempty
  rw [Document.ofPieces, heq, Document.ofPieces]

/-- A text is its byte order mark, if any, and the rest. -/
lemma exists_mark_append (text : List Char) :
    ∃ mark, text = mark ++ withoutMark text ∧
      byteLength mark = byteLength text - byteLength (withoutMark text) := by
  have hsplit : ∃ mark, text = mark ++ withoutMark text := by
    unfold withoutMark
    split
    · rename_i h
      obtain ⟨rest, rfl⟩ := List.head?_eq_some_iff.1 h
      exact ⟨[byteOrderMark], rfl⟩
    · exact ⟨[], rfl⟩
  obtain ⟨mark, hmark⟩ := hsplit
  refine ⟨mark, hmark, ?_⟩
  have hlength := congrArg byteLength hmark
  rw [byteLength_append] at hlength
  omega

lemma linesOf_eq_linesFrom (text : List Char) :
    linesOf text =
      linesFrom (byteLength text - byteLength (withoutMark text)) (chunks (withoutMark text)) := by
  cases text with
  | nil => rfl
  | cons c text =>
    rw [linesOf, withoutMark]
    by_cases hc : c = byteOrderMark
    · simp [hc]
    · simp [hc]

/-- **Reading by physical lines.**  The document of a text is that of its physical lines. -/
lemma parse_eq_ofPieces_physicalLines (text : List Char) :
    Document.parse text = .ofPieces (pieces false (physicalLines text)) := by
  obtain ⟨ps, hps, heq⟩ := pieces_placeLines ((withoutMark text).splitOn '\n')
    (List.splitOn_ne_nil _ _) (fun _ h => not_mem_of_mem_splitOn h) false
    (byteLength text - byteLength (withoutMark text))
  rw [Document.parse, linesOf_eq_linesFrom, physicalLines, heq, List.intercalate_splitOn,
    ofPieces_append_empty _ hps]

/-! ### Where the lines stand -/

lemma text_mem_of_mem_placeLines {offset : Nat} {texts : List (List Char)} {line : Line}
    (h : line ∈ placeLines offset texts) : line.text ∈ texts := by
  induction texts generalizing offset with
  | nil => exact absurd h (by simp [placeLines])
  | cons text texts ih =>
    rcases List.mem_cons.1 h with rfl | h
    · exact List.mem_cons_self
    · exact List.mem_cons_of_mem _ (ih h)

/-- A physical line holds no line feed. -/
lemma newline_not_mem_of_mem_physicalLines {text : List Char} {line : Line}
    (h : line ∈ physicalLines text) : '\n' ∉ line.text :=
  not_mem_of_mem_splitOn (text_mem_of_mem_placeLines h)

lemma intercalate_eq_append (text : List Char) (texts : List (List Char)) :
    ∃ rest, ['\n'].intercalate (text :: texts) = text ++ rest ∧
      (texts ≠ [] → rest = '\n' :: ['\n'].intercalate texts) := by
  cases texts with
  | nil => exact ⟨[], by simp, fun h => absurd rfl h⟩
  | cons text' texts =>
    exact ⟨'\n' :: ['\n'].intercalate (text' :: texts), by simp [List.intercalate_cons_cons],
      fun _ => rfl⟩

lemma placeLines_append {offset i : Nat} {texts : List (List Char)} {line : Line}
    (h : (placeLines offset texts)[i]? = some line) :
    ∃ before after, ['\n'].intercalate texts = before ++ (line.text ++ after) ∧
      line.offset = offset + byteLength before := by
  induction texts generalizing offset i with
  | nil => simp [placeLines] at h
  | cons text texts ih =>
    obtain ⟨rest, hrest, hcons⟩ := intercalate_eq_append text texts
    cases i with
    | zero =>
      obtain rfl : (⟨offset, text⟩ : Line) = line := by simpa [placeLines] using h
      exact ⟨[], rest, by simpa using hrest, by simp⟩
    | succ i =>
      have hi : (placeLines (offset + byteLength text + 1) texts)[i]? = some line := h
      obtain ⟨before, after, heq, hoffset⟩ := ih hi
      have hne : texts ≠ [] := by
        rintro rfl
        simp [placeLines] at hi
      refine ⟨text ++ '\n' :: before, after, ?_, ?_⟩
      · rw [hrest, hcons hne, heq]
        simp
      · rw [hoffset, byteLength_append, byteLength_newline_cons]
        omega

lemma placeLines_append_of_lt {offset i j : Nat} {texts : List (List Char)} {a b : Line}
    (hij : i < j) (hi : (placeLines offset texts)[i]? = some a)
    (hj : (placeLines offset texts)[j]? = some b) :
    ∃ before between after,
      ['\n'].intercalate texts = before ++ (a.text ++ '\n' :: (between ++ (b.text ++ after))) ∧
      a.offset = offset + byteLength before ∧
      b.offset = a.offset + byteLength a.text + 1 + byteLength between := by
  induction texts generalizing offset i j with
  | nil => simp [placeLines] at hi
  | cons text texts ih =>
    obtain ⟨j, rfl⟩ : ∃ j', j = j' + 1 := ⟨j - 1, by omega⟩
    have hj' : (placeLines (offset + byteLength text + 1) texts)[j]? = some b := hj
    have hne : texts ≠ [] := by
      rintro rfl
      simp [placeLines] at hj'
    obtain ⟨rest, hrest, hcons⟩ := intercalate_eq_append text texts
    cases i with
    | zero =>
      obtain rfl : (⟨offset, text⟩ : Line) = a := by simpa [placeLines] using hi
      obtain ⟨between, after, heq, hoffset⟩ := placeLines_append hj'
      exact ⟨[], between, after, by rw [hrest, hcons hne, heq]; rfl, by simp, hoffset⟩
    | succ i =>
      obtain ⟨before, between, after, heq, hoffset, hoffset'⟩ := ih (by omega) hi hj'
      refine ⟨text ++ '\n' :: before, between, after, ?_, ?_, hoffset'⟩
      · rw [hrest, hcons hne, heq]
        simp
      · rw [hoffset, byteLength_append, byteLength_newline_cons]
        omega

/-- A physical line stands in the text at its offset. -/
lemma physicalLines_append {text : List Char} {i : Nat} {line : Line}
    (h : (physicalLines text)[i]? = some line) :
    ∃ before after, text = before ++ (line.text ++ after) ∧ byteLength before = line.offset := by
  obtain ⟨mark, hmark, hsize⟩ := exists_mark_append text
  obtain ⟨before, after, heq, hoffset⟩ := placeLines_append h
  rw [List.intercalate_splitOn] at heq
  refine ⟨mark ++ before, after, ?_, ?_⟩
  · rw [List.append_assoc, ← heq]
    exact hmark
  · rw [byteLength_append, hsize, hoffset]

/-- Between two physical lines there is a line feed, directly behind the first one. -/
lemma physicalLines_append_of_lt {text : List Char} {i j : Nat} {a b : Line} (hij : i < j)
    (hi : (physicalLines text)[i]? = some a) (hj : (physicalLines text)[j]? = some b) :
    ∃ before between after, text = before ++ (a.text ++ '\n' :: (between ++ (b.text ++ after))) ∧
      byteLength before = a.offset ∧
      b.offset = a.offset + byteLength a.text + 1 + byteLength between := by
  obtain ⟨mark, hmark, hsize⟩ := exists_mark_append text
  obtain ⟨before, between, after, heq, hoffset, hoffset'⟩ := placeLines_append_of_lt hij hi hj
  rw [List.intercalate_splitOn] at heq
  refine ⟨mark ++ before, between, after, ?_, ?_, hoffset'⟩
  · rw [List.append_assoc, ← heq]
    exact hmark
  · rw [byteLength_append, hsize, hoffset]

/-! ### The lines of a text that goes on behind a line feed -/

lemma withoutMark_append_newline (a b : List Char) :
    withoutMark (a ++ '\n' :: b) = withoutMark a ++ '\n' :: b := by
  cases a with
  | nil => rfl
  | cons c a =>
    unfold withoutMark
    by_cases hc : c = byteOrderMark
    · simp [hc]
    · simp [hc]

lemma placeLines_append_placeLines (offset : Nat) (a b : List (List Char)) :
    placeLines offset (a ++ b) = placeLines offset a ++
      placeLines (offset + byteLength (a.flatMap (· ++ ['\n']))) b := by
  induction a generalizing offset with
  | nil => simp [placeLines]
  | cons text a ih =>
    have hsize : byteLength ((text :: a).flatMap (· ++ ['\n']))
        = byteLength text + 1 + byteLength (a.flatMap (· ++ ['\n'])) := by
      simp only [List.flatMap_cons, byteLength_append, byteLength_newline_cons, byteLength_nil]
    rw [List.cons_append, placeLines, ih, placeLines, List.cons_append, hsize, ← Nat.add_assoc,
      ← Nat.add_assoc]

/-- The lines of a text, each with a line feed behind it, make up the text and one more line
feed. -/
lemma flatMap_splitOn_newline (text : List Char) :
    (text.splitOn '\n').flatMap (· ++ ['\n']) = text ++ ['\n'] := by
  induction text with
  | nil => rfl
  | cons c text ih =>
    rw [List.splitOn_cons_eq_if_modifyHead]
    split
    · rename_i hc
      rw [beq_iff_eq.1 hc, List.flatMap_cons, ih]
      rfl
    · obtain ⟨first, rest, hsplit⟩ := List.exists_cons_of_ne_nil (List.splitOn_ne_nil '\n' text)
      rw [hsplit] at ih ⊢
      simp only [List.flatMap_cons, List.modifyHead_cons, List.cons_append] at ih ⊢
      rw [ih]

/-- Behind a line feed, the lines go on as those of a text that begins there. -/
lemma physicalLines_append_newline (a b : List Char) :
    physicalLines (a ++ '\n' :: b) =
      physicalLines a ++ placeLines (byteLength a + 1) (b.splitOn '\n') := by
  obtain ⟨mark, hmark, hsize⟩ := exists_mark_append a
  have hlength := congrArg byteLength hmark
  rw [byteLength_append] at hlength
  have hoffset : byteLength (a ++ '\n' :: b) - byteLength (withoutMark a ++ '\n' :: b)
      = byteLength a - byteLength (withoutMark a) := by
    simp only [byteLength_append]
    omega
  have hbehind : byteLength a - byteLength (withoutMark a)
      + byteLength (((withoutMark a).splitOn '\n').flatMap (· ++ ['\n'])) = byteLength a + 1 := by
    rw [flatMap_splitOn_newline, byteLength_append, byteLength_newline_cons, byteLength_nil]
    omega
  rw [physicalLines, withoutMark_append_newline, hoffset, List.splitOn_append_cons_self,
    placeLines_append_placeLines, hbehind, physicalLines]

/-- A line begins between the two parts of a text: at the front of a text without a mark, behind the
mark, or behind a line feed. -/
def AtLineStart (before after : List Char) : Prop :=
  (before = [] ∧ after.head? ≠ some byteOrderMark) ∨ before = [byteOrderMark] ∨
    before.getLast? = some '\n'

/-- The first line begins behind the mark. -/
lemma atLineStart_of_eq_withoutMark {before after : List Char}
    (h : after = withoutMark (before ++ after)) : AtLineStart before after := by
  rw [withoutMark] at h
  split at h
  · rename_i hhead
    obtain ⟨text, htext⟩ := List.head?_eq_some_iff.1 hhead
    rw [htext, List.tail_cons] at h
    have hsplit : before ++ after = [byteOrderMark] ++ after := by
      rw [htext, ← h]
      rfl
    exact Or.inr (Or.inl (List.append_cancel_right hsplit))
  · rename_i hhead
    have hnil : before = [] := List.append_left_eq_self.1 h.symm
    rw [hnil] at hhead
    exact Or.inl ⟨hnil, hhead⟩

/-- The lines before the start of a line, and behind them those of whatever else comes there. -/
lemma AtLineStart.exists_lines {before after : List Char} (h : AtLineStart before after) :
    ∃ lines, (∀ line ∈ lines, line.offset + byteLength line.text < byteLength before) ∧
      ∀ rest, (rest.head? = some byteOrderMark → after.head? = some byteOrderMark) →
        physicalLines (before ++ rest) =
          lines ++ placeLines (byteLength before) (rest.splitOn '\n') := by
  rcases h with ⟨rfl, hafter⟩ | rfl | hlast
  · refine ⟨[], by simp, fun rest hrest => ?_⟩
    rw [List.nil_append, physicalLines, withoutMark, if_neg fun hmark => hafter (hrest hmark),
      Nat.sub_self]
    rfl
  · refine ⟨[], by simp, fun rest _ => ?_⟩
    have hmark : withoutMark ([byteOrderMark] ++ rest) = rest := rfl
    rw [physicalLines, hmark, byteLength_append, Nat.add_sub_cancel_right]
    rfl
  · obtain ⟨front, rfl⟩ := List.getLast?_eq_some_iff.1 hlast
    have hsize : byteLength (front ++ ['\n']) = byteLength front + 1 := by
      rw [byteLength_append, byteLength_newline_cons, byteLength_nil]
    refine ⟨physicalLines front, fun line hline => ?_, fun rest _ => ?_⟩
    · obtain ⟨i, hi⟩ := List.getElem?_of_mem hline
      obtain ⟨mark, behind, hfront, hoffset⟩ := physicalLines_append hi
      have hlength := congrArg byteLength hfront
      simp only [byteLength_append] at hlength
      omega
    · rw [List.append_assoc, List.singleton_append, physicalLines_append_newline, hsize]

lemma length_placeLines (offset : Nat) (texts : List (List Char)) :
    (placeLines offset texts).length = texts.length := by
  induction texts generalizing offset with
  | nil => rfl
  | cons text texts ih => rw [placeLines, List.length_cons, ih, List.length_cons]

lemma length_splitOn_newline (text : List Char) :
    (text.splitOn '\n').length = text.count '\n' + 1 := by
  induction text with
  | nil => rfl
  | cons c text ih =>
    rw [List.splitOn_cons_eq_if_modifyHead]
    split
    · rename_i hc
      rw [beq_iff_eq.1 hc, List.length_cons, ih, List.count_cons_self]
    · rename_i hc
      rw [List.length_modifyHead, ih, List.count_cons_of_ne (by simpa using hc)]

lemma count_withoutMark (text : List Char) : (withoutMark text).count '\n' = text.count '\n' := by
  unfold withoutMark
  split
  · rename_i h
    obtain ⟨rest, rfl⟩ := List.head?_eq_some_iff.1 h
    rw [List.tail_cons, List.count_cons_of_ne (by decide)]
  · rfl

/-- There is one line more than there are line feeds. -/
lemma length_physicalLines (text : List Char) :
    (physicalLines text).length = text.count '\n' + 1 := by
  rw [physicalLines, length_placeLines, length_splitOn_newline, count_withoutMark]

lemma exists_append_newline_of_lt_count {text : List Char} {i : Nat} (h : i < text.count '\n') :
    ∃ before after, text = before ++ '\n' :: after ∧ before.count '\n' = i := by
  induction text generalizing i with
  | nil => exact absurd h (by simp)
  | cons c text ih =>
    by_cases hc : c = '\n'
    · subst hc
      rw [List.count_cons_self] at h
      cases i with
      | zero => exact ⟨[], text, rfl, rfl⟩
      | succ i =>
        obtain ⟨before, after, rfl, hcount⟩ := ih (i := i) (by omega)
        exact ⟨'\n' :: before, after, rfl, by rw [List.count_cons_self, hcount]⟩
    · rw [List.count_cons_of_ne hc] at h
      obtain ⟨before, after, rfl, hcount⟩ := ih h
      exact ⟨c :: before, after, rfl, by rw [List.count_cons_of_ne hc, hcount]⟩

/-- A physical line that is not the first is the piece of its number between the line feeds, and
it stands directly behind the line feed of that number. -/
lemma physicalLines_of_pos {text : List Char} {number : Nat} {line : Line} (hpos : 0 < number)
    (h : (physicalLines text)[number]? = some line) :
    (text.splitOn '\n')[number]? = some line.text ∧
      ∃ before after, text = before ++ '\n' :: (line.text ++ after) ∧
        line.offset = byteLength before + 1 ∧ before.count '\n' + 1 = number := by
  obtain ⟨i, rfl⟩ := Nat.exists_eq_add_one_of_ne_zero (Nat.pos_iff_ne_zero.1 hpos)
  have hlt := (List.getElem?_eq_some_iff.1 h).1
  rw [length_physicalLines] at hlt
  obtain ⟨before, behind, rfl, hcount⟩ :=
    exists_append_newline_of_lt_count (Nat.succ_lt_succ_iff.1 hlt)
  have hlines : (physicalLines before).length = i + 1 := by rw [length_physicalLines, hcount]
  have hpieces : (before.splitOn '\n').length = i + 1 := by rw [length_splitOn_newline, hcount]
  obtain ⟨first, rest, hfirst⟩ := List.exists_cons_of_ne_nil (List.splitOn_ne_nil '\n' behind)
  rw [physicalLines_append_newline, List.getElem?_append_right hlines.le, hlines, Nat.sub_self,
    hfirst] at h
  obtain rfl : (⟨byteLength before + 1, first⟩ : Line) = line := Option.some.inj h
  obtain ⟨after, hafter, -⟩ := intercalate_eq_append first rest
  rw [← hfirst, List.intercalate_splitOn] at hafter
  refine ⟨?_, before, after, by rw [← hafter], rfl, by rw [hcount]⟩
  rw [List.splitOn_append_cons_self, List.getElem?_append_right hpieces.le, hpieces, Nat.sub_self,
    hfirst]
  rfl

lemma number_eq_of_offset_eq {text : List Char} {i j : Nat} {a b : Line}
    (hi : (physicalLines text)[i]? = some a) (hj : (physicalLines text)[j]? = some b)
    (h : a.offset = b.offset) : i = j := by
  rcases Nat.lt_trichotomy i j with hij | hij | hij
  · obtain ⟨-, between, -, -, -, hoffset⟩ := physicalLines_append_of_lt hij hi hj
    omega
  · exact hij
  · obtain ⟨-, between, -, -, -, hoffset⟩ := physicalLines_append_of_lt hij hj hi
    omega

end UnitCheck
