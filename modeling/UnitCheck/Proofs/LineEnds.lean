/-
Both kinds of line ends.

A text whose lines end in line feeds is read like the text in which a carriage return stands before
each of them.  The returns are blank characters at the ends of the lines, so each line contributes the
same, only further on in the text: its offsets are moved by the number of line feeds before it.  Lines
and columns count line feeds and the characters behind the last of them, and these stay the same.
-/
import Mathlib.Data.List.Forall2
import UnitCheck.Output.Basic
import UnitCheck.Proofs.Document.Moved
import UnitCheck.Proofs.Findings

namespace UnitCheck

/-- The text with a carriage return in front of every line feed. -/
def withReturns (text : List Char) : List Char :=
  text.flatMap fun c => if c = '\n' then ['\r', '\n'] else [c]

/-- The lines with a carriage return at the end of each but the last. -/
def endedByReturns : List (List Char) → List (List Char)
  | [] => []
  | [line] => [line]
  | line :: next :: rest => (line ++ ['\r']) :: endedByReturns (next :: rest)

/-- The number of line feeds that begin before an offset. -/
def lineFeedsBefore : List Char → Nat → Nat
  | [], _ => 0
  | c :: text, offset =>
    if offset = 0 then 0
    else (if c = '\n' then 1 else 0) + lineFeedsBefore text (offset - c.utf8Size)

/-- The offset in the text with carriage returns of what stands at an offset in the text without. -/
def movedByReturns (text : List Char) (offset : Nat) : Nat :=
  offset + lineFeedsBefore text offset

/-! ### The text with returns -/

lemma withReturns_append (a b : List Char) :
    withReturns (a ++ b) = withReturns a ++ withReturns b :=
  List.flatMap_append

lemma withReturns_cons_of_ne {c : Char} (h : c ≠ '\n') (text : List Char) :
    withReturns (c :: text) = c :: withReturns text := by
  rw [withReturns, List.flatMap_cons, if_neg h]
  rfl

lemma withReturns_newline_cons (text : List Char) :
    withReturns ('\n' :: text) = '\r' :: '\n' :: withReturns text := rfl

lemma byteLength_withReturns (text : List Char) :
    byteLength (withReturns text) = byteLength text + text.count '\n' := by
  induction text with
  | nil => rfl
  | cons c text ih =>
    by_cases hc : c = '\n'
    · subst hc
      have hsizes : ('\r' : Char).utf8Size = 1 ∧ ('\n' : Char).utf8Size = 1 := ⟨rfl, rfl⟩
      rw [withReturns_newline_cons, byteLength_cons, byteLength_cons, ih, byteLength_cons,
        List.count_cons_self]
      omega
    · rw [withReturns_cons_of_ne hc, byteLength_cons, ih, byteLength_cons, List.count_cons_of_ne hc,
        Nat.add_assoc]

lemma endedByReturns_modifyHead (c : Char) (lines : List (List Char)) :
    endedByReturns (lines.modifyHead (c :: ·)) = (endedByReturns lines).modifyHead (c :: ·) := by
  cases lines with
  | nil => rfl
  | cons line rest =>
    cases rest with
    | nil => rfl
    | cons next rest => rfl

/-- The lines of the text with returns. -/
lemma splitOn_withReturns (text : List Char) :
    (withReturns text).splitOn '\n' = endedByReturns (text.splitOn '\n') := by
  induction text with
  | nil => rfl
  | cons c text ih =>
    rw [List.splitOn_cons_eq_if_modifyHead]
    by_cases hc : c = '\n'
    · subst hc
      obtain ⟨line, rest, hlines⟩ := List.exists_cons_of_ne_nil (List.splitOn_ne_nil '\n' text)
      have hmem : '\n' ∉ ['\r'] := by decide
      have hreturn : ('\r' :: '\n' :: withReturns text).splitOn '\n'
          = ['\r'] :: (withReturns text).splitOn '\n' :=
        List.splitOn_append_cons_self_of_not_mem hmem _
      rw [withReturns_newline_cons, hreturn, ih, hlines]
      rfl
    · rw [withReturns_cons_of_ne hc, List.splitOn_cons_eq_if_modifyHead, if_neg (by simpa using hc),
        if_neg (by simpa using hc), ih, endedByReturns_modifyHead]

lemma withoutMark_withReturns (text : List Char) :
    withoutMark (withReturns text) = withReturns (withoutMark text) := by
  cases text with
  | nil => rfl
  | cons c text =>
    by_cases hc : c = '\n'
    · subst hc
      rfl
    · rw [withReturns_cons_of_ne hc, withoutMark, withoutMark, List.head?_cons, List.head?_cons]
      by_cases hmark : some c = some byteOrderMark
      · rw [if_pos hmark, if_pos hmark, List.tail_cons, List.tail_cons]
      · rw [if_neg hmark, if_neg hmark, withReturns_cons_of_ne hc]

/-! ### Where the lines are moved to -/

lemma lineFeedsBefore_zero (text : List Char) : lineFeedsBefore text 0 = 0 := by
  cases text with
  | nil => rfl
  | cons c text => rw [lineFeedsBefore, if_pos rfl]

lemma lineFeedsBefore_append (before rest : List Char) (n : Nat) :
    lineFeedsBefore (before ++ rest) (byteLength before + n) =
      before.count '\n' + lineFeedsBefore rest n := by
  induction before with
  | nil => simp
  | cons c before ih =>
    have hpos := c.utf8Size_pos
    have hoffset : byteLength (c :: before) + n - c.utf8Size = byteLength before + n := by
      rw [byteLength_cons]
      omega
    rw [List.cons_append, lineFeedsBefore, if_neg (by rw [byteLength_cons]; omega), hoffset, ih,
      List.count_cons, ← Nat.add_assoc, Nat.add_comm (before.count '\n')]
    simp

/-- On a line there is no further line feed. -/
lemma lineFeedsBefore_line {line : List Char} (h : '\n' ∉ line) (rest : List Char) {n : Nat}
    (hn : n ≤ byteLength line) : lineFeedsBefore (line ++ rest) n = 0 := by
  induction line generalizing n with
  | nil =>
    obtain rfl : n = 0 := Nat.le_zero.1 hn
    exact lineFeedsBefore_zero _
  | cons c line ih =>
    rw [List.mem_cons, not_or] at h
    rw [byteLength_cons] at hn
    rw [List.cons_append, lineFeedsBefore, if_neg (Ne.symm h.1), ih h.2 (by omega)]
    simp

/-- A physical line stands behind as many line feeds as its number says. -/
lemma physicalLines_append_count {text : List Char} {i : Nat} {line : Line}
    (h : (physicalLines text)[i]? = some line) :
    ∃ before after, text = before ++ (line.text ++ after) ∧ byteLength before = line.offset ∧
      before.count '\n' = i := by
  cases i with
  | zero =>
    obtain ⟨mark, hmark, hsize⟩ := exists_mark_append text
    obtain ⟨first, rest, hlines⟩ :=
      List.exists_cons_of_ne_nil (List.splitOn_ne_nil '\n' (withoutMark text))
    rw [physicalLines, hlines] at h
    obtain rfl : (⟨_, first⟩ : Line) = line := Option.some.inj h
    obtain ⟨after, hafter, -⟩ := intercalate_eq_append first rest
    rw [← hlines, List.intercalate_splitOn] at hafter
    refine ⟨mark, after, hafter ▸ hmark, hsize, ?_⟩
    have hcount := congrArg (List.count '\n') hmark
    rw [List.count_append, count_withoutMark] at hcount
    omega
  | succ i =>
    obtain ⟨-, before, after, htext, hoffset, hcount⟩ := physicalLines_of_pos (Nat.succ_pos i) h
    refine ⟨before ++ ['\n'], after, by simp [htext], ?_, ?_⟩
    · rw [hoffset, byteLength_append, byteLength_newline_cons, byteLength_nil]
    · rw [List.count_append, List.count_singleton_self]
      exact hcount

/-- All offsets on a physical line are moved by its number. -/
lemma movedByReturns_line {text : List Char} {i : Nat} {line : Line}
    (h : (physicalLines text)[i]? = some line) {n : Nat} (hn : n ≤ byteLength line.text) :
    movedByReturns text (line.offset + n) = line.offset + n + i := by
  have hnewline := newline_not_mem_of_mem_physicalLines (List.mem_of_getElem? h)
  obtain ⟨before, after, htext, hoffset, hcount⟩ := physicalLines_append_count h
  rw [movedByReturns, ← hoffset]
  conv_lhs => rw [htext]
  rw [lineFeedsBefore_append, lineFeedsBefore_line hnewline after hn, hcount, Nat.add_zero]

/-! ### The same document -/

/-- Lines with returns at their ends are read alike, if their offsets are moved by their numbers. -/
lemma forall₂_placeLines_endedByReturns {move : Nat → Nat} (texts : List (List Char)) :
    ∀ offset k, (∀ i line, (placeLines offset texts)[i]? = some line →
        ∀ n ≤ byteLength line.text, move (line.offset + n) = line.offset + n + (k + i)) →
      List.Forall₂ (ReadAlike move) (placeLines offset texts)
        (placeLines (offset + k) (endedByReturns texts)) := by
  induction texts with
  | nil => exact fun _ _ _ => .nil
  | cons text texts ih =>
    intro offset k hmove
    have hline : ReadAlike move ⟨offset, text⟩ ⟨offset + k, text⟩ := by
      refine readLine_moved move fun n hn => ?_
      rw [hmove 0 ⟨offset, text⟩ rfl n hn, Nat.add_zero, Nat.add_right_comm]
    cases texts with
    | nil => exact .cons hline .nil
    | cons next texts =>
      have hreturn : ReadAlike move ⟨offset, text⟩ ⟨offset + k, text ++ ['\r']⟩ := by
        intro continued
        rw [readLine_append_of_blank (List.forall_mem_singleton.2 (by decide)) continued
          (offset + k) text]
        exact hline continued
      have hnext : offset + k + byteLength (text ++ ['\r']) + 1
          = offset + byteLength text + 1 + (k + 1) := by
        rw [byteLength_append, show byteLength ['\r'] = 1 from rfl]
        omega
      have hrest := ih (offset + byteLength text + 1) (k + 1) fun i line hi n hn => by
        rw [hmove (i + 1) line hi n hn]
        omega
      rw [← hnext] at hrest
      exact .cons hreturn hrest

/-- The document of the text with returns. -/
lemma parse_withReturns (text : List Char) :
    Document.parse (withReturns text) = (Document.parse text).mapSpans (movedByReturns text) := by
  have hoffset : byteLength (withReturns text) - byteLength (withReturns (withoutMark text))
      = byteLength text - byteLength (withoutMark text) := by
    rw [byteLength_withReturns, byteLength_withReturns, count_withoutMark, Nat.add_sub_add_right]
  rw [parse_eq_ofPieces_physicalLines, parse_eq_ofPieces_physicalLines]
  refine ofPieces_of_readAlike ?_
  rw [physicalLines, physicalLines, withoutMark_withReturns, splitOn_withReturns, hoffset]
  refine forall₂_placeLines_endedByReturns _ _ 0 fun i line hi n hn => ?_
  rw [movedByReturns_line hi hn, Nat.zero_add]

/-! ### The same positions -/

lemma count_withReturns (text : List Char) : (withReturns text).count '\n' = text.count '\n' := by
  induction text with
  | nil => rfl
  | cons c text ih =>
    by_cases hc : c = '\n'
    · subst hc
      rw [withReturns_newline_cons, List.count_cons_of_ne (by decide), List.count_cons_self, ih,
        List.count_cons_self]
    · rw [withReturns_cons_of_ne hc, List.count_cons_of_ne hc, ih, List.count_cons_of_ne hc]

/-- What stands behind the last line feed stays the same. -/
lemma takeWhile_reverse_withReturns (text : List Char) :
    (withReturns text).reverse.takeWhile (· != '\n') = text.reverse.takeWhile (· != '\n') := by
  induction text using List.reverseRecOn with
  | nil => rfl
  | append_singleton text c ih =>
    rw [withReturns_append, List.reverse_append, List.reverse_append]
    by_cases hc : c = '\n'
    · subst hc
      rfl
    · have hkeeps : (c != '\n') = true := by simpa using hc
      rw [withReturns_cons_of_ne hc]
      show (c :: (withReturns text).reverse).takeWhile _ = (c :: text.reverse).takeWhile _
      simp only [List.takeWhile_cons, hkeeps, if_true, ih]

lemma after_withReturns (text : List Char) :
    Position.after (withReturns text) = Position.after text := by
  rw [Position.after, count_withReturns, takeWhile_reverse_withReturns, Position.after]

/-- What begins between two characters has the same position in both texts. -/
lemma position?_withReturns {text : List Char} {offset : Nat} (h : IsBoundary text offset) :
    ∃ position, (LineIndex.ofText text).position? offset = some position ∧
      (LineIndex.ofText (withReturns text)).position? (movedByReturns text offset) =
        some position := by
  obtain ⟨before, after, rfl, rfl⟩ := h
  have hmoved : movedByReturns (before ++ after) (byteLength before)
      = byteLength (withReturns before) := by
    have hcount := lineFeedsBefore_append before after 0
    rw [Nat.add_zero, lineFeedsBefore_zero, Nat.add_zero] at hcount
    rw [movedByReturns, hcount, byteLength_withReturns]
  refine ⟨.after before, LineIndex.position?_append before after, ?_⟩
  rw [hmoved, withReturns_append, LineIndex.position?_append, after_withReturns]

/-! ### The same lines of output -/

/-- The finding with its span moved. -/
def Finding.mapSpan (move : Nat → Nat) (finding : Finding) : Finding :=
  { finding with span := finding.span.map move }

/-- A diagnostic leads to the same finding in both texts, up to the span. -/
lemma finding?_withReturns {registry : Registry} {text : List Char} {diagnostic : Diagnostic}
    (h : diagnostic ∈ registry.validate (Document.parse text)) :
    CheckedFile.finding? (.ofText (withReturns text)) (diagnostic.mapSpan (movedByReturns text)) =
      (CheckedFile.finding? (.ofText text) diagnostic).map
        (Finding.mapSpan (movedByReturns text)) := by
  obtain ⟨sec, hsec, directive, hdirective, rfl⟩ := exists_directive_of_mem_validate h
  obtain ⟨layout, hlayout⟩ := exists_layout text
  have hcovers := hlayout.covers_directive hsec hdirective
  obtain ⟨layout', hlayout'⟩ := exists_layout (withReturns text)
  have hsec' : sec.mapSpans (movedByReturns text) ∈
      (Document.parse (withReturns text)).sections := by
    rw [parse_withReturns]
    exact List.mem_map_of_mem hsec
  have hslice := hcovers.slice_eq
  have hslice' : (directive.keySpan.map (movedByReturns text)).slice? (withReturns text) =
      some directive.key.toList :=
    (hlayout'.covers_directive hsec' (List.mem_map_of_mem hdirective)).slice_eq
  obtain ⟨position, hposition, hposition'⟩ := position?_withReturns hcovers.start_isBoundary
  have hfinding : CheckedFile.finding? (.ofText text) (.unrecognized directive.keySpan) = _ :=
    finding?_eq_some hposition hslice
  rw [hfinding, Option.map_some]
  exact finding?_eq_some hposition' hslice'

/-- The findings of the file with returns. -/
lemma findings_withReturns (registry : Registry) (path : String) (text : List Char) :
    (CheckedFile.ofText registry path (String.ofList (withReturns text))).findings =
      (CheckedFile.ofText registry path (String.ofList text)).findings.map
        (Finding.mapSpan (movedByReturns text)) := by
  simp only [CheckedFile.findings, CheckedFile.ofText, String.toList_ofList]
  rw [parse_withReturns, Registry.validate_mapSpans, List.filterMap_map, List.map_filterMap]
  exact List.filterMap_congr fun diagnostic hdiagnostic => finding?_withReturns hdiagnostic

/-- **The kind of the line ends does not matter.**  Put a carriage return in front of every line feed of
a text, whatever returns there are already.  The document is the same, with the offsets moved by the
line feeds before them.  Headers and keys keep their lines and columns, so the findings have the same
lines in the compact format. -/
theorem line_ends_read_alike (text : List Char) :
    Document.parse (withReturns text) =
      (Document.parse text).mapSpans (fun offset => offset + lineFeedsBefore text offset) ∧
    (∀ span ∈ (Document.parse text).spans, ∃ position,
      (LineIndex.ofText text).position? span.start = some position ∧
        (LineIndex.ofText (withReturns text)).position?
          (span.start + lineFeedsBefore text span.start) = some position) ∧
    ∀ (registry : Registry) (path : String),
      Output.compact [.ofText registry path (String.ofList (withReturns text))] =
        Output.compact [.ofText registry path (String.ofList text)] := by
  refine ⟨parse_withReturns text, fun span hspan => ?_, fun registry path => ?_⟩
  · obtain ⟨layout, h⟩ := exists_layout text
    obtain ⟨part, hcovers⟩ := h.exists_covers hspan
    exact position?_withReturns hcovers.start_isBoundary
  · have hlines : Output.compactLines [.ofText registry path (String.ofList (withReturns text))] =
        Output.compactLines [.ofText registry path (String.ofList text)] := by
      simp only [Output.compactLines, List.flatMap_singleton, findings_withReturns, List.map_map]
      rfl
    rw [Output.compact, hlines, Output.compact]

end UnitCheck
