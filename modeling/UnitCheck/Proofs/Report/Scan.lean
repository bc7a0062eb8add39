/-
The scan for a window, line by line.

The scan passes a text byte by byte.  If carriage returns stand only in front of line feeds, a line is
a run of bytes and then, unless the text ends, a line end, so that whole lines can be passed in one
step (`Scan.pass`).  Before the span the scan keeps the offsets of the last lines (`Scan.Keeps`).  From
the end of the span on it counts the lines that end, and it stops when enough have ended
(`Scan.IsAt`).
-/
import UnitCheck.Proofs.Document.Chunks
import UnitCheck.Report.Snippet

namespace UnitCheck

/-- A carriage return stands only directly in front of a line feed. -/
def ReturnsEndLines (text : List Char) : Prop :=
  ∀ n < text.length, text[n]? = some '\r' → text[n + 1]? = some '\n'

instance (text : List Char) : Decidable (ReturnsEndLines text) :=
  inferInstanceAs (Decidable (∀ n < text.length, text[n]? = some '\r' → text[n + 1]? = some '\n'))

/-- The chunk is a line with its line end, which the last line of a text may lack. -/
structure IsLine (chunk body ending : List Char) : Prop where
  eq_append : chunk = body ++ ending
  plain : ∀ c ∈ body, c ≠ '\n' ∧ c ≠ '\r'
  ending_eq : ending = [] ∨ ending = ['\n'] ∨ ending = ['\r', '\n']

/-! ### Lines and their ends -/

lemma ReturnsEndLines.head?_eq {text before after : List Char} (h : ReturnsEndLines text)
    (htext : text = before ++ '\r' :: after) : after.head? = some '\n' := by
  have hreturn : text[before.length]? = some '\r' := by
    rw [htext, List.getElem?_append_right (le_refl _), Nat.sub_self]
    rfl
  have hnext := h before.length (by simp [htext]) hreturn
  rw [htext, List.getElem?_append_right (Nat.le_add_right _ 1), Nat.add_sub_cancel_left] at hnext
  rw [List.head?_eq_getElem?]
  exact hnext

/-- A line holds no carriage return, or just one at its end, in front of a line feed. -/
lemma ReturnsEndLines.plain_or_return {text front line rest : List Char} (h : ReturnsEndLines text)
    (htext : text = front ++ (line ++ rest)) (hnewline : '\n' ∉ line) :
    (∀ c ∈ line, c ≠ '\n' ∧ c ≠ '\r') ∨
      ∃ body, line = body ++ ['\r'] ∧ (∀ c ∈ body, c ≠ '\n' ∧ c ≠ '\r') ∧
        rest.head? = some '\n' := by
  by_cases hmem : '\r' ∈ line
  · obtain ⟨body, after, rfl, hbody⟩ := List.eq_append_cons_of_mem hmem
    have hhead : (after ++ rest).head? = some '\n' :=
      h.head?_eq (by rw [htext, List.append_assoc, List.cons_append, ← List.append_assoc])
    -- what comes behind the return begins with a line feed, and so it is not on the line
    cases after with
    | nil =>
      refine Or.inr ⟨body, rfl, fun c hc => ⟨?_, ?_⟩, hhead⟩
      · rintro rfl
        exact hnewline (List.mem_append_left _ hc)
      · rintro rfl
        exact hbody hc
    | cons c after =>
      obtain rfl : c = '\n' := Option.some.inj hhead
      exact absurd (by simp) hnewline
  · refine Or.inl fun c hc => ⟨?_, ?_⟩
    · rintro rfl
      exact hnewline hc
    · rintro rfl
      exact hmem hc

/-- A chunk of a text is a line with its line end, and only the last may lack it. -/
lemma ReturnsEndLines.exists_isLine {text chunk : List Char} {k : Nat} (h : ReturnsEndLines text)
    (hchunk : (chunks text)[k]? = some chunk) :
    ∃ body ending, IsLine chunk body ending ∧ (ending = [] → k + 1 = (chunks text).length) := by
  obtain ⟨line, hline, hcases⟩ := getElem?_splitOn_of_chunks hchunk
  have hnewline : '\n' ∉ line := not_mem_of_mem_splitOn (List.mem_of_getElem? hline)
  have htext := text_eq_of_getElem?_chunks hchunk
  rcases hcases with rfl | rfl
  · rw [List.append_assoc] at htext
    rcases h.plain_or_return htext hnewline with hplain | ⟨body, rfl, hplain, -⟩
    · exact ⟨line, ['\n'], ⟨rfl, hplain, by simp⟩, by simp⟩
    · exact ⟨body, ['\r', '\n'], ⟨by simp, hplain, by simp⟩, by simp⟩
  · -- a chunk without a line feed is the last one
    have hlast : k + 1 = (chunks text).length := by
      have hk := (List.getElem?_eq_some_iff.1 hchunk).1
      by_contra hne
      exact hnewline (List.mem_of_getLast? (getLast?_of_getElem?_chunks hchunk (by omega)))
    rw [hlast, List.drop_length] at htext
    rcases h.plain_or_return htext hnewline with hplain | ⟨body, -, -, hhead⟩
    · exact ⟨chunk, [], ⟨by simp, hplain, by simp⟩, fun _ => hlast⟩
    · exact absurd hhead (by simp)

lemma scanUnits_cons_of_plain {c : Char} (h : c ≠ '\n' ∧ c ≠ '\r') (text : List Char) :
    scanUnits (c :: text) = List.replicate c.utf8Size .byte ++ scanUnits text := by
  rw [scanUnits.eq_3 c text fun _ hc _ => h.2 hc, if_neg (by simpa using h)]

lemma scanUnits_of_plain {body : List Char} (h : ∀ c ∈ body, c ≠ '\n' ∧ c ≠ '\r')
    (rest : List Char) :
    scanUnits (body ++ rest) = List.replicate (byteLength body) .byte ++ scanUnits rest := by
  induction body with
  | nil => rfl
  | cons c body ih =>
    rw [List.forall_mem_cons] at h
    rw [List.cons_append, scanUnits_cons_of_plain h.1, ih h.2, byteLength_cons,
      List.replicate_add, List.append_assoc]

namespace IsLine

variable {chunk body ending : List Char}

/-- A line is scanned byte by byte, and its end, if it has one, in one step. -/
lemma scanUnits_eq (h : IsLine chunk body ending) :
    scanUnits chunk = List.replicate (byteLength body) .byte ++
      if ending = [] then [] else [.lineEnd ending.length] := by
  rw [h.eq_append, scanUnits_of_plain h.plain]
  rcases h.ending_eq with rfl | rfl | rfl
  · rfl
  · rfl
  · rfl

lemma byteLength_eq (h : IsLine chunk body ending) :
    byteLength chunk = byteLength body + ending.length := by
  rw [h.eq_append, byteLength_append]
  rcases h.ending_eq with rfl | rfl | rfl
  · rfl
  · rfl
  · rfl

lemma withoutLineEnd_eq (h : IsLine chunk body ending) : withoutLineEnd chunk = body := by
  have hlast : ∀ c, body.getLast? = some c → c ≠ '\n' ∧ c ≠ '\r' :=
    fun c hc => h.plain c (List.mem_of_getLast? hc)
  rw [h.eq_append, withoutLineEnd]
  rcases h.ending_eq with rfl | rfl | rfl
  · rw [List.append_nil, if_neg fun hc => (hlast _ hc).1 rfl]
  · rw [List.getLast?_concat, if_pos rfl, List.dropLast_concat,
      if_neg fun hc => (hlast _ hc).2 rfl]
  · have hsplit : body ++ ['\r', '\n'] = (body ++ ['\r']) ++ ['\n'] := by simp
    rw [hsplit, List.getLast?_concat, if_pos rfl, List.dropLast_concat]
    exact (if_pos List.getLast?_concat).trans List.dropLast_concat

end IsLine

namespace Scan

variable {context : Nat} {span : Span}

lemma step_byte {scan : Scan} (h : scan.stopped = false) :
    scan.step context span .byte =
      { scan with
        column := if scan.offset < span.start then scan.column + 1 else scan.column }.advance
          context span :=
  if_neg (by simp [h])

lemma step_lineEnd {scan : Scan} (h : scan.stopped = false) (size : Nat) :
    scan.step context span (.lineEnd size) =
      (scan.endLine context span size).advance context span :=
  if_neg (by simp [h])

@[simp]
lemma before_countBehind (scan : Scan) : scan.countBehind.before = scan.before := by
  rw [countBehind]
  split <;> rfl

@[simp]
lemma linesBefore_countBehind (scan : Scan) :
    scan.countBehind.linesBefore = scan.linesBefore := by
  rw [countBehind]
  split <;> rfl

lemma advance_of_lt {scan : Scan} (h : scan.offset + 1 < span.stop) :
    scan.advance context span = { scan with offset := scan.offset + 1 } := by
  rw [advance, if_neg]
  rw [Span.length]
  omega

lemma advance_of_le {scan : Scan} (h : span.stop ≤ scan.offset + 1)
    (hspan : span.start < span.stop) :
    scan.advance context span =
      { scan with
        offset := scan.offset + 1, reached := true, stopped := context ≤ scan.linesBehind } := by
  rw [advance, if_pos]
  rw [Span.length]
  omega

/-- A run of bytes that the scan passes to its end. -/
lemma exists_foldl_step_bytes (hspan : span.start < span.stop) {scan : Scan}
    (hstopped : scan.stopped = false) {m : Nat}
    (hgo : scan.linesBehind < context ∨ scan.offset + m < span.stop) :
    ∃ column, (List.replicate m ScanUnit.byte).foldl (step context span) scan =
      { scan with
        offset := scan.offset + m
        column := column
        reached := scan.reached || decide (0 < m ∧ span.stop ≤ scan.offset + m) } := by
  induction m with
  | zero => exact ⟨scan.column, by simp⟩
  | succ m ih =>
    obtain ⟨column, hbytes⟩ := ih (by omega)
    rw [List.replicate_succ', List.foldl_concat, hbytes, step_byte (by exact hstopped)]
    refine ⟨if scan.offset + m < span.start then column + 1 else column, ?_⟩
    by_cases hstop : span.stop ≤ scan.offset + m + 1
    · have hbehind : scan.linesBehind < context := by omega
      rw [advance_of_le hstop hspan]
      simp [hstopped, hbehind, ← Nat.add_assoc, hstop]
    · have hbefore : ¬ span.stop ≤ scan.offset + m := by omega
      rw [advance_of_lt (by simp only; omega)]
      simp [hbefore, hstop, ← Nat.add_assoc]

/-- Pass one line of a text. -/
def pass (context : Nat) (span : Span) (scan : Scan) (chunk : List Char) : Scan :=
  (scanUnits chunk).foldl (step context span) scan

/-- The bytes of a line and then its end. -/
lemma exists_pass_eq (hspan : span.start < span.stop) {scan : Scan}
    (hstopped : scan.stopped = false) {chunk body ending : List Char}
    (hline : IsLine chunk body ending)
    (hgo : scan.linesBehind < context ∨ scan.offset + byteLength body < span.stop) :
    ∃ column, scan.pass context span chunk =
      (if ending = [] then [] else [ScanUnit.lineEnd ending.length]).foldl (step context span)
        { scan with
          offset := scan.offset + byteLength body
          column := column
          reached := scan.reached ||
            decide (0 < byteLength body ∧ span.stop ≤ scan.offset + byteLength body) } := by
  obtain ⟨column, hbytes⟩ := exists_foldl_step_bytes hspan hstopped hgo
  exact ⟨column, by rw [pass, hline.scanUnits_eq, List.foldl_append, hbytes]⟩

/-! ### The lines before the span -/

/-- The scan has passed whole lines, all of them before the span, that begin at the given
offsets. -/
structure Keeps (context : Nat) (scan : Scan) (starts : List Nat) (offset : Nat) : Prop where
  stopped_eq : scan.stopped = false
  offset_eq : scan.offset = offset
  lineStart_eq : scan.lineStart = offset
  before_eq : scan.before = starts.drop (starts.length - context)
  linesBefore_eq : scan.linesBefore = starts.length - context

lemma endLine_of_lt {scan : Scan} {size : Nat} (h : scan.offset + (size - 1) < span.start) :
    scan.endLine context span size =
      { scan.keepLine context with
        offset := scan.offset + (size - 1)
        lineEnds := scan.lineEnds + 1
        lineStart := scan.offset + (size - 1) + 1 } := by
  rw [endLine]
  simp only [if_pos h, keepLine]
  split <;> rfl

/-- Of the lines that begin at the given offsets, the last ones are kept. -/
lemma keepLine_eq {scan : Scan} {starts : List Nat}
    (hbefore : scan.before = starts.drop (starts.length - context))
    (hlines : scan.linesBefore = starts.length - context) :
    scan.keepLine context =
      { scan with
        column := 0
        before := (starts ++ [scan.lineStart]).drop (starts.length + 1 - context)
        linesBefore := starts.length + 1 - context } := by
  have hlength : scan.before.length = min starts.length context := by
    rw [hbefore, List.length_drop]
    omega
  have hdrop : scan.before ++ [scan.lineStart]
      = (starts ++ [scan.lineStart]).drop (starts.length - context) := by
    rw [hbefore, List.drop_append_of_le_length (by omega)]
  have hsize : (scan.before ++ [scan.lineStart]).length = scan.before.length + 1 := by simp
  rw [keepLine]
  simp only [hsize]
  split
  · -- there is no room for one more line
    have hroom : starts.length + 1 - context = starts.length - context + 1 := by omega
    rw [hdrop, List.tail_drop, hroom, hlines]
  · have hroom : starts.length + 1 - context = starts.length - context := by omega
    rw [hdrop, hroom, ← hlines]

lemma Keeps.pass {scan : Scan} {starts : List Nat} {offset : Nat}
    (h : scan.Keeps context starts offset) (hspan : span.start < span.stop)
    {chunk body ending : List Char} (hline : IsLine chunk body ending) (hending : ending ≠ [])
    (hbefore : offset + byteLength chunk ≤ span.start) :
    (scan.pass context span chunk).Keeps context (starts ++ [offset])
      (offset + byteLength chunk) := by
  have hlength := hline.byteLength_eq
  have hpos := List.length_pos_iff.2 hending
  have hoffset := h.offset_eq
  obtain ⟨column, hpass⟩ : ∃ column, scan.pass context span chunk = _ :=
    exists_pass_eq hspan h.stopped_eq hline (Or.inr (by omega))
  rw [if_neg hending, List.foldl_cons, List.foldl_nil, step_lineEnd (by exact h.stopped_eq),
    endLine_of_lt (by simp only; omega), advance_of_lt (by simp only; omega),
    keepLine_eq (by exact h.before_eq) (by exact h.linesBefore_eq)] at hpass
  have hend : scan.offset + byteLength body + (ending.length - 1) + 1
      = offset + byteLength chunk := by
    omega
  rw [hpass]
  refine ⟨h.stopped_eq, hend, hend, ?_, ?_⟩
  · rw [List.length_append, List.length_singleton, ← h.lineStart_eq]
  · rw [List.length_append, List.length_singleton]

namespace IsAt

variable {scan : Scan} {offset lineEnds ended : Nat} {chunk body ending : List Char}

end IsAt

end Scan

end UnitCheck
