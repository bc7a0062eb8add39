/-
The values of directives.

A value can go on over several lines.  Its stretches are found from the line of the key alone, and
the value is made of them.  The lines of the stretches behind the first are swallowed, and so are all
lines between (`swallowed_of_mem_stretches`).  That is why no line can be part of two values, and why
no such line opens a section or holds a key.
-/
import UnitCheck.Proofs.Document.Spans

namespace UnitCheck

/-- The span lies on the line of the given number. -/
structure LiesOn (lines : List Line) (span : Span) (row : Row) : Prop where
  line_eq : lines[row.number]? = some row.line
  offset_le : row.line.offset ≤ span.start
  stop_le : span.stop ≤ row.line.offset + byteLength row.line.text

/-- The numbers of the lines that a value is made of, if its key stands on the given line. -/
def stretchNumbers (lines : List Line) (row : Row) : List Nat :=
  (stretches lines row).map (·.1)

/-! ### The line of a span -/

lemma liesOn_trimmedSpan {lines : List Line} {row : Row} {part : List Char}
    (hrow : lines[row.number]? = some row.line) (hpart : part <+: row.line.text) :
    LiesOn lines (row.line.trimmedSpan part) row := by
  obtain ⟨before, after, hline, hstart, hstop⟩ := exists_trimmedSpan_append hpart
  have hlength := congrArg byteLength hline
  simp only [byteLength_append] at hlength
  exact ⟨hrow, by omega, by omega⟩

/-- A span that is not empty lies on one physical line at most. -/
lemma LiesOn.unique {text : List Char} {span : Span} {a b : Row} (hspan : span.start < span.stop)
    (ha : LiesOn (physicalLines text) span a) (hb : LiesOn (physicalLines text) span b) : a = b := by
  have hapart : ∀ {a b : Row}, LiesOn (physicalLines text) span a →
      LiesOn (physicalLines text) span b → ¬ a.number < b.number := by
    intro a b ha hb hlt
    -- the line feed behind line `a` keeps the span off line `b`
    obtain ⟨-, between, -, -, -, hoffset⟩ := physicalLines_append_of_lt hlt ha.line_eq hb.line_eq
    have := ha.stop_le
    have := hb.offset_le
    omega
  have hnumber : a.number = b.number := by
    have := hapart ha hb
    have := hapart hb ha
    omega
  have hline : a.line = b.line := by
    have := ha.line_eq
    rw [hnumber, hb.line_eq] at this
    exact (Option.some.inj this).symm
  obtain ⟨number, line⟩ := a
  obtain rfl : number = b.number := hnumber
  obtain rfl : line = b.line := hline
  rfl

/-- The ends of a span of a document are in order, and it lies on a line. -/
lemma exists_liesOn_of_mem_spans {text : List Char} {span : Span}
    (h : span ∈ (Document.parse text).spans) :
    span.start ≤ span.stop ∧ ∃ row, LiesOn (physicalLines text) span row := by
  obtain ⟨layout, hlayout⟩ := exists_layout text
  rw [hlayout.spans_eq] at h
  obtain ⟨row, hrow, rfl⟩ := List.mem_map.1 h
  exact ⟨Nat.le_add_right _ _, row,
    liesOn_trimmedSpan (hlayout.standsAlone hrow).1 (isPrefix_markedPart row.line)⟩

/-! ### The lines of a value -/

/-- The lines of the stretches that are added to an open value are swallowed, and so are the lines
before them in the continuation. -/
lemma swallowed_of_mem_stretchesFrom {lines : List Line} :
    ∀ (rest : List Line) (k n : Nat), lines.drop k = rest → Swallowed lines k →
      n ∈ (stretchesFrom k rest).map (·.1) →
      k ≤ n ∧ ∀ m, k ≤ m → m ≤ n → Swallowed lines m := by
  intro rest
  induction rest with
  | nil =>
    intro k n _ _ hn
    exact absurd hn (by simp [stretchesFrom])
  | cons line rest ih =>
    intro k n hdrop hswallowed hn
    obtain ⟨hk, hrest⟩ := getElem?_of_drop_eq_cons hdrop
    -- if the line keeps the continuation open, all goes on behind it
    have hbehind : KeepsOpen line.text → n ∈ (stretchesFrom (k + 1) rest).map (·.1) →
        k ≤ n ∧ ∀ m, k ≤ m → m ≤ n → Swallowed lines m := by
      intro hkeeps hmem
      obtain ⟨hle, hall⟩ := ih (k + 1) n hrest
        ((swallowed_succ_iff hk).2 (Or.inr ⟨hswallowed, hkeeps⟩)) hmem
      refine ⟨by omega, fun m hkm hmn => ?_⟩
      rcases Nat.eq_or_lt_of_le hkm with rfl | hlt
      · exact hswallowed
      · exact hall m hlt hmn
    by_cases hcomment : IsCommentLine line.text
    · rw [stretchesFrom, if_pos hcomment] at hn
      exact hbehind (Or.inl hcomment) hn
    · rw [stretchesFrom, if_neg hcomment, List.map_cons] at hn
      rcases List.mem_cons.1 hn with hnk | hn
      · have hnk : n = k := hnk
        refine ⟨hnk.ge, fun m hkm hmn => ?_⟩
        obtain rfl : m = k := by omega
        exact hswallowed
      · by_cases hasks : EndsInBackslash (trim line.text)
        · rw [if_pos hasks] at hn
          exact hbehind (Or.inr hasks) hn
        · rw [if_neg hasks] at hn
          exact absurd hn (by simp)

/-- The stretches of a value behind the first stand on swallowed lines, with swallowed lines only
between them and the key. -/
lemma swallowed_of_mem_stretches {lines : List Line} {row : Row} (hrow : HoldsKey lines row)
    {n : Nat} (hn : n ∈ ((stretches lines row).tail).map (·.1)) :
    row.number < n ∧ ∀ m, row.number < m → m ≤ n → Swallowed lines m := by
  obtain ⟨⟨hline, hfresh⟩, hentry, -⟩ := hrow
  rw [stretches, List.tail_cons] at hn
  split at hn
  · rename_i hasks
    have hnext := (swallowed_succ_iff hline).2 (Or.inl ⟨hfresh, hentry, hasks⟩)
    exact swallowed_of_mem_stretchesFrom _ (row.number + 1) n rfl hnext hn
  · exact absurd hn (by simp)

lemma mem_stretchNumbers {lines : List Line} {row : Row} {n : Nat} :
    n ∈ stretchNumbers lines row ↔
      n = row.number ∨ n ∈ ((stretches lines row).tail).map (·.1) := by
  rw [stretchNumbers, stretches, List.map_cons, List.mem_cons, List.tail_cons]

/-- The values of two keys have no line in common. -/
lemma stretchNumbers_disjoint {lines : List Line} {a b : Row} (hlt : a.number < b.number)
    (ha : HoldsKey lines a) (hb : HoldsKey lines b) {n : Nat} (hna : n ∈ stretchNumbers lines a) :
    n ∉ stretchNumbers lines b := by
  intro hnb
  have hbn : b.number ≤ n := by
    rcases mem_stretchNumbers.1 hnb with rfl | hnb
    · exact le_refl _
    · exact (swallowed_of_mem_stretches hb hnb).1.le
  rcases mem_stretchNumbers.1 hna with rfl | hna
  · omega
  · -- the key of `b` would be swallowed by the value of `a`
    exact hb.1.2 ((swallowed_of_mem_stretches ha hna).2 b.number hlt hbn)

/-! ### All values -/

namespace Document.HasLayout

variable {text : List Char} {lines : List Line} {document : Document} {layout : List (Row × List Row)}

lemma directives_eq (h : document.HasLayout lines layout) :
    document.directives = (layout.flatMap (·.2)).map (directiveOn lines) := by
  rw [Document.directives, h.sections_eq, List.flatMap_map, List.map_flatMap]
  rfl

lemma liesOn_key (h : document.HasLayout (physicalLines text) layout) {a : Row}
    (ha : a ∈ layout.flatMap (·.2)) :
    LiesOn (physicalLines text) (directiveOn (physicalLines text) a).keySpan a :=
  liesOn_trimmedSpan (h.holdsKey_of_mem ha).1.1 (List.takeWhile_prefix _)

lemma eq_of_liesOn_key (h : document.HasLayout (physicalLines text) layout) {a b : Row}
    (ha : a ∈ layout.flatMap (·.2))
    (hb : LiesOn (physicalLines text) (directiveOn (physicalLines text) a).keySpan b) : b = a := by
  exact hb.unique (h.holdsKey_of_mem ha).covers_key.start_lt_stop (h.liesOn_key ha)

/-- A swallowed line holds no header. -/
lemma not_liesOn_header (h : document.HasLayout (physicalLines text) layout) {row : Row}
    (hrow : Swallowed (physicalLines text) row.number) {sec : Section}
    (hsec : sec ∈ document.sections) : ¬ LiesOn (physicalLines text) sec.span row := by
  intro hlies
  have hcovers := h.covers_section hsec
  rw [h.sections_eq, List.mem_map] at hsec
  obtain ⟨block, hblock, rfl⟩ := hsec
  obtain ⟨⟨hline, hfresh⟩, -⟩ := h.opensSection hblock
  obtain rfl := hlies.unique hcovers.start_lt_stop (liesOn_trimmedSpan hline List.prefix_rfl)
  exact hfresh hrow

end Document.HasLayout

/-- **Values are joined from their own lines.**  The key of a directive lies on one physical line.
Its value is made of the stretches that begin on that line: each loses the backslash at its end, and
those that are not empty are joined by spaces.  No line is part of the values of two directives, and
no line that is a later part of a value holds a header or a key. -/
theorem directive_values_joined (text : List Char) :
    (∀ directive ∈ (Document.parse text).directives,
      ∃! row, LiesOn (physicalLines text) directive.keySpan row) ∧
    (∀ directive ∈ (Document.parse text).directives, ∀ row,
      LiesOn (physicalLines text) directive.keySpan row →
      directive.key = String.ofList (trim (keyPart row.line.text)) ∧
        directive.value = String.ofList (joinStretches (stretches (physicalLines text) row))) ∧
    ((Document.parse text).directives.Pairwise fun a b => ∀ rowA rowB,
      LiesOn (physicalLines text) a.keySpan rowA → LiesOn (physicalLines text) b.keySpan rowB →
      ∀ n ∈ stretchNumbers (physicalLines text) rowA,
        n ∉ stretchNumbers (physicalLines text) rowB) ∧
    ∀ directive ∈ (Document.parse text).directives, ∀ row later,
      LiesOn (physicalLines text) directive.keySpan row →
      later.number ∈ ((stretches (physicalLines text) row).tail).map (·.1) →
      (∀ sec ∈ (Document.parse text).sections, ¬ LiesOn (physicalLines text) sec.span later) ∧
        ∀ other ∈ (Document.parse text).directives,
          ¬ LiesOn (physicalLines text) other.keySpan later := by
  obtain ⟨layout, h⟩ := exists_layout text
  rw [h.directives_eq]
  simp only [List.forall_mem_map, List.pairwise_map]
  refine ⟨fun a ha => ⟨a, h.liesOn_key ha, fun b hb => h.eq_of_liesOn_key ha hb⟩, ?_, ?_, ?_⟩
  · intro a ha row hrow
    obtain rfl := h.eq_of_liesOn_key ha hrow
    exact ⟨rfl, rfl⟩
  · refine h.keys_increasing.imp_of_mem fun {a b} ha hb hlt rowA rowB hrowA hrowB n hn => ?_
    obtain rfl := h.eq_of_liesOn_key ha hrowA
    obtain rfl := h.eq_of_liesOn_key hb hrowB
    exact stretchNumbers_disjoint hlt (h.holdsKey_of_mem ha) (h.holdsKey_of_mem hb) hn
  · intro a ha row later hrow hlater
    obtain rfl := h.eq_of_liesOn_key ha hrow
    obtain ⟨hlt, hswallowed⟩ := swallowed_of_mem_stretches (h.holdsKey_of_mem ha) hlater
    have hlast := hswallowed later.number hlt (le_refl _)
    refine ⟨fun sec hsec => h.not_liesOn_header hlast hsec, fun b hb hlies => ?_⟩
    obtain rfl := h.eq_of_liesOn_key hb hlies
    exact (h.holdsKey_of_mem hb).1.2 hlast

/-- A value on lines 1 and 3, with a comment between them. -/
theorem directive_values_joined_comment :
    ⟨"k", ⟨4, 5⟩, "x =y"⟩ ∈ (Document.parse "[A]\nk=x \\\n# c\n =y".toList).directives ∧
      LiesOn (physicalLines "[A]\nk=x \\\n# c\n =y".toList) ⟨4, 5⟩ ⟨1, ⟨4, "k=x \\".toList⟩⟩ ∧
      3 ∈ ((stretches (physicalLines "[A]\nk=x \\\n# c\n =y".toList)
        ⟨1, ⟨4, "k=x \\".toList⟩⟩).tail).map (·.1) ∧
      ∀ other ∈ (Document.parse "[A]\nk=x \\\n# c\n =y".toList).directives,
        ¬ LiesOn (physicalLines "[A]\nk=x \\\n# c\n =y".toList) other.keySpan
          ⟨3, ⟨15, " =y".toList⟩⟩ := by
  have hmem : ⟨"k", ⟨4, 5⟩, "x =y"⟩ ∈ (Document.parse "[A]\nk=x \\\n# c\n =y".toList).directives := by
    decide
  have hlies : LiesOn (physicalLines "[A]\nk=x \\\n# c\n =y".toList) ⟨4, 5⟩
      ⟨1, ⟨4, "k=x \\".toList⟩⟩ := ⟨by decide, by decide, by decide⟩
  have hlater : 3 ∈ ((stretches (physicalLines "[A]\nk=x \\\n# c\n =y".toList)
      ⟨1, ⟨4, "k=x \\".toList⟩⟩).tail).map (·.1) := by
    decide
  exact ⟨hmem, hlies, hlater,
    ((directive_values_joined _).2.2.2 _ hmem _ ⟨3, ⟨15, " =y".toList⟩⟩ hlies hlater).2⟩

end UnitCheck
