/-
The spans of a document.

A span that the reader makes lies on one physical line, between the blank characters around a part
in front of that line.  So it covers the trimmed part (`covers_trimmedSpan`), and the spans of two
lines are kept apart by a line feed (`separated_trimmedSpan`).  What holds of all spans of a
document follows from its layout.
-/
import UnitCheck.Diagnostic
import UnitCheck.Proofs.Document.Layout

namespace UnitCheck

/-- The span is a stretch of the text that is not empty and begins and ends between characters, and
the given part stands there. -/
structure Covers (text : List Char) (span : Span) (part : List Char) : Prop where
  start_lt_stop : span.start < span.stop
  stop_le : span.stop ≤ byteLength text
  start_isBoundary : IsBoundary text span.start
  stop_isBoundary : IsBoundary text span.stop
  slice_eq : span.slice? text = some part

/-- The first span ends before the second begins, and there is a line feed between them. -/
structure Separated (text : List Char) (a b : Span) : Prop where
  stop_lt_start : a.stop < b.start
  newline_between : ∃ between, (Span.mk a.stop b.start).slice? text = some between ∧ '\n' ∈ between

/-- The spans of a document: of each section the header, then the keys. -/
def Document.spans (document : Document) : List Span :=
  document.sections.flatMap fun sec => sec.span :: sec.directives.map (·.keySpan)

/-! ### The spans of a line -/

/-- The trimmed form of a part in front of a line stands where its span says. -/
lemma exists_trimmedSpan_append {line : Line} {part : List Char} (hpart : part <+: line.text) :
    ∃ before after, line.text = before ++ (trim part ++ after) ∧
      (line.trimmedSpan part).start = line.offset + byteLength before ∧
      (line.trimmedSpan part).stop = line.offset + byteLength before + byteLength (trim part) := by
  obtain ⟨rest, hrest⟩ := hpart
  obtain ⟨blank, -, hblank⟩ := exists_indentation_append_trim part
  refine ⟨indentation part, blank ++ rest, ?_, rfl, rfl⟩
  rw [← hrest]
  conv_lhs => rw [← hblank]
  simp only [List.append_assoc]

lemma covers_trimmedSpan {text part : List Char} {i : Nat} {line : Line}
    (hi : (physicalLines text)[i]? = some line) (hpart : part <+: line.text)
    (hne : trim part ≠ []) : Covers text (line.trimmedSpan part) (trim part) := by
  obtain ⟨before, after, htext, hoffset⟩ := physicalLines_append hi
  obtain ⟨before', after', hline, hstart, hstop⟩ := exists_trimmedSpan_append hpart
  have hsplit : text = (before ++ before') ++ (trim part ++ (after' ++ after)) := by
    rw [htext, hline]
    simp only [List.append_assoc]
  rw [← hoffset, ← byteLength_append] at hstart hstop
  have hpos := byteLength_pos hne
  refine ⟨by omega, ?_, ?_, ?_, Span.slice?_eq_some hsplit hstart hstop⟩
  · rw [hstop, hsplit, byteLength_append _ (trim part ++ _), byteLength_append (trim part)]
    omega
  · exact ⟨before ++ before', _, hsplit, hstart.symm⟩
  · refine ⟨(before ++ before') ++ trim part, after' ++ after, ?_, ?_⟩
    · rw [List.append_assoc]
      exact hsplit
    · rw [byteLength_append, hstop]

lemma separated_trimmedSpan {text partA partB : List Char} {i j : Nat} {a b : Line} (hij : i < j)
    (hi : (physicalLines text)[i]? = some a) (hj : (physicalLines text)[j]? = some b)
    (hpartA : partA <+: a.text) (hpartB : partB <+: b.text) :
    Separated text (a.trimmedSpan partA) (b.trimmedSpan partB) := by
  obtain ⟨before, between, after, htext, hoffset, hoffset'⟩ := physicalLines_append_of_lt hij hi hj
  obtain ⟨beforeA, afterA, hlineA, -, hstop⟩ := exists_trimmedSpan_append hpartA
  obtain ⟨beforeB, afterB, hlineB, hstart, -⟩ := exists_trimmedSpan_append hpartB
  have hsplit : text = (before ++ (beforeA ++ trim partA)) ++
      ((afterA ++ '\n' :: (between ++ beforeB)) ++ (trim partB ++ (afterB ++ after))) := by
    rw [htext, hlineA, hlineB]
    simp only [List.append_assoc, List.cons_append]
  have hlengthA : byteLength a.text
      = byteLength beforeA + byteLength (trim partA) + byteLength afterA := by
    rw [hlineA]
    simp only [byteLength_append]
    omega
  have hnewline : ('\n' : Char).utf8Size = 1 := rfl
  refine ⟨by omega, _, Span.slice?_eq_some hsplit ?_ ?_, by simp⟩
  · simp only [byteLength_append]
    omega
  · simp only [byteLength_append, byteLength_cons]
    omega

/-! ### The spans of a layout -/

/-- The part in front of a line that the reader marks: the key of an entry, or else all of it. -/
def markedPart (line : Line) : List Char :=
  if IsEntry line.text then keyPart line.text else line.text

lemma isPrefix_markedPart (line : Line) : markedPart line <+: line.text := by
  unfold markedPart
  split
  · exact List.takeWhile_prefix _
  · exact List.prefix_rfl

lemma OpensSection.markedPart_eq {lines : List Line} {row : Row}
    (h : OpensSection lines row) : markedPart row.line = row.line.text := by
  obtain ⟨-, name, hname⟩ := h
  exact if_neg hname.not_entry

lemma HoldsKey.markedPart_eq {lines : List Line} {row : Row} (h : HoldsKey lines row) :
    markedPart row.line = keyPart row.line.text :=
  if_pos h.2.1

lemma OpensSection.covers_header {text : List Char} {row : Row}
    (h : OpensSection (physicalLines text) row) :
    Covers text (row.line.trimmedSpan row.line.text) (trim row.line.text) := by
  obtain ⟨⟨hline, -⟩, name, hname⟩ := h
  exact covers_trimmedSpan hline List.prefix_rfl hname.trim_ne_nil

lemma HoldsKey.covers_key {text : List Char} {row : Row} (h : HoldsKey (physicalLines text) row) :
    Covers text (row.line.trimmedSpan (keyPart row.line.text)) (trim (keyPart row.line.text)) := by
  obtain ⟨⟨hline, -⟩, -, hkey⟩ := h
  exact covers_trimmedSpan hline (List.takeWhile_prefix _) hkey

namespace Document.HasLayout

variable {text : List Char} {lines : List Line} {document : Document}
  {layout : List (Row × List Row)}

/-- The spans of a document are those of the lines of its layout. -/
lemma spans_eq (h : document.HasLayout lines layout) :
    document.spans = (layoutLines layout).map fun row => row.line.trimmedSpan (markedPart row.line) := by
  rw [Document.spans, h.sections_eq, List.flatMap_map, layoutLines, List.map_flatMap]
  refine List.flatMap_congr fun block hblock => ?_
  have hkeys : block.2.map (fun row => row.line.trimmedSpan (markedPart row.line))
      = block.2.map fun row => row.line.trimmedSpan (keyPart row.line.text) :=
    List.map_congr_left fun row hrow => by rw [(h.under hblock hrow).holdsKey.markedPart_eq]
  rw [List.map_cons, (h.opensSection hblock).markedPart_eq, hkeys]
  simp [sectionOn, directiveOn, Function.comp_def]

lemma spans_separated (h : document.HasLayout (physicalLines text) layout) :
    document.spans.Pairwise (Separated text) := by
  rw [h.spans_eq, List.pairwise_map]
  refine h.increasing.imp_of_mem fun ha hb hlt => ?_
  exact separated_trimmedSpan hlt (h.standsAlone ha).1 (h.standsAlone hb).1
    (isPrefix_markedPart _) (isPrefix_markedPart _)

lemma covers_section (h : document.HasLayout (physicalLines text) layout) {sec : Section}
    (hsec : sec ∈ document.sections) : Covers text sec.span ('[' :: (sec.name.toList ++ [']'])) := by
  rw [h.sections_eq, List.mem_map] at hsec
  obtain ⟨block, hblock, rfl⟩ := hsec
  have hcovers := (h.opensSection hblock).covers_header
  obtain ⟨-, name, hname⟩ := h.opensSection hblock
  rw [hname.trim_eq] at hcovers
  simpa [sectionOn, hname.tail_dropLast] using hcovers

lemma covers_directive (h : document.HasLayout (physicalLines text) layout) {sec : Section}
    (hsec : sec ∈ document.sections) {directive : Directive} (hdirective : directive ∈ sec.directives) :
    Covers text directive.keySpan directive.key.toList := by
  rw [h.sections_eq, List.mem_map] at hsec
  obtain ⟨block, hblock, rfl⟩ := hsec
  obtain ⟨row, hrow, rfl⟩ := List.mem_map.1 hdirective
  rw [directiveOn, String.toList_ofList]
  exact (h.under hblock hrow).holdsKey.covers_key

/-- Every span of the document covers something. -/
lemma exists_covers (h : document.HasLayout (physicalLines text) layout) {span : Span}
    (hspan : span ∈ document.spans) : ∃ part, Covers text span part := by
  obtain ⟨sec, hsec, hspan⟩ := List.mem_flatMap.1 hspan
  rcases List.mem_cons.1 hspan with rfl | hspan
  · exact ⟨_, h.covers_section hsec⟩
  · obtain ⟨directive, hdirective, rfl⟩ := List.mem_map.1 hspan
    exact ⟨_, h.covers_directive hsec hdirective⟩

end Document.HasLayout

/-! ### All spans -/

namespace Registry

/-- The directives of a section that are out of place in it. -/
def misplaced (registry : Registry) (sec : Section) : List Directive :=
  match registry.classify sec.name with
  | .known type => sec.directives.filter (flags type)
  | .exempt | .unknown => []

lemma validateSection_eq (registry : Registry) (sec : Section) :
    registry.validateSection sec =
      (registry.misplaced sec).map fun directive => .unrecognized directive.keySpan := by
  unfold validateSection misplaced
  rcases registry.classify sec.name with _ | type | _
  · rfl
  · rfl
  · rfl

/-- The diagnostics of a document mark the directives that are out of place, section by section. -/
lemma validate_eq (registry : Registry) (document : Document) :
    registry.validate document = document.sections.flatMap fun sec =>
      (registry.misplaced sec).map fun directive => .unrecognized directive.keySpan :=
  List.flatMap_congr fun sec _ => registry.validateSection_eq sec

lemma misplaced_sublist (registry : Registry) (sec : Section) :
    (registry.misplaced sec).Sublist sec.directives := by
  unfold misplaced
  split
  · exact List.filter_sublist
  · exact List.nil_sublist _
  · exact List.nil_sublist _

end Registry

/-- A diagnostic marks the key of a directive. -/
lemma exists_directive_of_mem_validate {registry : Registry} {document : Document}
    {diagnostic : Diagnostic} (h : diagnostic ∈ registry.validate document) :
    ∃ sec ∈ document.sections, ∃ directive ∈ sec.directives,
      diagnostic = .unrecognized directive.keySpan := by
  rw [Registry.validate_eq] at h
  obtain ⟨sec, hsec, hmem⟩ := List.mem_flatMap.1 h
  obtain ⟨directive, hdirective, rfl⟩ := List.mem_map.1 hmem
  exact ⟨sec, hsec, directive, (registry.misplaced_sublist sec).subset hdirective, rfl⟩

/-- What the diagnostics of a text mark are the keys of the directives that are out of place. -/
lemma slices_validate (registry : Registry) (text : List Char) :
    ((registry.validate (Document.parse text)).map fun diagnostic => diagnostic.span.slice? text) =
      (((Document.parse text).sections.flatMap registry.misplaced).map (·.key)).map fun key =>
        some key.toList := by
  obtain ⟨layout, h⟩ := exists_layout text
  rw [Registry.validate_eq, List.map_flatMap, List.map_map, List.map_flatMap]
  refine List.flatMap_congr fun sec hsec => ?_
  rw [List.map_map]
  refine List.map_congr_left fun directive hdirective => ?_
  have hmem := (registry.misplaced_sublist sec).subset hdirective
  exact (h.covers_directive hsec hmem).slice_eq

/-- **The spans of a document are exact and in order.**  The span of a section covers its header and
that of a directive its key.  Any two spans of the document are separated by a line feed, in the
order in which they are listed, so the keys of a section stand behind its header and before the
headers that follow.  The ends of the span of a diagnostic are in order, and it has a slice. -/
theorem parse_spans_exact (text : List Char) :
    (∀ sec ∈ (Document.parse text).sections,
      Covers text sec.span ('[' :: (sec.name.toList ++ [']'])) ∧
        ∀ directive ∈ sec.directives, Covers text directive.keySpan directive.key.toList) ∧
    (Document.parse text).spans.Pairwise (Separated text) ∧
    (∀ sec ∈ (Document.parse text).sections, ∀ directive ∈ sec.directives,
      sec.span.stop < directive.keySpan.start) ∧
    ((Document.parse text).sections.Pairwise fun sec next => ∀ directive ∈ sec.directives,
      directive.keySpan.stop < next.span.start) ∧
    ∀ (registry : Registry), ∀ diagnostic ∈ registry.validate (Document.parse text),
      diagnostic.span.start ≤ diagnostic.span.stop ∧
        ∃ part, diagnostic.span.slice? text = some part := by
  obtain ⟨layout, h⟩ := exists_layout text
  have hseparated := h.spans_separated
  obtain ⟨hwithin, hacross⟩ := List.pairwise_flatMap.1 hseparated
  refine ⟨fun sec hsec => ⟨h.covers_section hsec, fun directive => h.covers_directive hsec⟩,
    hseparated, ?_, ?_, ?_⟩
  · intro sec hsec directive hdirective
    have hbehind := (List.pairwise_cons.1 (hwithin sec hsec)).1 directive.keySpan
    exact (hbehind (List.mem_map_of_mem hdirective)).stop_lt_start
  · refine hacross.imp fun hspans directive hdirective => ?_
    exact (hspans _ (List.mem_cons_of_mem _ (List.mem_map_of_mem hdirective)) _
      List.mem_cons_self).stop_lt_start
  · intro registry diagnostic hdiagnostic
    obtain ⟨sec, hsec, directive, hdirective, rfl⟩ := exists_directive_of_mem_validate hdiagnostic
    have hcovers := h.covers_directive hsec hdirective
    exact ⟨hcovers.start_lt_stop.le, _, hcovers.slice_eq⟩

/-- A text with a byte order mark, carriage returns and characters of several bytes. -/
theorem parse_spans_exact_marked :
    ⟨"Ü", ⟨4, 8⟩, [⟨"é k", ⟨12, 16⟩, "1"⟩]⟩ ∈
        (Document.parse "\uFEFF [Ü]\r\n  é k =1\r\n".toList).sections ∧
      Covers "\uFEFF [Ü]\r\n  é k =1\r\n".toList ⟨4, 8⟩ "[Ü]".toList ∧
      Covers "\uFEFF [Ü]\r\n  é k =1\r\n".toList ⟨12, 16⟩ "é k".toList := by
  have hmem : ⟨"Ü", ⟨4, 8⟩, [⟨"é k", ⟨12, 16⟩, "1"⟩]⟩ ∈
      (Document.parse "\uFEFF [Ü]\r\n  é k =1\r\n".toList).sections := by
    decide
  obtain ⟨hheader, hkeys⟩ := (parse_spans_exact _).1 _ hmem
  exact ⟨hmem, hheader, hkeys ⟨"é k", ⟨12, 16⟩, "1"⟩ (by decide)⟩

end UnitCheck
