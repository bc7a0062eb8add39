/-
Documents that grow.

When a text goes on behind a line feed, the reader adds pieces behind those that it has.  All that
it gathered stays, except at the very end: the last section can get further directives, and the
last directive of the text so far can get a longer value, if its last line asks to be continued.
`GrowsAtEnd` says this of a list.  `Gathered.GrowsTo` says it of all that is gathered from the same
pieces with and without others behind them, and each piece in front keeps it up
(`Gathered.GrowsTo.cons`).
-/
import UnitCheck.Proofs.Document.Append

namespace UnitCheck

/-- The later list begins with all elements of the earlier one but the last, then comes an element
that is related to the last one, and then anything. -/
def GrowsAtEnd {α : Type} (r : α → α → Prop) (earlier later : List α) : Prop :=
  ∀ front last, earlier = front ++ [last] →
    ∃ last' rest, later = front ++ last' :: rest ∧ r last last'

/-- The same key in the same place, with a value that may go on. -/
structure Directive.GrowsTo (directive later : Directive) : Prop where
  key_eq : later.key = directive.key
  keySpan_eq : later.keySpan = directive.keySpan
  value_prefix : directive.value.toList <+: later.value.toList

/-- The same header in the same place, with directives that may go on. -/
structure Section.GrowsTo (sec later : Section) : Prop where
  name_eq : later.name = sec.name
  span_eq : later.span = sec.span
  directives : GrowsAtEnd Directive.GrowsTo sec.directives later.directives

/-! ### Lists that grow at the end -/

namespace GrowsAtEnd

variable {α : Type} {r : α → α → Prop} {earlier later : List α}

lemma nil : GrowsAtEnd r [] later := by
  intro front last h
  exact absurd h (by simp)

lemma singleton {x y : α} (h : r x y) : GrowsAtEnd r [x] (y :: later) := by
  intro front last heq
  cases front with
  | nil =>
    obtain rfl : x = last := by simpa using heq
    exact ⟨y, later, rfl, h⟩
  | cons z front => exact absurd heq (by simp)

lemma cons (h : GrowsAtEnd r earlier later) (hne : earlier ≠ []) (x : α) :
    GrowsAtEnd r (x :: earlier) (x :: later) := by
  intro front last heq
  cases front with
  | nil => exact absurd (List.cons.inj heq).2 hne
  | cons z front =>
    obtain ⟨rfl, htail⟩ := List.cons.inj heq
    obtain ⟨last', rest, rfl, hlast⟩ := h front last htail
    exact ⟨last', rest, rfl, hlast⟩

/-- What all related elements have in common goes on, too. -/
lemma map_prefix {β : Type} {f : α → β} (h : GrowsAtEnd r earlier later)
    (hf : ∀ x y, r x y → f y = f x) : earlier.map f <+: later.map f := by
  rcases List.eq_nil_or_concat' earlier with rfl | ⟨front, last, rfl⟩
  · exact List.nil_prefix
  · obtain ⟨last', rest, rfl, hlast⟩ := h front last rfl
    refine ⟨rest.map f, ?_⟩
    simp [hf last last' hlast]

lemma dropLast_prefix (h : GrowsAtEnd r earlier later) : earlier.dropLast <+: later := by
  rcases List.eq_nil_or_concat' earlier with rfl | ⟨front, last, rfl⟩
  · exact List.nil_prefix
  · obtain ⟨last', rest, rfl, -⟩ := h front last rfl
    rw [List.dropLast_concat]
    exact List.prefix_append _ _

end GrowsAtEnd

/-! ### What is gathered -/

lemma Directive.GrowsTo.rfl {directive : Directive} : directive.GrowsTo directive :=
  ⟨Eq.refl _, Eq.refl _, List.prefix_rfl⟩

lemma intercalate_prefix_append (separator : List Char) (a b : List (List Char)) :
    separator.intercalate a <+: separator.intercalate (a ++ b) := by
  induction a with
  | nil => exact List.nil_prefix
  | cons part a ih =>
    rw [List.cons_append]
    cases a with
    | nil =>
      rw [List.intercalate_singleton, List.nil_append]
      cases b with
      | nil => simp
      | cons part' b =>
        rw [List.intercalate_cons_cons, List.append_assoc]
        exact List.prefix_append _ _
    | cons part' a =>
      rw [List.cons_append, List.intercalate_cons_cons, List.intercalate_cons_cons]
      exact (List.prefix_append_right_inj _).2 ih

/-- A value goes on if further segments are joined to it. -/
lemma joinSegments_prefix {a b : List (List Char)} (h : a <+: b) :
    joinSegments a <+: joinSegments b := by
  obtain ⟨rest, rfl⟩ := h
  unfold joinSegments
  rw [List.filter_append]
  exact intercalate_prefix_append _ _ _

/-- An entry takes the segments that wait for it. -/
lemma Gathered.cons_entry (gathered : Gathered) {key : List Char} (hkey : key ≠ []) (span : Span)
    (segment : List Char) :
    gathered.cons (.entry key span segment) =
      { gathered with
        segments := []
        directives :=
          ⟨String.ofList key, span, String.ofList (joinSegments (segment :: gathered.segments))⟩ ::
            gathered.directives } := by
  simp only [cons, if_neg hkey]

/-- What was gathered goes on at its end.  The segments that wait for an entry can only go on as
long as there are no directives or sections behind them, and the directives only as long as there
are no sections. -/
structure Gathered.GrowsTo (gathered later : Gathered) : Prop where
  segments_prefix : gathered.segments <+: later.segments
  segments_eq : gathered.directives ≠ [] ∨ gathered.sections ≠ [] →
    later.segments = gathered.segments
  directives : GrowsAtEnd Directive.GrowsTo gathered.directives later.directives
  directives_eq : gathered.sections ≠ [] → later.directives = gathered.directives
  sections : GrowsAtEnd Section.GrowsTo gathered.sections later.sections

namespace Gathered.GrowsTo

variable {gathered later : Gathered}

lemma empty : ({} : Gathered).GrowsTo later where
  segments_prefix := List.nil_prefix
  segments_eq := by simp
  directives := .nil
  directives_eq := by simp
  sections := .nil

/-- A header closes the directives behind it: only those of the last section go on. -/
lemma header (h : gathered.GrowsTo later) (name : List Char) (span : Span) :
    (gathered.cons (.header name span)).GrowsTo (later.cons (.header name span)) where
  segments_prefix := List.prefix_rfl
  segments_eq := fun _ => rfl
  directives := .nil
  directives_eq := fun _ => rfl
  sections := by
    show GrowsAtEnd _ (_ :: gathered.sections) (_ :: later.sections)
    by_cases hsections : gathered.sections = []
    · rw [hsections]
      exact .singleton ⟨rfl, rfl, h.directives⟩
    · -- a section stands behind this one, so its directives are all there
      rw [h.directives_eq hsections]
      exact h.sections.cons hsections _

/-- An entry is the last directive if nothing stands behind it, and else its value is the same. -/
lemma entry (h : gathered.GrowsTo later) {key : List Char} (hkey : key ≠ []) (span : Span)
    (segment : List Char) :
    (gathered.cons (.entry key span segment)).GrowsTo (later.cons (.entry key span segment)) := by
  rw [cons_entry gathered hkey, cons_entry later hkey]
  by_cases hlast : gathered.directives = [] ∧ gathered.sections = []
  · obtain ⟨hdirectives, hsections⟩ := hlast
    have hvalue := joinSegments_prefix ((List.prefix_cons_inj segment).2 h.segments_prefix)
    refine ⟨List.prefix_rfl, fun _ => rfl, ?_, fun hne => absurd hsections hne, h.sections⟩
    rw [hdirectives]
    exact .singleton ⟨rfl, rfl, by simpa using hvalue⟩
  · -- something stands behind the entry, so its segments are all there
    have hsegments : later.segments = gathered.segments := by
      rw [not_and_or] at hlast
      exact h.segments_eq hlast
    rw [hsegments]
    refine ⟨List.prefix_rfl, fun _ => rfl, ?_, fun hne => ?_, h.sections⟩
    · by_cases hdirectives : gathered.directives = []
      · rw [hdirectives]
        exact .singleton .rfl
      · exact h.directives.cons hdirectives _
    · show _ :: later.directives = _ :: gathered.directives
      rw [h.directives_eq hne]

/-- An entry without a key is dropped, with the segments that wait for it. -/
lemma keyless (h : gathered.GrowsTo later) (span : Span) (segment : List Char) :
    (gathered.cons (.entry [] span segment)).GrowsTo (later.cons (.entry [] span segment)) where
  segments_prefix := List.prefix_rfl
  segments_eq := fun _ => rfl
  directives := h.directives
  directives_eq := h.directives_eq
  sections := h.sections

lemma segment (h : gathered.GrowsTo later) (text : List Char) :
    (gathered.cons (.segment text)).GrowsTo (later.cons (.segment text)) where
  segments_prefix := (List.prefix_cons_inj text).2 h.segments_prefix
  segments_eq := fun hne => congrArg (text :: ·) (h.segments_eq hne)
  directives := h.directives
  directives_eq := h.directives_eq
  sections := h.sections

/-- One more piece in front of both. -/
lemma cons (h : gathered.GrowsTo later) (piece : Piece) :
    (gathered.cons piece).GrowsTo (later.cons piece) := by
  cases piece with
  | header name span => exact h.header name span
  | entry key span segment =>
    by_cases hkey : key = []
    · rw [hkey]
      exact h.keyless span segment
    · exact h.entry hkey span segment
  | segment text => exact h.segment text

end Gathered.GrowsTo

/-- What is gathered from pieces goes on if there are others behind them. -/
lemma foldr_cons_growsTo (ps : List Piece) (behind : Gathered) :
    (ps.foldr Gathered.cons {}).GrowsTo (ps.foldr Gathered.cons behind) := by
  induction ps with
  | nil => exact .empty
  | cons piece ps ih => exact ih.cons piece

/-! ### Documents -/

/-- The later document goes on where the earlier one ends.  Its headers begin with those of the
earlier one.  All sections of the earlier one but the last are the same, and the last one can get
further directives.  The directives of the earlier document come first, and all but the last of
them are the same, which can get a longer value. -/
structure Document.GrowsTo (document later : Document) : Prop where
  headers : document.sections.map (fun sec => (sec.name, sec.span)) <+:
    later.sections.map fun sec => (sec.name, sec.span)
  closed_sections : document.sections.dropLast <+: later.sections
  last_section : ∀ front last, document.sections = front ++ [last] →
    ∃ last' rest, later.sections = front ++ last' :: rest ∧
      last.directives.map (fun directive => (directive.key, directive.keySpan)) <+:
        last'.directives.map fun directive => (directive.key, directive.keySpan)
  directives : GrowsAtEnd Directive.GrowsTo document.directives later.directives

lemma Section.GrowsTo.keys_prefix {sec later : Section} (h : sec.GrowsTo later) :
    sec.directives.map (fun directive => (directive.key, directive.keySpan)) <+:
      later.directives.map fun directive => (directive.key, directive.keySpan) :=
  h.directives.map_prefix fun _ _ hdirective => by rw [hdirective.key_eq, hdirective.keySpan_eq]

/-- If the sections go on at the end, so do their directives. -/
lemma GrowsAtEnd.flatMap_directives {sections later : List Section}
    (h : GrowsAtEnd Section.GrowsTo sections later) :
    GrowsAtEnd Directive.GrowsTo (sections.flatMap (·.directives))
      (later.flatMap (·.directives)) := by
  rcases List.eq_nil_or_concat' sections with rfl | ⟨front, last, rfl⟩
  · exact .nil
  obtain ⟨last', rest, rfl, hlast⟩ := h front last rfl
  intro ds d hds
  simp only [List.flatMap_append, List.flatMap_cons, List.flatMap_nil, List.append_nil] at hds ⊢
  rcases List.eq_nil_or_concat' last.directives with hnil | ⟨own, e, hown⟩
  · -- the last section is empty, so the last directive stands in an earlier one
    rw [hnil, List.append_nil] at hds
    rw [hds]
    exact ⟨d, last'.directives ++ rest.flatMap (·.directives), by simp, .rfl⟩
  · obtain ⟨e', more, hlater, he⟩ := hlast.directives own e hown
    rw [hown, ← List.append_assoc] at hds
    obtain ⟨rfl, hlast⟩ := List.append_inj' hds rfl
    obtain rfl : e = d := by simpa using hlast
    exact ⟨e', more ++ rest.flatMap (·.directives), by simp [hlater], he⟩

lemma GrowsAtEnd.document_growsTo {document later : Document}
    (h : GrowsAtEnd Section.GrowsTo document.sections later.sections) : document.GrowsTo later where
  headers := h.map_prefix fun _ _ hsec => by rw [hsec.name_eq, hsec.span_eq]
  closed_sections := h.dropLast_prefix
  last_section := by
    intro front last heq
    obtain ⟨last', rest, hlater, hlast⟩ := h front last heq
    exact ⟨last', rest, hlater, hlast.keys_prefix⟩
  directives := h.flatMap_directives

/-! ### Diagnostics -/

lemma Registry.validateSection_prefix (registry : Registry) {sec later : Section}
    (h : sec.GrowsTo later) : registry.validateSection sec <+: registry.validateSection later := by
  -- only the keys and their spans count
  have hjudged : ∀ (type : SectionType) (directives : List Directive),
      (directives.filter (flags type)).map
          (fun directive => Diagnostic.unrecognized directive.keySpan)
        = ((directives.map fun directive => (directive.key, directive.keySpan)).filter
            fun place => !isVendor place.1 && !type.allows place.1).map
              fun place => .unrecognized place.2 := by
    intro type directives
    rw [List.filter_map, List.map_map]
    rfl
  unfold validateSection
  rw [h.name_eq]
  split
  · rw [hjudged, hjudged]
    exact (h.keys_prefix.filter _).map _
  · exact List.prefix_rfl
  · exact List.prefix_rfl

lemma Registry.validate_prefix (registry : Registry) {document later : Document}
    (h : GrowsAtEnd Section.GrowsTo document.sections later.sections) :
    registry.validate document <+: registry.validate later := by
  unfold validate
  rcases List.eq_nil_or_concat' document.sections with hnil | ⟨front, last, heq⟩
  · rw [hnil]
    exact List.nil_prefix
  · obtain ⟨last', rest, hlater, hlast⟩ := h front last heq
    rw [heq, hlater]
    simp only [List.flatMap_append, List.flatMap_cons, List.flatMap_nil, List.append_nil]
    refine (List.prefix_append_right_inj _).2 ?_
    exact (registry.validateSection_prefix hlast).trans (List.prefix_append _ _)

/-! ### Texts -/

/-- What stands behind a line feed only adds to the sections before it. -/
lemma growsAtEnd_parse_append_newline (text more : List Char) :
    GrowsAtEnd Section.GrowsTo (Document.parse text).sections
      (Document.parse (text ++ '\n' :: more)).sections := by
  rw [parse_eq_ofPieces_physicalLines, parse_eq_ofPieces_physicalLines,
    physicalLines_append_newline, pieces_append, Document.ofPieces, Document.ofPieces,
    List.foldr_append]
  exact (foldr_cons_growsTo _ _).sections

/-- **Further text never changes what was found.**  If a text ends in a line feed, then with any
text behind it the diagnostics begin with those of the text alone, and the document goes on where
that of the text alone ends. -/
theorem parse_append_grows (text more : List Char) (hend : text.getLast? = some '\n') :
    (∀ registry : Registry, registry.validate (Document.parse text) <+:
      registry.validate (Document.parse (text ++ more))) ∧
    (Document.parse text).GrowsTo (Document.parse (text ++ more)) := by
  obtain ⟨front, rfl⟩ := List.getLast?_eq_some_iff.1 hend
  have hgrows := growsAtEnd_parse_append_newline front more
  rw [List.append_assoc, List.singleton_append, parse_concat_newline]
  exact ⟨fun registry => registry.validate_prefix hgrows, hgrows.document_growsTo⟩

/-- A text that ends in the middle of a value, with the rest of the value and one more directive
behind it. -/
theorem parse_append_grows_continued :
    "[A]\na=1\nk=v\\\n".toList.getLast? = some '\n' ∧
    (Document.parse "[A]\na=1\nk=v\\\n".toList).directives.map (·.value) = ["1", "v"] ∧
    (Document.parse ("[A]\na=1\nk=v\\\n".toList ++ "w\nb=2\n".toList)).directives.map (·.value)
      = ["1", "v w", "2"] ∧
    (Document.parse "[A]\na=1\nk=v\\\n".toList).GrowsTo
      (Document.parse ("[A]\na=1\nk=v\\\n".toList ++ "w\nb=2\n".toList)) :=
  ⟨by decide, by decide, by decide, (parse_append_grows _ _ (by decide)).2⟩

end UnitCheck
