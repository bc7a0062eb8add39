/-
Replaced values.

The value on the line of an entry is replaced by another one.  The reader takes two things from that
line to the others: whether the entry asks for a continuation, and how long the line is.  So if the
new value asks for a continuation just as the old one did, the two texts contribute the same pieces
up to one segment and to the places of what stands behind the line.

To compare the two documents, the value of the directive on that line is hidden in both
(`Document.hideValue`).  Gathering keeps two runs alike that are alike when the value is hidden
(`Gathered.hideValue_cons_congr`), and validation does not see that it is hidden
(`Registry.validate_hideValue`).
-/
import Mathlib.Data.List.Forall2
import UnitCheck.Proofs.Document.Append
import UnitCheck.Proofs.Document.Values

namespace UnitCheck

/-- The second text is the first one with another value on the line of an entry.  That line does not
belong to a continuation, and the new value ends in a backslash if and only if the old one does. -/
structure ReplacesValue (text : List Char) (row : Row) (value text' : List Char) : Prop where
  standsAlone : StandsAlone (physicalLines text) row
  isEntry : IsEntry row.line.text
  newline_not_mem : '\n' ∉ value
  asks_alike : EndsInBackslash (trim value) ↔ EndsInBackslash (trim (valuePart row.line.text))
  exists_parts : ∃ before after, text = before ++ (row.line.text ++ after) ∧
    byteLength before = row.line.offset ∧
    text' = before ++ ((keyPart row.line.text ++ '=' :: value) ++ after)

/-- The place of the key on the line of an entry. -/
def Row.keySpan (row : Row) : Span :=
  row.line.trimmedSpan (keyPart row.line.text)

/-- The offset behind the end of a line. -/
def Row.stop (row : Row) : Nat :=
  row.line.offset + byteLength row.line.text

/-- Where an offset moves if the value on a line is replaced: offsets up to the end of the line
stay, those behind it move by the change in length. -/
def movedByValue (row : Row) (value : List Char) (offset : Nat) : Nat :=
  if offset ≤ row.stop then offset
  else offset - byteLength (valuePart row.line.text) + byteLength value

/-- The directive without its value, if its key stands at the given place. -/
def Directive.hideValue (place : Span) (directive : Directive) : Directive :=
  if directive.keySpan = place then { directive with value := "" } else directive

/-- The section without the value of the key at the given place. -/
def Section.hideValue (place : Span) (sec : Section) : Section :=
  { sec with directives := sec.directives.map (Directive.hideValue place) }

/-- The document without the value of the key at the given place. -/
def Document.hideValue (place : Span) (document : Document) : Document :=
  ⟨document.sections.map (Section.hideValue place)⟩

/-- What was gathered, without the value of the key at the given place. -/
def Gathered.hideValue (place : Span) (gathered : Gathered) : Gathered where
  segments := gathered.segments
  directives := gathered.directives.map (Directive.hideValue place)
  sections := gathered.sections.map (Section.hideValue place)

/-! ### Gathering with a hidden value -/

section Gathering

variable {place : Span}

@[simp] lemma Directive.hideValue_key (directive : Directive) :
    (directive.hideValue place).key = directive.key := by
  unfold hideValue
  split <;> rfl

@[simp] lemma Directive.hideValue_keySpan (directive : Directive) :
    (directive.hideValue place).keySpan = directive.keySpan := by
  unfold hideValue
  split <;> rfl

@[simp] lemma Directive.hideValue_hideValue (directive : Directive) :
    (directive.hideValue place).hideValue place = directive.hideValue place := by
  by_cases h : directive.keySpan = place
  · simp [hideValue, h]
  · simp [hideValue, h]

@[simp] lemma Section.hideValue_hideValue (sec : Section) :
    (sec.hideValue place).hideValue place = sec.hideValue place := by
  simp [hideValue]

/-- To gather one more piece in front, the hidden value is not needed. -/
lemma Gathered.hideValue_cons_hideValue (piece : Piece) (gathered : Gathered) :
    ((gathered.hideValue place).cons piece).hideValue place =
      (gathered.cons piece).hideValue place := by
  cases piece with
  | header name span => simp [cons, hideValue, Section.hideValue]
  | entry key span segment =>
    by_cases hkey : key = []
    · simp [cons, hideValue, hkey]
    · simp [cons, hideValue, hkey]
  | segment text => simp [cons, hideValue]

/-- What is alike with the value hidden stays alike when one more piece is gathered. -/
lemma Gathered.hideValue_cons_congr (piece : Piece) {a b : Gathered}
    (h : a.hideValue place = b.hideValue place) :
    (a.cons piece).hideValue place = (b.cons piece).hideValue place := by
  rw [← hideValue_cons_hideValue, h, hideValue_cons_hideValue]

lemma hideValue_foldr_cons_congr (ps : List Piece) {a b : Gathered}
    (h : a.hideValue place = b.hideValue place) :
    (ps.foldr Gathered.cons a).hideValue place = (ps.foldr Gathered.cons b).hideValue place := by
  -- the pieces are gathered from the back, and each one keeps the two sides alike
  induction ps with
  | nil => exact h
  | cons piece ps ih => exact Gathered.hideValue_cons_congr piece ih

/-- The first segment of a value counts for the value only. -/
lemma Gathered.hideValue_cons_entry (place : Span) (key a b : List Char) (gathered : Gathered) :
    (gathered.cons (.entry key place a)).hideValue place =
      (gathered.cons (.entry key place b)).hideValue place := by
  by_cases hkey : key = []
  · simp [cons, hkey]
  · simp [cons, hideValue, Directive.hideValue, hkey]

/-- If pieces differ in the first segment of one value, their documents differ in that value
only. -/
lemma hideValue_ofPieces_entry (ps qs : List Piece) (key a b : List Char) :
    (Document.ofPieces (ps ++ .entry key place a :: qs)).hideValue place =
      (Document.ofPieces (ps ++ .entry key place b :: qs)).hideValue place := by
  have hgathered := hideValue_foldr_cons_congr ps
    (Gathered.hideValue_cons_entry place key a b (qs.foldr Gathered.cons {}))
  have hsections := congrArg Gathered.sections hgathered
  simp only [Document.ofPieces, Document.hideValue, List.foldr_append, List.foldr_cons]
  exact congrArg Document.mk hsections

end Gathering

/-! ### Validating with a hidden value -/

lemma Registry.misplaced_hideValue (registry : Registry) (place : Span) (sec : Section) :
    registry.misplaced (sec.hideValue place) =
      (registry.misplaced sec).map (Directive.hideValue place) := by
  unfold misplaced
  rw [Section.hideValue]
  rcases registry.classify sec.name with _ | type | _
  · rfl
  · have hflags : flags type ∘ Directive.hideValue place = flags type := by
      funext directive
      simp [flags]
    simp only [List.filter_map, hflags]
  · rfl

/-- Which directives are flagged does not depend on a value. -/
lemma Registry.validate_hideValue (registry : Registry) (place : Span) (document : Document) :
    registry.validate (document.hideValue place) = registry.validate document := by
  rw [validate_eq, Document.hideValue, List.flatMap_map, validate_eq]
  refine List.flatMap_congr fun sec _ => ?_
  rw [misplaced_hideValue, List.map_map]
  exact List.map_congr_left fun directive _ => by simp

/-- Which keys are out of place does not depend on a value. -/
lemma Registry.keys_misplaced_hideValue (registry : Registry) (place : Span) (document : Document) :
    ((document.hideValue place).sections.flatMap registry.misplaced).map (·.key) =
      (document.sections.flatMap registry.misplaced).map (·.key) := by
  rw [Document.hideValue, List.flatMap_map, List.map_flatMap, List.map_flatMap]
  refine List.flatMap_congr fun sec _ => ?_
  rw [misplaced_hideValue, List.map_map]
  exact List.map_congr_left fun directive _ => by simp

/-- A value can be hidden before or after the spans are moved, if nothing else moves to its
place. -/
lemma hideValue_mapSpans {move : Nat → Nat} {place : Span}
    (h : ∀ span : Span, span.map move = place ↔ span = place) (document : Document) :
    (document.mapSpans move).hideValue place = (document.hideValue place).mapSpans move := by
  have hdirective : ∀ directive : Directive,
      (directive.mapSpan move).hideValue place = (directive.hideValue place).mapSpan move := by
    intro directive
    by_cases hplace : directive.keySpan = place
    · simp [Directive.mapSpan, Directive.hideValue, hplace, (h place).2 rfl]
    · simp [Directive.mapSpan, Directive.hideValue, hplace, h]
  simp [Document.mapSpans, Document.hideValue, Section.mapSpans, Section.hideValue, hdirective]

/-! ### Replacing a line -/

/-- A line begins where a physical line stands. -/
lemma atLineStart_of_physicalLines {text before after : List Char} {i : Nat} {line : Line}
    (h : (physicalLines text)[i]? = some line) (htext : text = before ++ after)
    (hoffset : byteLength before = line.offset) : AtLineStart before after := by
  rcases Nat.eq_zero_or_pos i with rfl | hpos
  · -- the first line stands behind the mark
    obtain ⟨mark, hmark, hsize⟩ := exists_mark_append text
    obtain ⟨first, rest, hfirst⟩ :=
      List.exists_cons_of_ne_nil (List.splitOn_ne_nil '\n' (withoutMark text))
    rw [physicalLines, hfirst] at h
    have hline : byteLength text - byteLength (withoutMark text) = line.offset :=
      congrArg Line.offset (Option.some.inj h)
    obtain ⟨hbefore, hafter⟩ := append_inj_of_byteLength (htext.symm.trans hmark)
      (by rw [hoffset, hsize, hline])
    rw [htext] at hafter
    exact atLineStart_of_eq_withoutMark hafter
  · -- any other line stands behind the line feed of the line before
    obtain ⟨-, front, rest, hfront, hline, -⟩ := physicalLines_of_pos hpos h
    have hsplit : before ++ after = (front ++ ['\n']) ++ (line.text ++ rest) := by
      rw [← htext, hfront, List.append_assoc, List.singleton_append]
    obtain ⟨hbefore, -⟩ := append_inj_of_byteLength hsplit
      (by rw [hoffset, hline, byteLength_append, byteLength_newline_cons, byteLength_nil])
    exact Or.inr (Or.inr (by simp [hbefore]))

/-- The lines of a text with another first line. -/
lemma splitOn_append_of_splitOn {line other after : List Char} {behind : List (List Char)}
    (h : (line ++ after).splitOn '\n' = line :: behind) (hother : '\n' ∉ other) :
    (other ++ after).splitOn '\n' = other :: behind := by
  have hline : '\n' ∉ line := by
    have hmem : line ∈ (line ++ after).splitOn '\n' := by simp [h]
    exact not_mem_of_mem_splitOn hmem
  have hjoin := congrArg ['\n'].intercalate h
  rw [List.intercalate_splitOn] at hjoin
  cases behind with
  | nil =>
    obtain rfl : after = [] := by simpa using hjoin
    rw [List.append_nil]
    exact List.splitOn_eq_singleton hother
  | cons next behind =>
    obtain rfl : after = '\n' :: ['\n'].intercalate (next :: behind) := by
      simpa [List.intercalate_cons_cons] using hjoin
    rw [List.splitOn_append_cons_self_of_not_mem hline] at h
    rw [List.splitOn_append_cons_self_of_not_mem hother, (List.cons.inj h).2]

/-- The lines of a text in which one line may be another: those before it and the texts of those
behind it are the same. -/
lemma exists_lines_behind {text before after : List Char} {i : Nat} {line : Line}
    (h : (physicalLines text)[i]? = some line) (htext : text = before ++ (line.text ++ after))
    (hoffset : byteLength before = line.offset) :
    ∃ behind,
      (∀ earlier ∈ (physicalLines text).take i,
        earlier.offset + byteLength earlier.text < line.offset) ∧
      ∀ other, '\n' ∉ other →
        ((other ++ after).head? = some byteOrderMark →
          (line.text ++ after).head? = some byteOrderMark) →
        physicalLines (before ++ (other ++ after)) =
          (physicalLines text).take i ++ placeLines line.offset (other :: behind) := by
  obtain ⟨lines, hbounds, hlines⟩ := (atLineStart_of_physicalLines h htext hoffset).exists_lines
  obtain ⟨first, behind, hfirst⟩ :=
    List.exists_cons_of_ne_nil (List.splitOn_ne_nil '\n' (line.text ++ after))
  have hcut : physicalLines text = lines ++ placeLines line.offset (first :: behind) := by
    rw [htext, hlines _ id, hfirst, hoffset]
  -- the line is the one behind those lines, since it has the same offset
  have hfound : (physicalLines text)[lines.length]? = some ⟨line.offset, first⟩ := by
    rw [hcut, List.getElem?_append_right (le_refl _), Nat.sub_self]
    rfl
  obtain rfl : i = lines.length := number_eq_of_offset_eq h hfound rfl
  have hline : line.text = first := congrArg Line.text (Option.some.inj (h.symm.trans hfound))
  rw [← hline] at hfirst
  have htake : (physicalLines text).take lines.length = lines := by
    rw [hcut, List.take_left]
  rw [htake]
  refine ⟨behind, fun earlier hearlier => hoffset ▸ hbounds earlier hearlier, ?_⟩
  intro other hother hmark
  rw [hlines _ hmark, splitOn_append_of_splitOn hfirst hother, hoffset]

/-! ### The line of an entry -/

/-- Whether a line holds an entry does not depend on what stands behind the equals sign. -/
lemma IsEntry.replace {text : List Char} (h : IsEntry text) (value : List Char) :
    IsEntry (keyPart text ++ '=' :: value) := by
  -- the first character that is not blank is the equals sign or stands before it
  have hne : trim (keyPart text ++ ['=']) ≠ [] :=
    trim_ne_nil_iff.2 ⟨'=', by simp, by decide⟩
  have hhead : (trim (keyPart text ++ '=' :: value)).head? = (trim text).head? := by
    have hnew : keyPart text ++ '=' :: value = (keyPart text ++ ['=']) ++ value := by simp
    have hold : text = (keyPart text ++ ['=']) ++ valuePart text := by
      rw [← List.append_cons, keyPart_append_valuePart h.equals]
    rw [hnew, head?_trim_append hne]
    conv_rhs => rw [hold, head?_trim_append hne]
  refine ⟨fun hnil => ?_, ?_, ?_, by simp⟩
  · rw [hnil, List.head?_nil] at hhead
    exact h.not_blank (List.head?_eq_none_iff.1 hhead.symm)
  · rw [IsCommentLine, hhead]
    exact h.not_comment
  · rw [hhead]
    exact h.not_bracket

/-- The pieces of an entry and of the lines around it. -/
lemma pieces_append_entry {lines : List Line} (hasks : asksAfter false lines = false)
    {text : List Char} (h : IsEntry text) (offset : Nat) (behind : List (List Char)) :
    pieces false (lines ++ placeLines offset (text :: behind)) =
      pieces false lines ++
        .entry (trim (keyPart text)) (Line.trimmedSpan ⟨offset, text⟩ (keyPart text))
          (splitContinuation (trim (valuePart text))).1 ::
        pieces (splitContinuation (trim (valuePart text))).2
          (placeLines (offset + byteLength text + 1) behind) := by
  rw [pieces_append, hasks, placeLines, pieces_cons, readLine_of_entry ⟨offset, text⟩ h]
  rfl

lemma byteLength_append_equals (key value : List Char) :
    byteLength (key ++ '=' :: value) = byteLength key + 1 + byteLength value := by
  have hsize : '='.utf8Size = 1 := rfl
  rw [byteLength_append, byteLength_cons, hsize, Nat.add_assoc]

lemma Row.stop_eq {row : Row} (h : '=' ∈ row.line.text) :
    row.stop = row.line.offset + byteLength (keyPart row.line.text) + 1 +
      byteLength (valuePart row.line.text) := by
  have hsize := byteLength_append_equals (keyPart row.line.text) (valuePart row.line.text)
  rw [keyPart_append_valuePart h] at hsize
  unfold stop
  omega

/-- The key stands before the equals sign. -/
lemma Row.keySpan_le (row : Row) :
    row.keySpan.start ≤ row.keySpan.stop ∧
      row.keySpan.stop ≤ row.line.offset + byteLength (keyPart row.line.text) := by
  obtain ⟨blank, -, hblank⟩ := exists_indentation_append_trim (keyPart row.line.text)
  have hlength := congrArg byteLength hblank
  simp only [byteLength_append] at hlength
  simp only [Row.keySpan, Line.trimmedSpan, Span.ofLength]
  omega

/-- Nothing but the key moves to the place of the key. -/
lemma map_movedByValue_eq_keySpan_iff {row : Row} (h : '=' ∈ row.line.text) (value : List Char)
    (span : Span) : span.map (movedByValue row value) = row.keySpan ↔ span = row.keySpan := by
  have hkey := row.keySpan_le
  have hline := Row.stop_eq h
  have hmoved : ∀ m n, n ≤ row.line.offset + byteLength (keyPart row.line.text) →
      (movedByValue row value m = n ↔ m = n) := by
    intro m n hn
    unfold movedByValue
    split <;> omega
  have hplace : row.keySpan = ⟨row.keySpan.start, row.keySpan.stop⟩ := rfl
  obtain ⟨start, stop⟩ := span
  rw [Span.map, hplace, Span.mk.injEq, Span.mk.injEq, hmoved _ _ (by omega), hmoved _ _ hkey.2]

/-! ### The two texts -/

namespace ReplacesValue

variable {text value text' : List Char} {row : Row}

lemma newline_not_mem_line (h : ReplacesValue text row value text') :
    '\n' ∉ keyPart row.line.text ++ '=' :: value := by
  have hline := newline_not_mem_of_mem_physicalLines (List.mem_of_getElem? h.standsAlone.1)
  rw [← keyPart_append_valuePart h.isEntry.equals] at hline
  simp only [List.mem_append, List.mem_cons, not_or] at hline ⊢
  exact ⟨hline.1, hline.2.1, h.newline_not_mem⟩

/-- The new line begins as the old one does, so a mark in front is no other than before. -/
lemma head?_eq (h : ReplacesValue text row value text') (after : List Char) :
    (keyPart row.line.text ++ '=' :: value ++ after).head? = (row.line.text ++ after).head? := by
  conv_rhs => rw [← keyPart_append_valuePart h.isEntry.equals]
  cases keyPart row.line.text with
  | nil => rfl
  | cons c rest => rfl

/-- The lines of the two texts.  Those before the entry stay where they are. -/
lemma exists_lines (h : ReplacesValue text row value text') :
    ∃ lines behind, asksAfter false lines = false ∧
      List.Forall₂ (ReadAlike (movedByValue row value)) lines lines ∧
      physicalLines text = lines ++ placeLines row.line.offset (row.line.text :: behind) ∧
      physicalLines text' = lines ++
        placeLines row.line.offset ((keyPart row.line.text ++ '=' :: value) :: behind) := by
  obtain ⟨before, after, htext, hoffset, rfl⟩ := h.exists_parts
  obtain ⟨hline, hfresh⟩ := h.standsAlone
  obtain ⟨behind, hearlier, hlines⟩ := exists_lines_behind hline htext hoffset
  have hold := hlines _ (newline_not_mem_of_mem_physicalLines (List.mem_of_getElem? hline)) id
  rw [← htext] at hold
  refine ⟨(physicalLines text).take row.number, behind, ?_, ?_, hold,
    hlines _ h.newline_not_mem_line fun hmark => h.head?_eq after ▸ hmark⟩
  · have hle := (List.getElem?_eq_some_iff.1 hline).1.le
    rw [Bool.eq_false_iff, ne_eq, asksAfter_take_iff_swallowed hle]
    exact hfresh
  · rw [List.forall₂_same]
    intro earlier hmem continued
    refine readLine_moved _ (fun n hn => if_pos ?_) continued
    have hbefore := hearlier earlier hmem
    unfold Row.stop
    omega

/-- The lines behind the entry move by the change in length. -/
lemma forall₂_behind (h : ReplacesValue text row value text') (behind : List (List Char)) :
    List.Forall₂ (ReadAlike (movedByValue row value))
      (placeLines (row.line.offset + byteLength row.line.text + 1) behind)
      (placeLines (row.line.offset + byteLength (keyPart row.line.text ++ '=' :: value) + 1)
        behind) := by
  have hline : row.line.offset + byteLength row.line.text = _ := Row.stop_eq h.isEntry.equals
  rw [byteLength_append_equals, hline, ← Nat.add_assoc, ← Nat.add_assoc, Nat.add_right_comm,
    Nat.add_right_comm _ (byteLength value)]
  refine forall₂_placeLines_moved (fun k hk => ?_) behind _ (le_refl _)
  have hbehind : ¬ k + byteLength (valuePart row.line.text) ≤ row.stop := by
    rw [Row.stop_eq h.isEntry.equals]
    omega
  rw [movedByValue, if_neg hbehind, Nat.add_sub_cancel]

/-- With the value on the line hidden, the new document is the old one with its spans moved. -/
lemma hideValue_parse (h : ReplacesValue text row value text') :
    (Document.parse text').hideValue row.keySpan =
      ((Document.parse text).hideValue row.keySpan).mapSpans (movedByValue row value) := by
  obtain ⟨lines, behind, hasks, hfront, hold, hnew⟩ := h.exists_lines
  have hkey := equals_not_mem_keyPart row.line.text
  have hplace := map_movedByValue_eq_keySpan_iff h.isEntry.equals value
  have hmore : (splitContinuation (trim value)).2 =
      (splitContinuation (trim (valuePart row.line.text))).2 := by
    rw [Bool.eq_iff_iff, splitContinuation_snd, splitContinuation_snd, h.asks_alike]
  rw [← hideValue_mapSpans hplace, parse_eq_ofPieces_physicalLines, hnew,
    pieces_append_entry hasks (h.isEntry.replace value), keyPart_append_equals hkey,
    valuePart_append_equals hkey, hmore, pieces_of_readAlike (h.forall₂_behind behind),
    parse_eq_ofPieces_physicalLines text, hold, pieces_append_entry hasks h.isEntry,
    ← ofPieces_map_mapSpan, List.map_append, List.map_cons, ← pieces_of_readAlike hfront,
    Piece.mapSpan]
  -- the key stays where it is, so the pieces differ in the first segment of its value only
  have hstays : (Line.trimmedSpan ⟨row.line.offset, row.line.text⟩ (keyPart row.line.text)).map
      (movedByValue row value) = row.keySpan := (hplace row.keySpan).2 rfl
  rw [hstays]
  exact hideValue_ofPieces_entry _ _ _ _ _

end ReplacesValue

/-- The spans of a document lie up to the end of a line, or behind it. -/
lemma span_within_or_behind {text : List Char} {row : Row}
    (hrow : (physicalLines text)[row.number]? = some row.line) :
    ∀ span ∈ (Document.parse text).spans,
      span.start ≤ span.stop ∧ (span.stop ≤ row.stop ∨ row.stop < span.start) := by
  intro span hspan
  obtain ⟨hordered, other, hother, hstart, hstop⟩ := exists_liesOn_of_mem_spans hspan
  unfold Row.stop
  refine ⟨hordered, ?_⟩
  rcases Nat.lt_trichotomy other.number row.number with hlt | heq | hlt
  · obtain ⟨-, between, -, -, -, hoffset⟩ := physicalLines_append_of_lt hlt hother hrow
    omega
  · rw [heq, hrow] at hother
    rw [Option.some.inj hother]
    exact Or.inl hstop
  · obtain ⟨-, between, -, -, -, hoffset⟩ := physicalLines_append_of_lt hlt hrow hother
    omega

/-- A directive stands on the line of an entry if and only if its key stands where that of the entry
does. -/
lemma keySpan_eq_iff_liesOn {text : List Char} {row : Row}
    (hrow : (physicalLines text)[row.number]? = some row.line) :
    ∀ directive ∈ (Document.parse text).directives,
      directive.keySpan = row.keySpan ↔ LiesOn (physicalLines text) directive.keySpan row := by
  obtain ⟨layout, h⟩ := exists_layout text
  rw [h.directives_eq]
  refine List.forall_mem_map.2 fun other hother => ⟨fun heq => ?_, fun hlies => ?_⟩
  · rw [heq]
    exact liesOn_trimmedSpan hrow (List.takeWhile_prefix _)
  · rw [h.eq_of_liesOn_key hother hlies]
    rfl

/-- **Values do not interfere.**  Let the value on the line of an entry be replaced by any other
that ends in a backslash if and only if the old one does.  But for the value of the directive on
that line, the document stays the same, and only its spans are moved: those up to the end of the
line stay, those behind it move by the change in bytes.  Every registry flags the same
directives. -/
theorem values_do_not_interfere (text : List Char) (row : Row) (value text' : List Char)
    (h : ReplacesValue text row value text') :
    (Document.parse text').hideValue row.keySpan =
      ((Document.parse text).hideValue row.keySpan).mapSpans (movedByValue row value) ∧
    (∀ directive ∈ (Document.parse text).directives,
      directive.keySpan = row.keySpan ↔ LiesOn (physicalLines text) directive.keySpan row) ∧
    (∀ span ∈ (Document.parse text).spans,
      (span.stop ≤ row.stop ∧ span.map (movedByValue row value) = span) ∨
      (row.stop < span.start ∧
        (span.map (movedByValue row value)).start + byteLength (valuePart row.line.text) =
          span.start + byteLength value ∧
        (span.map (movedByValue row value)).stop + byteLength (valuePart row.line.text) =
          span.stop + byteLength value)) ∧
    ∀ registry : Registry,
      registry.validate (Document.parse text') =
        (registry.validate (Document.parse text)).map
          (Diagnostic.mapSpan (movedByValue row value)) ∧
      ((registry.validate (Document.parse text')).map fun diagnostic =>
          diagnostic.span.slice? text') =
        (registry.validate (Document.parse text)).map fun diagnostic =>
          diagnostic.span.slice? text := by
  have hparse := h.hideValue_parse
  refine ⟨hparse, keySpan_eq_iff_liesOn h.standsAlone.1, fun span hspan => ?_, fun registry => ?_⟩
  · have hline := Row.stop_eq h.isEntry.equals
    obtain ⟨hordered, hwithin | hbehind⟩ := span_within_or_behind h.standsAlone.1 span hspan
    · refine Or.inl ⟨hwithin, ?_⟩
      rw [Span.map, movedByValue, movedByValue, if_pos (by omega), if_pos hwithin]
    · refine Or.inr ⟨hbehind, ?_⟩
      rw [Span.map, movedByValue, movedByValue, if_neg (by omega), if_neg (by omega)]
      dsimp only
      constructor <;> omega
  · constructor
    · rw [← registry.validate_hideValue row.keySpan, hparse, registry.validate_mapSpans,
        registry.validate_hideValue]
    · rw [slices_validate, slices_validate, ← registry.keys_misplaced_hideValue row.keySpan, hparse,
        registry.keys_misplaced_mapSpans, registry.keys_misplaced_hideValue]

/-- A value that is continued becomes one with an equals sign, brackets and a character of two
bytes; the directive behind it moves by 7 bytes. -/
theorem values_do_not_interfere_continued :
    ReplacesValue "[A]\nk=x\\\n y\nz=1".toList ⟨1, ⟨4, "k=x\\".toList⟩⟩ "[é]=# \\\r".toList
        "[A]\nk=[é]=# \\\r\n y\nz=1".toList ∧
      (Document.parse "[A]\nk=x\\\n y\nz=1".toList).sections =
        [⟨"A", ⟨0, 3⟩, [⟨"k", ⟨4, 5⟩, "x y"⟩, ⟨"z", ⟨12, 13⟩, "1"⟩]⟩] ∧
      (Document.parse "[A]\nk=[é]=# \\\r\n y\nz=1".toList).sections =
        [⟨"A", ⟨0, 3⟩, [⟨"k", ⟨4, 5⟩, "[é]=# y"⟩, ⟨"z", ⟨19, 20⟩, "1"⟩]⟩] ∧
      ∀ registry : Registry,
        registry.validate (Document.parse "[A]\nk=[é]=# \\\r\n y\nz=1".toList) =
          (registry.validate (Document.parse "[A]\nk=x\\\n y\nz=1".toList)).map
            (Diagnostic.mapSpan
              (movedByValue ⟨1, ⟨4, "k=x\\".toList⟩⟩ "[é]=# \\\r".toList)) := by
  have hfresh : ¬ Swallowed (physicalLines "[A]\nk=x\\\n y\nz=1".toList) 1 := by
    rw [← asksAfter_take_iff_swallowed (by decide)]
    decide
  have h : ReplacesValue "[A]\nk=x\\\n y\nz=1".toList ⟨1, ⟨4, "k=x\\".toList⟩⟩
      "[é]=# \\\r".toList "[A]\nk=[é]=# \\\r\n y\nz=1".toList :=
    ⟨⟨by decide, hfresh⟩, by decide, by decide, by decide,
      "[A]\n".toList, "\n y\nz=1".toList, by decide, by decide, by decide⟩
  exact ⟨h, by decide, by decide,
    fun registry => ((values_do_not_interfere _ _ _ _ h).2.2.2 registry).1⟩

end UnitCheck
