/-
Reading canonical text.

The canonical text of a well-formed outline is read back as that outline.  `ReadsAs` says what a text
is read as, wherever it begins: some entries in front of the first header, and the outline of the
sections behind.  There is one lemma for each kind of line that is printed.
-/
import UnitCheck.Proofs.Document.WellFormed

namespace UnitCheck

/-- What the reader gathers from the lines of a text that begins at the given offset. -/
def gatherFrom (offset : Nat) (text : List Char) : Gathered :=
  (pieces false (placeLines offset (text.splitOn '\n'))).foldr Gathered.cons {}

/-- Wherever the text begins, it is read as the given entries, which stand before any header, and
sections of the given outline. -/
structure ReadsAs (text : List Char) (entries : List (String × String))
    (outline : List SectionOutline) : Prop where
  segments_eq : ∀ offset, (gatherFrom offset text).segments = []
  entries_eq : ∀ offset,
    (gatherFrom offset text).directives.map (fun directive => (directive.key, directive.value))
      = entries
  outline_eq : ∀ offset, (gatherFrom offset text).sections.map Section.outline = outline

lemma gatherFrom_append_newline {line : List Char} (hline : '\n' ∉ line) (offset : Nat)
    (rest : List Char) {piece : Piece} (hread : readLine false ⟨offset, line⟩ = (some piece, false)) :
    gatherFrom offset (line ++ '\n' :: rest)
      = (gatherFrom (offset + byteLength line + 1) rest).cons piece := by
  rw [gatherFrom, List.splitOn_append_cons_self_of_not_mem hline, placeLines, pieces_cons, hread]
  rfl

/-- A line that asks for a continuation and an empty line, which ends it. -/
lemma gatherFrom_append_newlines {line : List Char} (hline : '\n' ∉ line) (offset : Nat)
    (rest : List Char) {piece : Piece} (hread : readLine false ⟨offset, line⟩ = (some piece, true)) :
    gatherFrom offset (line ++ '\n' :: '\n' :: rest)
      = ((gatherFrom (offset + byteLength line + 1 + 1) rest).cons (.segment [])).cons piece := by
  have hempty : ('\n' :: rest).splitOn '\n' = [] :: rest.splitOn '\n' :=
    List.splitOn_append_cons_self_of_not_mem List.not_mem_nil rest
  rw [gatherFrom, List.splitOn_append_cons_self_of_not_mem hline, hempty, placeLines, pieces_cons,
    hread, placeLines, pieces_cons]
  rfl

/-! ### The printed lines -/

lemma isHeader_bracketed {name : List Char} (h : IsName name) :
    IsHeader ('[' :: (name ++ [']'])) name := by
  have htrimmed : Trimmed ('[' :: (name ++ [']'])) := by
    refine ⟨?_, ?_⟩
    · rintro c ⟨⟩
      decide
    · intro c hc
      rw [← List.cons_append, List.getLast?_concat] at hc
      obtain rfl := Option.some.inj hc
      decide
  exact ⟨htrimmed.trim_eq, h.ne_nil, h.no_opening, h.no_closing⟩

lemma isEntry_key_append {key : List Char} (h : IsKey key) (value : List Char) :
    IsEntry (key ++ '=' :: value) := by
  have hkey : trim key = key := h.trimmed.trim_eq
  have hne : trim key ≠ [] := by
    rw [hkey]
    exact h.ne_nil
  have hhead : (trim (key ++ '=' :: value)).head? = key.head? := by
    rw [head?_trim_append hne, hkey]
  refine ⟨fun hnil => ?_, ?_, ?_, by simp⟩
  · rw [hnil] at hhead
    exact h.ne_nil (List.head?_eq_none_iff.1 hhead.symm)
  · rw [IsCommentLine, hhead, not_or]
    exact ⟨h.no_hash, h.no_semicolon⟩
  · rw [hhead]
    exact h.no_bracket

/-- A printed entry is read as its key and its value. -/
lemma readLine_key_append {key value : List Char} (hkey : IsKey key) (hvalue : Trimmed value)
    (offset : Nat) :
    readLine false ⟨offset, key ++ '=' :: value⟩ =
      (some (.entry key (Line.trimmedSpan ⟨offset, key ++ '=' :: value⟩ key)
        (withoutBackslash value)), decide (EndsInBackslash value)) := by
  have hmore : (splitContinuation value).2 = decide (EndsInBackslash value) := by
    rw [Bool.eq_iff_iff, splitContinuation_snd, decide_eq_true_iff]
  rw [readLine_of_entry _ (isEntry_key_append hkey value)]
  simp only [keyPart_append_equals hkey.no_equals, valuePart_append_equals hkey.no_equals,
    hkey.trimmed.trim_eq, hvalue.trim_eq, splitContinuation_fst, hmore]

lemma joinSegments_pair_nil (segment : List Char) : joinSegments [segment, []] = segment := by
  have hfilter : [segment, []].filter (· ≠ []) = [segment].filter (· ≠ []) := by
    simp [List.filter_cons]
  rw [joinSegments, hfilter]
  exact joinSegments_singleton segment

lemma newline_not_mem_entry {key value : List Char} (hkey : IsKey key) (hvalue : '\n' ∉ value) :
    '\n' ∉ key ++ '=' :: value := by
  simp [hkey.no_newline, hvalue]

/-- One more backslash behind a value that ends in one is taken off by the reader. -/
lemma withoutBackslash_append_backslash {value : List Char} (h : Trimmed value) :
    withoutBackslash (value ++ ['\\']) = value := by
  rw [withoutBackslash, if_pos (by simp [EndsInBackslash]), List.dropLast_concat, h.trimEnd_eq]

lemma trimmed_append_backslash {value : List Char} (h : Trimmed value) :
    Trimmed (value ++ ['\\']) := by
  refine ⟨fun c hc => ?_, fun c hc => ?_⟩
  · cases value with
    | nil =>
      obtain rfl := Option.some.inj hc
      decide
    | cons d value => exact h.head c hc
  · rw [List.getLast?_concat] at hc
    obtain rfl := Option.some.inj hc
    decide

namespace ReadsAs

variable {text rest : List Char} {entries : List (String × String)}
  {outline : List SectionOutline}

lemma of_forall (h : ∀ offset, (gatherFrom offset text).segments = [] ∧
      (gatherFrom offset text).directives.map (fun directive => (directive.key, directive.value))
        = entries ∧
      (gatherFrom offset text).sections.map Section.outline = outline) :
    ReadsAs text entries outline :=
  ⟨fun offset => (h offset).1, fun offset => (h offset).2.1, fun offset => (h offset).2.2⟩

lemma nil : ReadsAs [] [] [] :=
  ⟨fun _ => rfl, fun _ => rfl, fun _ => rfl⟩

/-- A header takes the entries behind it into its section. -/
lemma header (h : ReadsAs rest entries outline) {name : String} (hname : IsName name.toList) :
    ReadsAs ('[' :: (name.toList ++ ']' :: '\n' :: rest)) [] (⟨name, entries⟩ :: outline) := by
  have hnewline : '\n' ∉ '[' :: (name.toList ++ [']']) := by
    simp [hname.no_newline]
  have hgather : ∀ offset, ∃ offset' span,
      gatherFrom offset ('[' :: (name.toList ++ ']' :: '\n' :: rest))
        = (gatherFrom offset' rest).cons (.header name.toList span) := by
    intro offset
    have hline : '[' :: (name.toList ++ ']' :: '\n' :: rest)
        = ('[' :: (name.toList ++ [']'])) ++ '\n' :: rest := by simp
    rw [hline]
    exact ⟨_, _, gatherFrom_append_newline hnewline offset rest
      (readLine_of_header ⟨offset, _⟩ (isHeader_bracketed hname))⟩
  refine of_forall fun offset => ?_
  obtain ⟨offset', span, heq⟩ := hgather offset
  rw [heq]
  refine ⟨rfl, rfl, ?_⟩
  rw [Gathered.cons, List.map_cons, h.outline_eq, Section.outline, h.entries_eq,
    String.ofList_toList]

/-- What is gathered from a printed entry and what stands behind it: a directive with the key and the
value, in front of the rest. -/
lemma gatherFrom_entryText (h : ReadsAs rest entries outline) {entry : String × String}
    (hkey : IsKey entry.1.toList) (hvalue : IsValue entry.2.toList) (offset : Nat) :
    ∃ offset' span, gatherFrom offset (SectionOutline.entryText entry ++ rest) =
      { gatherFrom offset' rest with
        segments := []
        directives := ⟨entry.1, span, entry.2⟩ :: (gatherFrom offset' rest).directives } := by
  obtain ⟨key, value⟩ := entry
  have htrimmed : Trimmed value.toList := hvalue.trimmed
  by_cases hends : EndsInBackslash value.toList
  · -- the value gets one more backslash, and the empty line behind it ends the continuation
    have htext : SectionOutline.entryText (key, value) ++ rest
        = (key.toList ++ '=' :: (value.toList ++ ['\\'])) ++ '\n' :: '\n' :: rest := by
      have hlast : value.toList.getLast? = some '\\' := hends
      simp [SectionOutline.entryText, SectionOutline.lineEnd, hlast]
    have hread := readLine_key_append hkey (trimmed_append_backslash htrimmed) offset
    have hmore : EndsInBackslash (value.toList ++ ['\\']) := by simp [EndsInBackslash]
    rw [decide_eq_true hmore, withoutBackslash_append_backslash htrimmed] at hread
    have hnewline : '\n' ∉ key.toList ++ '=' :: (value.toList ++ ['\\']) :=
      newline_not_mem_entry hkey (by simp [hvalue.no_newline])
    have hgather := gatherFrom_append_newlines hnewline offset rest hread
    rw [← htext] at hgather
    simp only [Gathered.cons, h.segments_eq, joinSegments_pair_nil, if_neg hkey.ne_nil,
      String.ofList_toList] at hgather
    exact ⟨_, _, hgather⟩
  · have htext : SectionOutline.entryText (key, value) ++ rest
        = (key.toList ++ '=' :: value.toList) ++ '\n' :: rest := by
      have hlast : ¬ value.toList.getLast? = some '\\' := hends
      simp [SectionOutline.entryText, SectionOutline.lineEnd, hlast]
    have hread := readLine_key_append hkey htrimmed offset
    rw [decide_eq_false hends, withoutBackslash, if_neg hends] at hread
    have hnewline := newline_not_mem_entry hkey hvalue.no_newline
    have hgather := gatherFrom_append_newline hnewline offset rest hread
    rw [← htext] at hgather
    simp only [Gathered.cons, h.segments_eq, joinSegments_singleton, if_neg hkey.ne_nil,
      String.ofList_toList] at hgather
    exact ⟨_, _, hgather⟩

lemma entry (h : ReadsAs rest entries outline) {entry : String × String}
    (hkey : IsKey entry.1.toList) (hvalue : IsValue entry.2.toList) :
    ReadsAs (SectionOutline.entryText entry ++ rest) (entry :: entries) outline := by
  refine of_forall fun offset => ?_
  obtain ⟨offset', span, heq⟩ := h.gatherFrom_entryText hkey hvalue offset
  rw [heq]
  refine ⟨rfl, ?_, h.outline_eq offset'⟩
  rw [List.map_cons, h.entries_eq]

lemma flatMap_entryText (h : ReadsAs rest [] outline) {list : List (String × String)}
    (hkeys : ∀ entry ∈ list, IsKey entry.1.toList)
    (hvalues : ∀ entry ∈ list, IsValue entry.2.toList) :
    ReadsAs (list.flatMap SectionOutline.entryText ++ rest) list outline := by
  induction list with
  | nil => exact h
  | cons entry list ih =>
    have hlist := ih (fun e he => hkeys e (by simp [he])) fun e he => hvalues e (by simp [he])
    rw [List.flatMap_cons, List.append_assoc]
    exact hlist.entry (hkeys entry (by simp)) (hvalues entry (by simp))

end ReadsAs

lemma readsAs_canonicalText {outline : List SectionOutline} (h : ∀ sec ∈ outline, sec.WellFormed) :
    ReadsAs (canonicalText outline) [] outline := by
  induction outline with
  | nil => exact ReadsAs.nil
  | cons sec outline ih =>
    have hsec := h sec (by simp)
    have hrest := ih fun s hs => h s (by simp [hs])
    have htext : canonicalText (sec :: outline)
        = '[' :: (sec.name.toList ++ ']' :: '\n' ::
            (sec.entries.flatMap SectionOutline.entryText ++ canonicalText outline)) := by
      simp [canonicalText, SectionOutline.text]
    rw [htext]
    exact (hrest.flatMap_entryText hsec.isKey hsec.isValue).header hsec.isName

lemma withoutMark_canonicalText (outline : List SectionOutline) :
    withoutMark (canonicalText outline) = canonicalText outline := by
  refine if_neg fun h => ?_
  cases outline with
  | nil => exact absurd h (by simp [canonicalText])
  | cons sec outline =>
    have hmark : '[' = byteOrderMark := by
      simpa [canonicalText, SectionOutline.text] using h
    exact absurd hmark (by decide)

/-- The canonical text of a well-formed outline is read back as that outline. -/
lemma outline_parse_canonicalText {outline : List SectionOutline}
    (h : ∀ sec ∈ outline, sec.WellFormed) :
    (Document.parse (canonicalText outline)).outline = outline := by
  rw [parse_eq_ofPieces_physicalLines, physicalLines, withoutMark_canonicalText, Nat.sub_self]
  exact (readsAs_canonicalText h).outline_eq 0

/-- **The outlines that can be read are the well-formed ones.**  Every outline that is read from a
text is well formed, and a well-formed outline is read back from its canonical text.  So printing what
was read and reading it again changes nothing. -/
theorem parse_outline_round_trip :
    (∀ text : List Char, ∀ sec ∈ (Document.parse text).outline, sec.WellFormed) ∧
    (∀ outline : List SectionOutline, (∀ sec ∈ outline, sec.WellFormed) →
      (Document.parse (canonicalText outline)).outline = outline) ∧
    (∀ outline : List SectionOutline,
      (∃ text, (Document.parse text).outline = outline) ↔ ∀ sec ∈ outline, sec.WellFormed) ∧
    ∀ text : List Char, (Document.parse (canonicalText (Document.parse text).outline)).outline
      = (Document.parse text).outline := by
  refine ⟨wellFormed_outline_parse, fun outline => outline_parse_canonicalText, fun outline => ?_,
    fun text => outline_parse_canonicalText (wellFormed_outline_parse text)⟩
  constructor
  · rintro ⟨text, rfl⟩
    exact wellFormed_outline_parse text
  · intro h
    exact ⟨canonicalText outline, outline_parse_canonicalText h⟩

/-- An outline with a value that ends in a backslash, one that is empty and a name with blanks. -/
theorem parse_outline_round_trip_backslash :
    (∀ sec ∈ [(⟨" Unit", [("A", "x\\"), ("B", "")]⟩ : SectionOutline)], sec.WellFormed) ∧
      (Document.parse (canonicalText [⟨" Unit", [("A", "x\\"), ("B", "")]⟩])).outline
        = [⟨" Unit", [("A", "x\\"), ("B", "")]⟩] := by
  have hwellFormed :
      ∀ sec ∈ [(⟨" Unit", [("A", "x\\"), ("B", "")]⟩ : SectionOutline)], sec.WellFormed := by
    intro sec hsec
    obtain rfl := List.mem_singleton.1 hsec
    refine ⟨⟨by decide, by decide, by decide, by decide⟩, fun entry hentry => ?_,
      fun entry hentry => ?_⟩
    · simp only [List.mem_cons, List.not_mem_nil, or_false] at hentry
      rcases hentry with rfl | rfl
      · exact ⟨by decide, by decide, by decide, by decide, by decide, by decide, by decide⟩
      · exact ⟨by decide, by decide, by decide, by decide, by decide, by decide, by decide⟩
    · simp only [List.mem_cons, List.not_mem_nil, or_false] at hentry
      rcases hentry with rfl | rfl
      · exact ⟨by decide, by decide⟩
      · exact ⟨by decide, by decide⟩
  exact ⟨hwellFormed, parse_outline_round_trip.2.1 _ hwellFormed⟩

end UnitCheck
