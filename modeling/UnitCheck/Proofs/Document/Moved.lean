/-
Documents whose spans are moved.

A document uses offsets only to say where its parts stand.  So when lines are placed elsewhere, the
reader gives the same document with other spans, and validation gives the same diagnostics with
other spans.  A map of offsets says how the spans are moved; `readLine_moved` asks it to move all
offsets on a line alike.
-/
import UnitCheck.Proofs.Document.Spans

namespace UnitCheck

/-! ### Moving spans -/

/-- The span with both ends moved. -/
def Span.map (move : Nat → Nat) (span : Span) : Span :=
  ⟨move span.start, move span.stop⟩

/-- The directive with its span moved. -/
def Directive.mapSpan (move : Nat → Nat) (directive : Directive) : Directive :=
  { directive with keySpan := directive.keySpan.map move }

/-- The section with all its spans moved. -/
def Section.mapSpans (move : Nat → Nat) (sec : Section) : Section where
  name := sec.name
  span := sec.span.map move
  directives := sec.directives.map (Directive.mapSpan move)

/-- The document with all its spans moved. -/
def Document.mapSpans (move : Nat → Nat) (document : Document) : Document :=
  ⟨document.sections.map (Section.mapSpans move)⟩

/-- The diagnostic with its span moved. -/
def Diagnostic.mapSpan (move : Nat → Nat) (diagnostic : Diagnostic) : Diagnostic :=
  { diagnostic with span := diagnostic.span.map move }

/-- The piece with its span moved. -/
def Piece.mapSpan (move : Nat → Nat) : Piece → Piece
  | .header name span => .header name (span.map move)
  | .entry key span first => .entry key (span.map move) first
  | .segment text => .segment text

/-- What was gathered, with all spans moved. -/
def Gathered.mapSpans (move : Nat → Nat) (gathered : Gathered) : Gathered where
  segments := gathered.segments
  directives := gathered.directives.map (Directive.mapSpan move)
  sections := gathered.sections.map (Section.mapSpans move)

/-! ### Gathering and validating -/

lemma Gathered.cons_mapSpan (move : Nat → Nat) (piece : Piece) (gathered : Gathered) :
    (gathered.mapSpans move).cons (piece.mapSpan move) = (gathered.cons piece).mapSpans move := by
  cases piece with
  | header name span => rfl
  | entry key span segment =>
    by_cases hkey : key = []
    · simp [cons, mapSpans, Piece.mapSpan, hkey]
    · simp [cons, mapSpans, Piece.mapSpan, Directive.mapSpan, hkey]
  | segment text => rfl

lemma foldr_cons_map_mapSpan (move : Nat → Nat) (ps : List Piece) :
    (ps.map (Piece.mapSpan move)).foldr Gathered.cons {} =
      (ps.foldr Gathered.cons {}).mapSpans move := by
  induction ps with
  | nil => rfl
  | cons piece ps ih =>
    rw [List.map_cons, List.foldr_cons, ih, Gathered.cons_mapSpan, List.foldr_cons]

/-- Pieces with moved spans make the document with moved spans. -/
lemma ofPieces_map_mapSpan (move : Nat → Nat) (ps : List Piece) :
    Document.ofPieces (ps.map (Piece.mapSpan move)) = (Document.ofPieces ps).mapSpans move := by
  rw [Document.ofPieces, foldr_cons_map_mapSpan]
  rfl

lemma Registry.misplaced_mapSpans (registry : Registry) (move : Nat → Nat) (sec : Section) :
    registry.misplaced (sec.mapSpans move) =
      (registry.misplaced sec).map (Directive.mapSpan move) := by
  unfold misplaced
  rw [Section.mapSpans]
  rcases registry.classify sec.name with _ | type | _
  · rfl
  · simp only [List.filter_map]
    rfl
  · rfl

lemma Registry.validateSection_mapSpans (registry : Registry) (move : Nat → Nat) (sec : Section) :
    registry.validateSection (sec.mapSpans move) =
      (registry.validateSection sec).map (Diagnostic.mapSpan move) := by
  rw [validateSection_eq, misplaced_mapSpans, List.map_map, validateSection_eq, List.map_map]
  rfl

/-- Which keys are out of place does not depend on where they stand. -/
lemma Registry.keys_misplaced_mapSpans (registry : Registry) (move : Nat → Nat)
    (document : Document) :
    ((document.mapSpans move).sections.flatMap registry.misplaced).map (·.key) =
      (document.sections.flatMap registry.misplaced).map (·.key) := by
  rw [Document.mapSpans, List.flatMap_map, List.map_flatMap, List.map_flatMap]
  refine List.flatMap_congr fun sec _ => ?_
  rw [misplaced_mapSpans, List.map_map]
  rfl

/-- If two texts have the same document up to the places of its parts, their diagnostics mark the same
keys. -/
lemma slices_validate_of_mapSpans {move : Nat → Nat} {text text' : List Char}
    (h : Document.parse text' = (Document.parse text).mapSpans move) (registry : Registry) :
    ((registry.validate (Document.parse text')).map fun diagnostic => diagnostic.span.slice? text') =
      (registry.validate (Document.parse text)).map fun diagnostic =>
        diagnostic.span.slice? text := by
  rw [slices_validate, slices_validate, h, registry.keys_misplaced_mapSpans]

/-- Which directives are flagged does not depend on where they stand. -/
lemma Registry.validate_mapSpans (registry : Registry) (move : Nat → Nat) (document : Document) :
    registry.validate (document.mapSpans move) =
      (registry.validate document).map (Diagnostic.mapSpan move) := by
  rw [validate, Document.mapSpans, List.flatMap_map, validate, List.map_flatMap]
  exact List.flatMap_congr fun sec _ => registry.validateSection_mapSpans move sec

/-! ### Reading -/

lemma trimmedSpan_moved {move : Nat → Nat} {offset offset' : Nat} {text part : List Char}
    (hmove : ∀ n ≤ byteLength text, move (offset + n) = offset' + n) (hpart : part <+: text) :
    Line.trimmedSpan ⟨offset', text⟩ part = (Line.trimmedSpan ⟨offset, text⟩ part).map move := by
  have hlies : byteLength (indentation part) + byteLength (trim part) ≤ byteLength text := by
    obtain ⟨rest, rfl⟩ := hpart
    obtain ⟨blank, -, hblank⟩ := exists_indentation_append_trim part
    have hlength := congrArg byteLength hblank
    simp only [byteLength_append] at hlength ⊢
    omega
  simp only [Line.trimmedSpan, Span.ofLength, Span.map, Nat.add_assoc]
  rw [hmove _ hlies, hmove _ (by omega)]

/-- A line that is placed elsewhere is read in the same way, with its spans moved. -/
lemma readLine_moved (move : Nat → Nat) {offset offset' : Nat} {text : List Char}
    (hmove : ∀ n ≤ byteLength text, move (offset + n) = offset' + n) (continued : Bool) :
    readLine continued ⟨offset', text⟩ =
      ((readLine continued ⟨offset, text⟩).1.map (Piece.mapSpan move),
        (readLine continued ⟨offset, text⟩).2) := by
  cases continued with
  | true =>
    by_cases hcomment : IsCommentLine text
    · rw [readLine_continued_of_comment ⟨offset', text⟩ hcomment,
        readLine_continued_of_comment ⟨offset, text⟩ hcomment]
      rfl
    · rw [readLine_continued ⟨offset', text⟩ hcomment, readLine_continued ⟨offset, text⟩ hcomment]
      rfl
  | false =>
    by_cases hentry : IsEntry text
    · have hspan : Line.trimmedSpan ⟨offset', text⟩ (keyPart text) = _ :=
        trimmedSpan_moved hmove (List.takeWhile_prefix _)
      simp only [readLine_of_entry ⟨offset', text⟩ hentry, readLine_of_entry ⟨offset, text⟩ hentry,
        hspan, Option.map_some, Piece.mapSpan]
    · by_cases hheader : ∃ name, IsHeader text name
      · obtain ⟨name, hname⟩ := hheader
        simp only [readLine_of_header ⟨offset', text⟩ hname,
          readLine_of_header ⟨offset, text⟩ hname, trimmedSpan_moved hmove List.prefix_rfl,
          Option.map_some, Piece.mapSpan]
      · push Not at hheader
        rw [readLine_of_neither ⟨offset', text⟩ hentry hheader,
          readLine_of_neither ⟨offset, text⟩ hentry hheader]
        rfl

/-- The second line is read as the first one is, with the spans moved. -/
def ReadAlike (move : Nat → Nat) (line line' : Line) : Prop :=
  ∀ continued, readLine continued line' =
    ((readLine continued line).1.map (Piece.mapSpan move), (readLine continued line).2)

/-- If lines are read alike one by one, they contribute the same pieces, with the spans moved. -/
lemma pieces_of_readAlike {move : Nat → Nat} {lines lines' : List Line}
    (h : List.Forall₂ (ReadAlike move) lines lines') (continued : Bool) :
    pieces continued lines' = (pieces continued lines).map (Piece.mapSpan move) := by
  induction h generalizing continued with
  | nil => rfl
  | cons hline _ ih =>
    rw [pieces_cons, hline, ih, pieces_cons, List.map_append, Option.toList_map]

/-- If lines are read alike one by one, their document is the same, with the spans moved. -/
lemma ofPieces_of_readAlike {move : Nat → Nat} {lines lines' : List Line}
    (h : List.Forall₂ (ReadAlike move) lines lines') :
    Document.ofPieces (pieces false lines') =
      (Document.ofPieces (pieces false lines)).mapSpans move := by
  rw [pieces_of_readAlike h, ofPieces_map_mapSpan]

/-- Lines that are placed elsewhere are read alike. -/
lemma forall₂_placeLines_moved {move : Nat → Nat} {start m n : Nat}
    (hmove : ∀ k, start ≤ k → move (k + m) = k + n) (texts : List (List Char)) :
    ∀ offset, start ≤ offset →
      List.Forall₂ (ReadAlike move) (placeLines (offset + m) texts)
        (placeLines (offset + n) texts) := by
  induction texts with
  | nil => exact fun _ _ => .nil
  | cons text texts ih =>
    intro offset hoffset
    have hnext : ∀ k, offset + k + byteLength text + 1 = offset + byteLength text + 1 + k := by
      omega
    rw [placeLines, placeLines, hnext, hnext]
    refine .cons (fun continued => readLine_moved move (fun k _ => ?_) continued) (ih _ (by omega))
    rw [Nat.add_right_comm, hmove _ (by omega), Nat.add_right_comm]

/-- Lines that are placed further on are read alike. -/
lemma forall₂_placeLines_add {move : Nat → Nat} {start n : Nat}
    (hmove : ∀ k, start ≤ k → move k = k + n) (texts : List (List Char)) (offset : Nat)
    (hoffset : start ≤ offset) :
    List.Forall₂ (ReadAlike move) (placeLines offset texts) (placeLines (offset + n) texts) :=
  forall₂_placeLines_moved (m := 0) hmove texts offset hoffset

/-- Lines that are placed further on are read in the same way, with their spans moved. -/
lemma pieces_placeLines_add (n : Nat) (texts : List (List Char)) (continued : Bool) (offset : Nat) :
    pieces continued (placeLines (offset + n) texts) =
      (pieces continued (placeLines offset texts)).map (Piece.mapSpan (· + n)) :=
  pieces_of_readAlike (forall₂_placeLines_add (fun _ _ => rfl) texts offset (Nat.zero_le _)) continued

end UnitCheck
