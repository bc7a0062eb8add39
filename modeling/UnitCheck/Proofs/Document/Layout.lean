/-
The layout of a document.

Every section of a document comes from a header line and every directive from a line with a key,
and neither kind of line belongs to a continuation.  The layout lists these lines with their
numbers, section by section.  `exists_layout` says that the document is what these lines say, that
they come in the order of the text, and that a key belongs to the last header before it.

The reader gathers its pieces from the end of the text, so the layout is built from the end, too:
`LaidOut` describes what has been gathered from a certain line on, and there is one step lemma for
each kind of line.
-/
import Mathlib.Data.List.Flatten
import UnitCheck.Proofs.Document.PhysicalLine
import UnitCheck.Proofs.Document.Swallowed

namespace UnitCheck

/-- A line with its number, counted from zero. -/
structure Row where
  number : Nat
  line : Line

/-! ### What the lines say -/

/-- A stretch of a value without the backslash that asks for a continuation and without the blank
characters before that. -/
def withoutBackslash (text : List Char) : List Char :=
  if EndsInBackslash text then trimEnd text.dropLast else text

/-- The stretches that lines add to an open value, with the numbers of the lines, of which the
first is `k`.  Comments are passed over; the first stretch without a backslash is the last. -/
def stretchesFrom (k : Nat) : List Line → List (Nat × List Char)
  | [] => []
  | line :: rest =>
    if IsCommentLine line.text then stretchesFrom (k + 1) rest
    else (k, trim line.text) ::
      if EndsInBackslash (trim line.text) then stretchesFrom (k + 1) rest else []

/-- The stretches of the value that begins on the given line. -/
def stretches (lines : List Line) (row : Row) : List (Nat × List Char) :=
  (row.number, trim (valuePart row.line.text)) ::
    if EndsInBackslash (trim (valuePart row.line.text)) then
      stretchesFrom (row.number + 1) (lines.drop (row.number + 1))
    else []

/-- The value made of stretches: those that are not empty, with a space between them. -/
def joinStretches (parts : List (Nat × List Char)) : List Char :=
  [' '].intercalate ((parts.map fun part => withoutBackslash part.2).filter (· ≠ []))

/-- The directive whose key stands on the given line. -/
def directiveOn (lines : List Line) (row : Row) : Directive where
  key := String.ofList (trim (keyPart row.line.text))
  keySpan := row.line.trimmedSpan (keyPart row.line.text)
  value := String.ofList (joinStretches (stretches lines row))

/-- The section whose header and keys stand on the given lines. -/
def sectionOn (lines : List Line) (header : Row) (keys : List Row) : Section where
  name := String.ofList (trim header.line.text).tail.dropLast
  span := header.line.trimmedSpan header.line.text
  directives := keys.map (directiveOn lines)

/-- The line has the given number and belongs to no continuation. -/
def StandsAlone (lines : List Line) (row : Row) : Prop :=
  lines[row.number]? = some row.line ∧ ¬ Swallowed lines row.number

/-- The line opens a section. -/
def OpensSection (lines : List Line) (row : Row) : Prop :=
  StandsAlone lines row ∧ ∃ name, IsHeader row.line.text name

/-- The line holds an entry that has a key. -/
def HoldsKey (lines : List Line) (row : Row) : Prop :=
  StandsAlone lines row ∧ IsEntry row.line.text ∧ trim (keyPart row.line.text) ≠ []

lemma standsAlone_of_marked {lines : List Line} {row : Row}
    (h : OpensSection lines row ∨ HoldsKey lines row) : StandsAlone lines row := by
  rcases h with h | h
  · exact h.1
  · exact h.1

lemma OpensSection.not_holdsKey {lines : List Line} {row : Row}
    (h : OpensSection lines row) : ¬ HoldsKey lines row := by
  obtain ⟨-, name, hname⟩ := h
  exact fun hkey => hname.not_entry hkey.2.1

lemma IsHeader.tail_dropLast {text name : List Char} (h : IsHeader text name) :
    (trim text).tail.dropLast = name := by
  rw [h.trim_eq, List.tail_cons, List.dropLast_concat]

lemma splitContinuation_fst (text : List Char) :
    (splitContinuation text).1 = withoutBackslash text := by
  unfold splitContinuation withoutBackslash EndsInBackslash
  split <;> simp_all

lemma joinStretches_eq_joinSegments (parts : List (Nat × List Char)) :
    joinStretches parts = joinSegments (parts.map fun part => withoutBackslash part.2) := rfl

lemma drop_eq_cons {lines : List Line} {k : Nat} {line : Line} (h : lines[k]? = some line) :
    lines.drop k = line :: lines.drop (k + 1) := by
  obtain ⟨hlt, rfl⟩ := List.getElem?_eq_some_iff.1 h
  exact List.drop_eq_getElem_cons hlt

lemma getElem?_of_drop_eq_cons {lines rest : List Line} {k : Nat} {line : Line}
    (h : lines.drop k = line :: rest) : lines[k]? = some line ∧ lines.drop (k + 1) = rest := by
  constructor
  · rw [← List.head?_drop, h]
    rfl
  · rw [← List.tail_drop, h, List.tail_cons]

/-! ### Lists of marked lines -/

/-- The list has the lines from `k` on that open a section or hold a key, in their order. -/
structure Lists (lines : List Line) (k : Nat) (marked : List Row) : Prop where
  increasing : marked.Pairwise fun a b => a.number < b.number
  mem_iff : ∀ row, row ∈ marked ↔ k ≤ row.number ∧ (OpensSection lines row ∨ HoldsKey lines row)

namespace Lists

variable {lines : List Line} {k : Nat} {line : Line} {marked : List Row}

lemma eq_of_number_eq (hk : lines[k]? = some line) {row : Row} (hrow : row.number = k)
    (h : OpensSection lines row ∨ HoldsKey lines row) : row = ⟨k, line⟩ := by
  have hstands := (standsAlone_of_marked h).1
  obtain ⟨number, line'⟩ := row
  obtain rfl : number = k := hrow
  obtain rfl : line = line' := Option.some.inj (hk.symm.trans hstands)
  rfl

lemma cons (h : Lists lines (k + 1) marked) (hk : lines[k]? = some line)
    (hmark : OpensSection lines ⟨k, line⟩ ∨ HoldsKey lines ⟨k, line⟩) :
    Lists lines k (⟨k, line⟩ :: marked) := by
  refine ⟨List.pairwise_cons.2 ⟨fun row hrow => ?_, h.increasing⟩, fun row => ?_⟩
  · exact ((h.mem_iff row).1 hrow).1
  · rw [List.mem_cons, h.mem_iff]
    constructor
    · rintro (rfl | ⟨hle, hrow⟩)
      · exact ⟨le_refl k, hmark⟩
      · exact ⟨by omega, hrow⟩
    · rintro ⟨hle, hrow⟩
      rcases Nat.eq_or_lt_of_le hle with heq | hlt
      · exact Or.inl (eq_of_number_eq hk heq.symm hrow)
      · exact Or.inr ⟨hlt, hrow⟩

lemma skip (h : Lists lines (k + 1) marked) (hk : lines[k]? = some line)
    (hopens : ¬ OpensSection lines ⟨k, line⟩) (hkey : ¬ HoldsKey lines ⟨k, line⟩) :
    Lists lines k marked := by
  refine ⟨h.increasing, fun row => ?_⟩
  rw [h.mem_iff]
  constructor
  · rintro ⟨hle, hrow⟩
    exact ⟨by omega, hrow⟩
  · rintro ⟨hle, hrow⟩
    rcases Nat.eq_or_lt_of_le hle with heq | hlt
    · rw [eq_of_number_eq hk heq.symm hrow] at hrow
      exact absurd hrow (by simp [hopens, hkey])
    · exact ⟨hlt, hrow⟩

end Lists

/-! ### What is gathered from a line on -/

/-- The lines of a layout, in the order of the text. -/
def layoutLines (layout : List (Row × List Row)) : List Row :=
  layout.flatMap fun block => block.1 :: block.2

/-- What has been gathered from line `k` on.  The keys before the first header are listed in
`keys`, the sections in `layout`.  Stretches wait for an entry before line `k` only if that line
continues a value. -/
structure LaidOut (lines : List Line) (k : Nat) (continued : Bool) (gathered : Gathered)
    (keys : List Row) (layout : List (Row × List Row)) : Prop where
  directives_eq : gathered.directives = keys.map (directiveOn lines)
  sections_eq : gathered.sections = layout.map fun block => sectionOn lines block.1 block.2
  holdsKey : ∀ row ∈ keys, HoldsKey lines row
  opensSection : ∀ block ∈ layout, OpensSection lines block.1
  holdsKey_of_block : ∀ block ∈ layout, ∀ row ∈ block.2, HoldsKey lines row
  lists : Lists lines k (keys ++ layoutLines layout)
  segments_eq : gathered.segments =
    if continued then
      (stretchesFrom k (lines.drop k)).map fun part => withoutBackslash part.2
    else []

namespace LaidOut

variable {lines : List Line} {k : Nat} {line : Line} {gathered : Gathered}
  {keys : List Row} {layout : List (Row × List Row)}

lemma nil (h : lines.length ≤ k) (continued : Bool) : LaidOut lines k continued {} [] [] := by
  refine ⟨rfl, rfl, by simp, by simp, by simp, ⟨List.Pairwise.nil, fun row => ?_⟩, ?_⟩
  · constructor
    · intro hrow
      exact absurd hrow (by simp [layoutLines])
    · rintro ⟨hle, hrow⟩
      have hlt := (List.getElem?_eq_some_iff.1 (standsAlone_of_marked hrow).1).1
      omega
  · rw [List.drop_eq_nil_of_le h]
    simp [stretchesFrom]

/-- A comment in a continuation. -/
lemma comment (h : LaidOut lines (k + 1) true gathered keys layout) (hk : lines[k]? = some line)
    (hswallowed : Swallowed lines k) (hcomment : IsCommentLine line.text) :
    LaidOut lines k true gathered keys layout := by
  refine { h with
    lists := h.lists.skip hk (fun hopens => hopens.1.2 hswallowed) fun hkey => hkey.1.2 hswallowed
    segments_eq := ?_ }
  rw [h.segments_eq, drop_eq_cons hk, stretchesFrom, if_pos hcomment]

/-- A further stretch of a value. -/
lemma segment {more : Bool} (h : LaidOut lines (k + 1) more gathered keys layout)
    (hk : lines[k]? = some line) (hswallowed : Swallowed lines k)
    (hcomment : ¬ IsCommentLine line.text)
    (hmore : more = true ↔ EndsInBackslash (trim line.text)) :
    LaidOut lines k true (gathered.cons (.segment (withoutBackslash (trim line.text)))) keys
      layout := by
  refine { h with
    lists := h.lists.skip hk (fun hopens => hopens.1.2 hswallowed) fun hkey => hkey.1.2 hswallowed
    segments_eq := ?_ }
  rw [drop_eq_cons hk, stretchesFrom, if_neg hcomment, if_pos rfl, List.map_cons]
  show withoutBackslash (trim line.text) :: gathered.segments = _
  rw [h.segments_eq]
  by_cases hasks : EndsInBackslash (trim line.text)
  · rw [if_pos (hmore.2 hasks), if_pos hasks]
  · rw [if_neg (mt hmore.1 hasks), if_neg hasks, List.map_nil]

/-- The header of a section: the keys behind it are its own. -/
lemma header {more : Bool} {name : List Char} (h : LaidOut lines (k + 1) more gathered keys layout)
    (hk : lines[k]? = some line) (hfresh : ¬ Swallowed lines k) (hname : IsHeader line.text name) :
    LaidOut lines k false (gathered.cons (.header name (line.trimmedSpan line.text))) []
      ((⟨k, line⟩, keys) :: layout) where
  directives_eq := rfl
  sections_eq := by
    show (⟨_, _, gathered.directives⟩ : Section) :: gathered.sections = _
    rw [h.directives_eq, h.sections_eq, List.map_cons, sectionOn, hname.tail_dropLast]
  holdsKey := by simp
  opensSection := by
    intro block hblock
    rcases List.mem_cons.1 hblock with rfl | hblock
    · exact ⟨⟨hk, hfresh⟩, name, hname⟩
    · exact h.opensSection block hblock
  holdsKey_of_block := by
    intro block hblock
    rcases List.mem_cons.1 hblock with rfl | hblock
    · exact h.holdsKey
    · exact h.holdsKey_of_block block hblock
  lists := h.lists.cons hk (Or.inl ⟨⟨hk, hfresh⟩, name, hname⟩)
  segments_eq := rfl

/-- The value of an entry is made of its own stretch and those that wait for it. -/
lemma joinSegments_eq {more : Bool} (h : LaidOut lines (k + 1) more gathered keys layout)
    (hmore : more = true ↔ EndsInBackslash (trim (valuePart line.text))) :
    joinSegments (withoutBackslash (trim (valuePart line.text)) :: gathered.segments)
      = joinStretches (stretches lines ⟨k, line⟩) := by
  rw [joinStretches_eq_joinSegments, h.segments_eq, stretches, List.map_cons]
  by_cases hasks : EndsInBackslash (trim (valuePart line.text))
  · rw [if_pos (hmore.2 hasks), if_pos hasks]
  · rw [if_neg (mt hmore.1 hasks), if_neg hasks, List.map_nil]

/-- An entry with a key. -/
lemma entry {more : Bool} (h : LaidOut lines (k + 1) more gathered keys layout)
    (hk : lines[k]? = some line) (hfresh : ¬ Swallowed lines k) (hentry : IsEntry line.text)
    (hkey : trim (keyPart line.text) ≠ [])
    (hmore : more = true ↔ EndsInBackslash (trim (valuePart line.text))) :
    LaidOut lines k false
      (gathered.cons (.entry (trim (keyPart line.text)) (line.trimmedSpan (keyPart line.text))
        (withoutBackslash (trim (valuePart line.text)))))
      (⟨k, line⟩ :: keys) layout where
  directives_eq := by
    simp only [Gathered.cons, if_neg hkey, List.map_cons, h.joinSegments_eq hmore, h.directives_eq]
    rfl
  sections_eq := h.sections_eq
  holdsKey := by
    intro row hrow
    rcases List.mem_cons.1 hrow with rfl | hrow
    · exact ⟨⟨hk, hfresh⟩, hentry, hkey⟩
    · exact h.holdsKey row hrow
  opensSection := h.opensSection
  holdsKey_of_block := h.holdsKey_of_block
  lists := h.lists.cons hk (Or.inr ⟨⟨hk, hfresh⟩, hentry, hkey⟩)
  segments_eq := rfl

/-- An entry without a key is dropped, with its value. -/
lemma keyless {more : Bool} {span : Span} {text : List Char}
    (h : LaidOut lines (k + 1) more gathered keys layout) (hk : lines[k]? = some line)
    (hentry : IsEntry line.text) (hkey : trim (keyPart line.text) = []) :
    LaidOut lines k false (gathered.cons (.entry (trim (keyPart line.text)) span text)) keys
      layout := by
  refine { h with
    directives_eq := ?_
    lists := h.lists.skip hk ?_ fun hholds => hholds.2.2 hkey
    segments_eq := rfl }
  · simp only [Gathered.cons, if_pos hkey, h.directives_eq]
  · rintro ⟨-, name, hname⟩
    exact hname.not_entry hentry

/-- A line on its own that is neither a header nor an entry. -/
lemma neither (h : LaidOut lines (k + 1) false gathered keys layout) (hk : lines[k]? = some line)
    (hentry : ¬ IsEntry line.text) (hheader : ∀ name, ¬ IsHeader line.text name) :
    LaidOut lines k false gathered keys layout :=
  { h with
    lists := h.lists.skip hk (fun ⟨_, name, hname⟩ => hheader name hname) fun hkey =>
      hentry hkey.2.1 }

end LaidOut

/-- What is gathered from any line on is laid out as the lines say. -/
lemma exists_laidOut (lines : List Line) :
    ∀ (rest : List Line) (k : Nat) (continued : Bool), lines.drop k = rest →
      (continued = true ↔ Swallowed lines k) →
      ∃ keys layout,
        LaidOut lines k continued ((pieces continued rest).foldr Gathered.cons {}) keys layout := by
  -- by induction on the lines from `k` on, since the reader gathers them from the end; what the
  -- reader knows about line `k` goes forward, by `readLine_snd_iff_swallowed`
  intro rest
  induction rest with
  | nil =>
    intro k continued hdrop _
    exact ⟨[], [], LaidOut.nil (List.drop_eq_nil_iff.1 hdrop) continued⟩
  | cons line rest ih =>
    intro k continued hdrop hcontinued
    obtain ⟨hk, hrest⟩ := getElem?_of_drop_eq_cons hdrop
    obtain ⟨keys, layout, h⟩ := ih (k + 1) (readLine continued line).2 hrest
      (readLine_snd_iff_swallowed hk hcontinued)
    rw [pieces_cons, List.foldr_append]
    cases continued with
    | true =>
      have hswallowed : Swallowed lines k := hcontinued.1 rfl
      by_cases hcomment : IsCommentLine line.text
      · rw [readLine_continued_of_comment line hcomment] at h ⊢
        exact ⟨keys, layout, h.comment hk hswallowed hcomment⟩
      · rw [readLine_continued line hcomment, splitContinuation_fst] at h ⊢
        exact ⟨keys, layout, h.segment hk hswallowed hcomment splitContinuation_snd⟩
    | false =>
      have hfresh : ¬ Swallowed lines k := fun hs => absurd (hcontinued.2 hs) (by simp)
      by_cases hentry : IsEntry line.text
      · rw [readLine_of_entry line hentry, splitContinuation_fst] at h ⊢
        by_cases hkey : trim (keyPart line.text) = []
        · exact ⟨keys, layout, h.keyless hk hentry hkey⟩
        · exact ⟨⟨k, line⟩ :: keys, layout, h.entry hk hfresh hentry hkey splitContinuation_snd⟩
      · by_cases hheader : ∃ name, IsHeader line.text name
        · obtain ⟨name, hname⟩ := hheader
          rw [readLine_of_header line hname] at h ⊢
          exact ⟨[], (⟨k, line⟩, keys) :: layout, h.header hk hfresh hname⟩
        · push Not at hheader
          rw [readLine_of_neither line hentry hheader] at h ⊢
          exact ⟨keys, layout, h.neither hk hentry hheader⟩

/-! ### The whole document -/

/-- The header opens the section that a key belongs to: it is the last one before the key. -/
structure Under (lines : List Line) (header row : Row) : Prop where
  opensSection : OpensSection lines header
  holdsKey : HoldsKey lines row
  number_lt : header.number < row.number
  last : ∀ other, OpensSection lines other → other.number < row.number →
    other.number ≤ header.number

/-- The document is laid out on the lines: the sections are what the lines say, the lines come in
order, the headers are all the lines that open a section, and the keys of a section are those that
belong to its header. -/
structure Document.HasLayout (lines : List Line) (document : Document)
    (layout : List (Row × List Row)) : Prop where
  sections_eq : document.sections = layout.map fun block => sectionOn lines block.1 block.2
  increasing : (layoutLines layout).Pairwise fun a b => a.number < b.number
  header_iff : ∀ row, (∃ block ∈ layout, block.1 = row) ↔ OpensSection lines row
  under_iff : ∀ header row,
    (∃ block ∈ layout, block.1 = header ∧ row ∈ block.2) ↔ Under lines header row

lemma mem_layoutLines {layout : List (Row × List Row)} {row : Row} :
    row ∈ layoutLines layout ↔ ∃ block ∈ layout, row = block.1 ∨ row ∈ block.2 := by
  simp [layoutLines, List.mem_flatMap]

namespace LaidOut

variable {lines : List Line} {continued : Bool} {gathered : Gathered}
  {keys : List Row} {layout : List (Row × List Row)}

/-- A header among the listed lines is the header of a block. -/
lemma exists_block (h : LaidOut lines 0 continued gathered keys layout) {row : Row}
    (hrow : OpensSection lines row) : ∃ block ∈ layout, block.1 = row := by
  have hmem := (h.lists.mem_iff row).2 ⟨Nat.zero_le _, Or.inl hrow⟩
  rcases List.mem_append.1 hmem with hmem | hmem
  · exact absurd (h.holdsKey row hmem) hrow.not_holdsKey
  · obtain ⟨block, hblock, rfl | hmem⟩ := mem_layoutLines.1 hmem
    · exact ⟨block, hblock, rfl⟩
    · exact absurd (h.holdsKey_of_block block hblock row hmem) hrow.not_holdsKey

/-- The lines around a block come in order: those before its lines, its header, its keys and those
behind. -/
lemma block_increasing {front back : List (Row × List Row)}
    {block : Row × List Row}
    (h : LaidOut lines 0 continued gathered keys (front ++ block :: back)) :
    (∀ a ∈ keys ++ layoutLines front, ∀ b ∈ block.1 :: block.2, a.number < b.number) ∧
      (∀ b ∈ block.2, block.1.number < b.number) ∧
      ∀ a ∈ block.1 :: block.2, ∀ b ∈ layoutLines back, a.number < b.number := by
  have hsplit : keys ++ layoutLines (front ++ block :: back)
      = (keys ++ layoutLines front) ++ ((block.1 :: block.2) ++ layoutLines back) := by
    simp [layoutLines, List.flatMap_append]
  have hincreasing := h.lists.increasing
  rw [hsplit, List.pairwise_append] at hincreasing
  obtain ⟨-, hbehind, hacross⟩ := hincreasing
  rw [List.pairwise_append] at hbehind
  obtain ⟨hblock, -, hback⟩ := hbehind
  exact ⟨fun a ha b hb => hacross a ha b (List.mem_append_left _ hb),
    (List.pairwise_cons.1 hblock).1, hback⟩

lemma under_of_mem (h : LaidOut lines 0 continued gathered keys layout)
    {block : Row × List Row} (hblock : block ∈ layout) {row : Row}
    (hrow : row ∈ block.2) : Under lines block.1 row := by
  obtain ⟨front, back, rfl⟩ := List.append_of_mem hblock
  obtain ⟨hfront, hheader, hback⟩ := h.block_increasing
  refine ⟨h.opensSection block hblock, h.holdsKey_of_block block hblock row hrow,
    hheader row hrow, fun other hother hlt => ?_⟩
  obtain ⟨block', hblock', rfl⟩ := h.exists_block hother
  rcases List.mem_append.1 hblock' with hmem | hmem
  · have hlines : block'.1 ∈ keys ++ layoutLines front :=
      List.mem_append_right _ (mem_layoutLines.2 ⟨block', hmem, Or.inl rfl⟩)
    exact (hfront _ hlines _ List.mem_cons_self).le
  · rcases List.mem_cons.1 hmem with rfl | hmem
    · exact le_refl _
    · -- a header behind the block stands behind its keys, too
      have := hback row (List.mem_cons_of_mem _ hrow) block'.1
        (mem_layoutLines.2 ⟨block', hmem, Or.inl rfl⟩)
      omega

lemma mem_of_under (h : LaidOut lines 0 continued gathered keys layout)
    {header row : Row} (hunder : Under lines header row) :
    ∃ block ∈ layout, block.1 = header ∧ row ∈ block.2 := by
  obtain ⟨block, hblock, rfl⟩ := h.exists_block hunder.opensSection
  refine ⟨block, hblock, rfl, ?_⟩
  obtain ⟨front, back, rfl⟩ := List.append_of_mem hblock
  obtain ⟨hfront, -, hback⟩ := h.block_increasing
  have hlt := hunder.number_lt
  have hmem := (h.lists.mem_iff row).2 ⟨Nat.zero_le _, Or.inr hunder.holdsKey⟩
  have hnotfront : row ∉ keys ++ layoutLines front := fun hrow => by
    have := hfront row hrow block.1 List.mem_cons_self
    omega
  rcases List.mem_append.1 hmem with hkeys | hlines
  · exact absurd (List.mem_append_left _ hkeys) hnotfront
  obtain ⟨block', hblock', hrow⟩ := mem_layoutLines.1 hlines
  have hrow' : row ∈ block'.2 := by
    rcases hrow with rfl | hrow
    · exact absurd hunder.holdsKey (h.opensSection block' hblock').not_holdsKey
    · exact hrow
  rcases List.mem_append.1 hblock' with hin | hin
  · exact absurd (List.mem_append_right _ (mem_layoutLines.2 ⟨block', hin, Or.inr hrow'⟩)) hnotfront
  · rcases List.mem_cons.1 hin with rfl | hin
    · exact hrow'
    · -- the header of a later block would stand between
      have hbehind := hback block.1 List.mem_cons_self block'.1
        (mem_layoutLines.2 ⟨block', hin, Or.inl rfl⟩)
      have hlast := hunder.last block'.1 (h.opensSection block' hblock')
        (h.under_of_mem hblock' hrow').number_lt
      omega

lemma hasLayout {document : Document} (h : LaidOut lines 0 continued gathered keys layout)
    (hsections : document.sections = gathered.sections) : document.HasLayout lines layout where
  sections_eq := hsections.trans h.sections_eq
  increasing := (List.pairwise_append.1 h.lists.increasing).2.1
  header_iff row := by
    constructor
    · rintro ⟨block, hblock, rfl⟩
      exact h.opensSection block hblock
    · exact h.exists_block
  under_iff header row := by
    constructor
    · rintro ⟨block, hblock, rfl, hrow⟩
      exact h.under_of_mem hblock hrow
    · exact h.mem_of_under

end LaidOut

namespace Document.HasLayout

variable {lines : List Line} {document : Document} {layout : List (Row × List Row)}

lemma opensSection (h : document.HasLayout lines layout) {block : Row × List Row}
    (hblock : block ∈ layout) : OpensSection lines block.1 :=
  (h.header_iff block.1).1 ⟨block, hblock, rfl⟩

lemma under (h : document.HasLayout lines layout) {block : Row × List Row}
    (hblock : block ∈ layout) {row : Row} (hrow : row ∈ block.2) : Under lines block.1 row :=
  (h.under_iff block.1 row).1 ⟨block, hblock, rfl, hrow⟩

lemma standsAlone (h : document.HasLayout lines layout) {row : Row}
    (hrow : row ∈ layoutLines layout) : StandsAlone lines row := by
  obtain ⟨block, hblock, rfl | hrow⟩ := mem_layoutLines.1 hrow
  · exact (h.opensSection hblock).1
  · exact (h.under hblock hrow).holdsKey.1

lemma holdsKey_of_mem (h : document.HasLayout lines layout) {row : Row}
    (hrow : row ∈ layout.flatMap (·.2)) : HoldsKey lines row := by
  obtain ⟨block, hblock, hrow⟩ := List.mem_flatMap.1 hrow
  exact (h.under hblock hrow).holdsKey

lemma keys_increasing (h : document.HasLayout lines layout) :
    (layout.flatMap (·.2)).Pairwise fun a b => a.number < b.number := by
  refine h.increasing.sublist ?_
  exact List.Sublist.flatMap_right layout fun block _ => List.sublist_cons_self _ _

end Document.HasLayout

/-- **The layout of a document.**  Every document that is read from a text is laid out on the
physical lines of the text. -/
lemma exists_layout (text : List Char) :
    ∃ layout, (Document.parse text).HasLayout (physicalLines text) layout := by
  obtain ⟨keys, layout, h⟩ := exists_laidOut (physicalLines text) (physicalLines text) 0 false rfl
    (by simp [not_swallowed_zero])
  exact ⟨layout, h.hasLayout (by rw [parse_eq_ofPieces_physicalLines]; rfl)⟩

end UnitCheck
