/-
Well-formed outlines.

An outline is well formed if its names, keys and values could stand in a unit file as they are.  The
outline of every document that is read from a text is well formed (`wellFormed_outline_parse`).  For
names and keys this is read off their lines; a value is joined from stretches, each of which is
trimmed, and joining keeps that.
-/
import UnitCheck.Document.Printer
import UnitCheck.Proofs.Document.Values

namespace UnitCheck

/-- A name between brackets: not empty, and without brackets and line feeds. -/
structure IsName (name : List Char) : Prop where
  ne_nil : name ≠ []
  no_opening : '[' ∉ name
  no_closing : ']' ∉ name
  no_newline : '\n' ∉ name

/-- A key: not empty, trimmed, without equals signs and line feeds, and with nothing in front that
would make its line a comment or a header. -/
structure IsKey (key : List Char) : Prop where
  ne_nil : key ≠ []
  trimmed : Trimmed key
  no_equals : '=' ∉ key
  no_newline : '\n' ∉ key
  no_hash : key.head? ≠ some '#'
  no_semicolon : key.head? ≠ some ';'
  no_bracket : key.head? ≠ some '['

/-- A value: trimmed and without line feeds. -/
structure IsValue (value : List Char) : Prop where
  trimmed : Trimmed value
  no_newline : '\n' ∉ value

/-- The name, the keys and the values of a section are as they should be. -/
structure SectionOutline.WellFormed (sec : SectionOutline) : Prop where
  isName : IsName sec.name.toList
  isKey : ∀ entry ∈ sec.entries, IsKey entry.1.toList
  isValue : ∀ entry ∈ sec.entries, IsValue entry.2.toList

/-! ### Values -/

lemma isValue_trim {text : List Char} (h : '\n' ∉ text) : IsValue (trim text) :=
  ⟨trimmed_trim text, fun hmem => h (mem_of_mem_trim hmem)⟩

/-- Taking the backslash off a value leaves a value. -/
lemma IsValue.withoutBackslash {text : List Char} (h : IsValue text) :
    IsValue (withoutBackslash text) := by
  unfold UnitCheck.withoutBackslash
  split
  · have hfront : trimEnd text.dropLast <+: text :=
      List.IsPrefix.trans (List.rdropWhile_prefix isBlank _) (List.dropLast_prefix text)
    refine ⟨⟨fun c hc => h.trimmed.head c ?_, isBlank_getLast_trimEnd _⟩,
      fun hmem => h.no_newline (hfront.subset hmem)⟩
    obtain ⟨rest', hrest'⟩ := hfront
    rw [← hrest', List.head?_append, Option.mem_def.1 hc]
    rfl
  · exact h

/-- A space between two values that are not empty is at neither end. -/
lemma IsValue.append_space {a b : List Char} (ha : IsValue a) (hb : IsValue b) (hane : a ≠ [])
    (hbne : b ≠ []) : IsValue (a ++ ' ' :: b) := by
  refine ⟨⟨fun c hc => ha.trimmed.head c ?_, fun c hc => hb.trimmed.last c ?_⟩, ?_⟩
  · obtain ⟨d, rest, rfl⟩ := List.exists_cons_of_ne_nil hane
    exact hc
  · rw [List.getLast?_append, List.getLast?_cons_of_ne_nil hbne] at hc
    rw [List.getLast?_eq_some_getLast hbne] at hc ⊢
    exact hc
  · simp [ha.no_newline, hb.no_newline]

/-- Values that are not empty, with spaces between them, make a value. -/
lemma isValue_intercalate {parts : List (List Char)} (hne : ∀ part ∈ parts, part ≠ [])
    (hparts : ∀ part ∈ parts, IsValue part) : IsValue ([' '].intercalate parts) := by
  induction parts with
  | nil => exact ⟨⟨by simp, by simp⟩, by simp⟩
  | cons part parts ih =>
    have hpart := hparts part (by simp)
    have hrest := ih (fun p hp => hne p (by simp [hp])) fun p hp => hparts p (by simp [hp])
    cases parts with
    | nil => simpa using hpart
    | cons part' parts =>
      have hjoin : [' '].intercalate (part :: part' :: parts)
          = part ++ ' ' :: [' '].intercalate (part' :: parts) := by
        simp [List.intercalate_cons_cons]
      have hrestne : [' '].intercalate (part' :: parts) ≠ [] := by
        obtain ⟨c, rest, hc⟩ := List.exists_cons_of_ne_nil (hne part' (by simp))
        cases parts <;> simp [List.intercalate_cons_cons, hc]
      rw [hjoin]
      exact hpart.append_space hrest (hne part (by simp)) hrestne

/-! ### The outline of a document -/

lemma isValue_of_mem_stretchesFrom {part : Nat × List Char} :
    ∀ (rest : List Line) (k : Nat), (∀ line ∈ rest, '\n' ∉ line.text) →
      part ∈ stretchesFrom k rest → IsValue part.2 := by
  intro rest
  induction rest with
  | nil =>
    intro k _ hpart
    exact absurd hpart (by simp [stretchesFrom])
  | cons line rest ih =>
    intro k hlines hpart
    have hrest : ∀ line ∈ rest, '\n' ∉ line.text := fun l hl => hlines l (by simp [hl])
    rw [stretchesFrom] at hpart
    split at hpart
    · exact ih (k + 1) hrest hpart
    · rcases List.mem_cons.1 hpart with rfl | hpart
      · exact isValue_trim (hlines line (by simp))
      · split at hpart
        · exact ih (k + 1) hrest hpart
        · exact absurd hpart (by simp)

lemma isValue_joinStretches {lines : List Line} (hlines : ∀ line ∈ lines, '\n' ∉ line.text)
    {row : Row} (hrow : HoldsKey lines row) :
    IsValue (joinStretches (stretches lines row)) := by
  obtain ⟨⟨hline, -⟩, hentry, -⟩ := hrow
  have hvalue : '\n' ∉ valuePart row.line.text := by
    have hmem := hlines row.line (List.mem_of_getElem? hline)
    rw [← keyPart_append_valuePart hentry.equals] at hmem
    simp only [List.mem_append, List.mem_cons, not_or] at hmem
    exact hmem.2.2
  have hstretches : ∀ part ∈ stretches lines row, IsValue part.2 := by
    intro part hpart
    rcases List.mem_cons.1 hpart with rfl | hpart
    · exact isValue_trim hvalue
    · split at hpart
      · exact isValue_of_mem_stretchesFrom _ _
          (fun line hmem => hlines line (List.mem_of_mem_drop hmem)) hpart
      · exact absurd hpart (by simp)
  refine isValue_intercalate (fun part hpart => ?_) fun part hpart => ?_
  · simpa using (List.mem_filter.1 hpart).2
  · obtain ⟨stretch, hstretch, rfl⟩ := List.mem_map.1 (List.mem_filter.1 hpart).1
    exact (hstretches stretch hstretch).withoutBackslash

lemma isKey_of_holdsKey {lines : List Line} (hlines : ∀ line ∈ lines, '\n' ∉ line.text)
    {row : Row} (hrow : HoldsKey lines row) : IsKey (trim (keyPart row.line.text)) := by
  obtain ⟨⟨hline, -⟩, hentry, hkey⟩ := hrow
  have hsplit := keyPart_append_valuePart hentry.equals
  have hhead := head?_trim_append hkey ('=' :: valuePart row.line.text)
  rw [hsplit] at hhead
  have hcomment := hentry.not_comment
  have hbracket := hentry.not_bracket
  rw [IsCommentLine, hhead, not_or] at hcomment
  rw [hhead] at hbracket
  refine ⟨hkey, trimmed_trim _, fun hmem => ?_, fun hmem => ?_, hcomment.1, hcomment.2, hbracket⟩
  · exact equals_not_mem_keyPart _ (mem_of_mem_trim hmem)
  · refine hlines row.line (List.mem_of_getElem? hline) ?_
    rw [← hsplit]
    exact List.mem_append_left _ (mem_of_mem_trim hmem)

lemma isName_of_opensSection {lines : List Line} (hlines : ∀ line ∈ lines, '\n' ∉ line.text)
    {row : Row} (hrow : OpensSection lines row) : IsName (trim row.line.text).tail.dropLast := by
  obtain ⟨⟨hline, -⟩, name, hname⟩ := hrow
  rw [hname.tail_dropLast]
  refine ⟨hname.name_ne_nil, hname.no_opening, hname.no_closing, fun hmem => ?_⟩
  refine hlines row.line (List.mem_of_getElem? hline) (mem_of_mem_trim ?_)
  rw [hname.trim_eq]
  simp [hmem]

/-- The outline of a document that is read from a text is well formed. -/
lemma wellFormed_outline_parse (text : List Char) :
    ∀ sec ∈ (Document.parse text).outline, sec.WellFormed := by
  obtain ⟨layout, h⟩ := exists_layout text
  have hlines : ∀ line ∈ physicalLines text, '\n' ∉ line.text :=
    fun _ => newline_not_mem_of_mem_physicalLines
  intro sec hsec
  rw [Document.outline, h.sections_eq, List.map_map, List.mem_map] at hsec
  obtain ⟨block, hblock, rfl⟩ := hsec
  have hentries : ∀ entry ∈ (sectionOn (physicalLines text) block.1 block.2).outline.entries,
      ∃ row ∈ block.2, entry = ((directiveOn (physicalLines text) row).key,
        (directiveOn (physicalLines text) row).value) := by
    intro entry hentry
    obtain ⟨directive, hdirective, rfl⟩ := List.mem_map.1 hentry
    obtain ⟨row, hrow, rfl⟩ := List.mem_map.1 hdirective
    exact ⟨row, hrow, rfl⟩
  refine ⟨?_, fun entry hentry => ?_, fun entry hentry => ?_⟩
  · show IsName (String.ofList _).toList
    rw [String.toList_ofList]
    exact isName_of_opensSection hlines (h.opensSection hblock)
  · obtain ⟨row, hrow, rfl⟩ := hentries entry hentry
    show IsKey (String.ofList _).toList
    rw [String.toList_ofList]
    exact isKey_of_holdsKey hlines (h.under hblock hrow).holdsKey
  · obtain ⟨row, hrow, rfl⟩ := hentries entry hentry
    show IsValue (String.ofList _).toList
    rw [String.toList_ofList]
    exact isValue_joinStretches hlines (h.under hblock hrow).holdsKey

end UnitCheck
