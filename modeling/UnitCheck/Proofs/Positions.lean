/-
The positions of diagnostics.

The reader of unit files and the line index cut a text into lines each in its own way: the reader
passes over a byte order mark and drops line ends, the index counts bytes up to each line feed.
Behind the first line both agree (`physicalLines_of_pos`), and no key stands on the first line, since
a header comes before it.  So the position of a diagnostic leads back to the key that it marks.
-/
import UnitCheck.Proofs.Document.Values
import UnitCheck.Proofs.LineIndex

namespace UnitCheck

/-- The position is that of a key: its line is not the first one, there are only blank characters
in front of the key, and behind it there are only blank characters up to an equals sign. -/
structure LeadsToKey (text : List Char) (position : Position) (key : List Char) : Prop where
  two_le_line : 2 ≤ position.line
  on_line : ∃ indent blanks value,
    (text.splitOn '\n')[position.line - 1]? = some (indent ++ (key ++ (blanks ++ '=' :: value))) ∧
      position.column = indent.length + 1 ∧
      (∀ c ∈ indent, isBlank c = true) ∧ ∀ c ∈ blanks, isBlank c = true

lemma Position.after_append_newline (before : List Char) {part : List Char} (h : '\n' ∉ part) :
    Position.after (before ++ '\n' :: part) = ⟨before.count '\n' + 2, part.length + 1⟩ := by
  have hfirst : Position.after (before ++ ['\n']) = ⟨before.count '\n' + 2, 1⟩ := by
    simp [Position.after]
  rw [List.append_cons, Position.after_append _ h, hfirst, Nat.add_comm 1]

/-! ### Keys -/

/-- The line of an entry: its key, with blank characters around it, an equals sign and the rest. -/
lemma exists_indentation_append_key {text : List Char} (h : '=' ∈ text) :
    ∃ blanks, (∀ c ∈ blanks, isBlank c = true) ∧
      indentation (keyPart text) ++ (trim (keyPart text) ++ (blanks ++ '=' :: valuePart text))
        = text := by
  obtain ⟨blanks, hblanks, hkey⟩ := exists_indentation_append_trim (keyPart text)
  refine ⟨blanks, hblanks, ?_⟩
  calc indentation (keyPart text) ++ (trim (keyPart text) ++ (blanks ++ '=' :: valuePart text))
      = indentation (keyPart text) ++ (trim (keyPart text) ++ blanks) ++ '=' :: valuePart text := by
        simp only [List.append_assoc]
    _ = text := by rw [hkey, keyPart_append_valuePart h]

namespace HoldsKey

variable {text : List Char} {row : Row}

/-- The position of a key that does not stand on the first line. -/
lemma position_key (h : HoldsKey (physicalLines text) row) (hnumber : 0 < row.number) :
    (LineIndex.ofText text).position? (row.line.trimmedSpan (keyPart row.line.text)).start =
      some ⟨row.number + 1, (indentation (keyPart row.line.text)).length + 1⟩ := by
  obtain ⟨⟨hline, -⟩, hentry, -⟩ := h
  obtain ⟨-, before, after, htext, hoffset, hcount⟩ := physicalLines_of_pos hnumber hline
  obtain ⟨blanks, -, hkey⟩ := exists_indentation_append_key hentry.equals
  set indent := indentation (keyPart row.line.text)
  set behind := trim (keyPart row.line.text) ++ (blanks ++ '=' :: valuePart row.line.text)
  have hnewline : '\n' ∉ indent := by
    intro hmem
    refine newline_not_mem_of_mem_physicalLines (List.mem_of_getElem? hline) ?_
    rw [← hkey]
    exact List.mem_append_left _ hmem
  have hstart : (row.line.trimmedSpan (keyPart row.line.text)).start
      = byteLength (before ++ '\n' :: indent) := by
    rw [byteLength_append, byteLength_newline_cons, ← Nat.add_assoc, ← hoffset]
    rfl
  have hsplit : text = (before ++ '\n' :: indent) ++ (behind ++ after) := by
    rw [htext, ← hkey]
    simp only [List.append_assoc, List.cons_append]
  have hposition := LineIndex.position?_append (before ++ '\n' :: indent) (behind ++ after)
  rw [← hsplit, ← hstart, Position.after_append_newline before hnewline] at hposition
  rw [hposition, ← hcount]

lemma leadsToKey (h : HoldsKey (physicalLines text) row) (hnumber : 0 < row.number) :
    LeadsToKey text ⟨row.number + 1, (indentation (keyPart row.line.text)).length + 1⟩
      (trim (keyPart row.line.text)) := by
  obtain ⟨⟨hline, -⟩, hentry, -⟩ := h
  obtain ⟨blanks, hblanks, hkey⟩ := exists_indentation_append_key hentry.equals
  refine ⟨Nat.succ_le_succ hnumber, indentation (keyPart row.line.text), blanks,
    valuePart row.line.text, ?_, rfl, fun c hc => List.mem_takeWhile_imp hc, hblanks⟩
  rw [hkey]
  exact (physicalLines_of_pos hnumber hline).1

end HoldsKey

/-! ### Diagnostics -/

/-- The diagnostics of a document mark some of its keys, in the order of the directives. -/
lemma Registry.validate_sublist (registry : Registry) (document : Document) :
    (registry.validate document).Sublist
      (document.directives.map fun directive => .unrecognized directive.keySpan) := by
  rw [Document.directives, List.map_flatMap]
  refine List.Sublist.flatMap_right _ fun sec _ => ?_
  unfold validateSection
  split
  · exact List.filter_sublist.map _
  · exact List.nil_sublist _
  · exact List.nil_sublist _

lemma Document.HasLayout.number_pos {lines : List Line} {document : Document}
    {layout : List (Row × List Row)} (h : document.HasLayout lines layout) {row : Row}
    (hrow : row ∈ layout.flatMap (·.2)) : 0 < row.number := by
  obtain ⟨block, hblock, hrow⟩ := List.mem_flatMap.1 hrow
  exact Nat.zero_lt_of_lt (h.under hblock hrow).number_lt

/-- **Positions lead back to the flagged keys.**  The position of every diagnostic exists.  Its
line, which is not the first one, is the piece of that number between the line feeds of the text,
and on it the marked key stands at the column, with only blank characters in front and only blank
characters between it and an equals sign.  The lines of successive diagnostics increase. -/
theorem validate_positions_lead_to_keys (registry : Registry) (text : List Char) :
    (∀ diagnostic ∈ registry.validate (Document.parse text), ∃ position key,
      (LineIndex.ofText text).position? diagnostic.span.start = some position ∧
        diagnostic.span.slice? text = some key ∧ LeadsToKey text position key) ∧
    (registry.validate (Document.parse text)).Pairwise fun a b => ∃ positionA positionB,
      (LineIndex.ofText text).position? a.span.start = some positionA ∧
        (LineIndex.ofText text).position? b.span.start = some positionB ∧
        positionA.line < positionB.line := by
  obtain ⟨layout, h⟩ := exists_layout text
  have hsublist := registry.validate_sublist (Document.parse text)
  rw [h.directives_eq, List.map_map] at hsublist
  have hposition : ∀ row ∈ layout.flatMap (·.2),
      (LineIndex.ofText text).position? (row.line.trimmedSpan (keyPart row.line.text)).start =
        some ⟨row.number + 1, (indentation (keyPart row.line.text)).length + 1⟩ :=
    fun row hrow => (h.holdsKey_of_mem hrow).position_key (h.number_pos hrow)
  refine ⟨fun diagnostic hdiagnostic => ?_, List.Pairwise.sublist hsublist ?_⟩
  · obtain ⟨row, hrow, rfl⟩ := List.mem_map.1 (hsublist.subset hdiagnostic)
    have hholds := h.holdsKey_of_mem hrow
    exact ⟨_, _, hposition row hrow, hholds.covers_key.slice_eq,
      hholds.leadsToKey (h.number_pos hrow)⟩
  · rw [List.pairwise_map]
    refine h.keys_increasing.imp_of_mem fun {a b} ha hb hlt => ?_
    exact ⟨_, _, hposition a ha, hposition b hb, Nat.succ_lt_succ hlt⟩

/-- A text with a byte order mark, carriage returns, a continued value and a wide space in front of
the second flagged key. -/
theorem validate_positions_lead_to_keys_indented :
    (Registry.empty.extendSection "A" []).validate
        (Document.parse "\uFEFF[A]\r\nk=\\\n x=y\n\u3000é b =1\r\n".toList)
      = [.unrecognized ⟨8, 9⟩, .unrecognized ⟨20, 24⟩] ∧
    (LineIndex.ofText "\uFEFF[A]\r\nk=\\\n x=y\n\u3000é b =1\r\n".toList).position? 20
      = some ⟨4, 2⟩ ∧
    LeadsToKey "\uFEFF[A]\r\nk=\\\n x=y\n\u3000é b =1\r\n".toList ⟨4, 2⟩ "é b".toList := by
  have hvalidate : (Registry.empty.extendSection "A" []).validate
      (Document.parse "\uFEFF[A]\r\nk=\\\n x=y\n\u3000é b =1\r\n".toList)
        = [.unrecognized ⟨8, 9⟩, .unrecognized ⟨20, 24⟩] := by
    decide
  have hposition :
      (LineIndex.ofText "\uFEFF[A]\r\nk=\\\n x=y\n\u3000é b =1\r\n".toList).position? 20
        = some ⟨4, 2⟩ :=
    LineIndex.position?_append "\uFEFF[A]\r\nk=\\\n x=y\n\u3000".toList "é b =1\r\n".toList
  obtain ⟨position, key, hp, hkey, hleads⟩ := (validate_positions_lead_to_keys
    (Registry.empty.extendSection "A" []) "\uFEFF[A]\r\nk=\\\n x=y\n\u3000é b =1\r\n".toList).1
    (.unrecognized ⟨20, 24⟩) (by rw [hvalidate]; simp)
  obtain rfl : (⟨4, 2⟩ : Position) = position := Option.some.inj (hposition.symm.trans hp)
  have hslice : Span.slice? ⟨20, 24⟩ "\uFEFF[A]\r\nk=\\\n x=y\n\u3000é b =1\r\n".toList
      = some "é b".toList := by
    decide
  obtain rfl : "é b".toList = key := Option.some.inj (hslice.symm.trans hkey)
  exact ⟨hvalidate, hposition, hleads⟩

end UnitCheck
