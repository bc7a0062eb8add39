/-
The kinds of lines.

A line that stands on its own is an entry, a section header, or neither; a line that continues
a value is a comment or a further stretch of the value.  For each kind there is one equation
that tells what the line contributes and whether it asks to be continued.

* `readLine_of_entry`, `readLine_of_header` and `readLine_of_neither` for lines on their own;
* `readLine_continued_of_comment` and `readLine_continued` for lines that continue a value.
-/
import UnitCheck.Document.Reader
import UnitCheck.Proofs.Text.Trim

namespace UnitCheck

/-- The part of a line before its first equals sign. -/
def keyPart (text : List Char) : List Char :=
  text.takeWhile (· != '=')

/-- The part of a line behind its first equals sign. -/
def valuePart (text : List Char) : List Char :=
  (text.dropWhile (· != '=')).tail

/-- Does a text end in the character that asks for a continuation? -/
def EndsInBackslash (text : List Char) : Prop :=
  text.getLast? = some '\\'

instance (text : List Char) : Decidable (EndsInBackslash text) :=
  inferInstanceAs (Decidable (text.getLast? = some '\\'))

/-- A line whose first character that is not blank begins a comment. -/
def IsCommentLine (text : List Char) : Prop :=
  (trim text).head? = some '#' ∨ (trim text).head? = some ';'

instance (text : List Char) : Decidable (IsCommentLine text) :=
  inferInstanceAs (Decidable (_ ∨ _))

/-- A line on which an entry stands: neither blank nor a comment, without a bracket in front,
and with an equals sign. -/
structure IsEntry (text : List Char) : Prop where
  not_blank : trim text ≠ []
  not_comment : ¬ IsCommentLine text
  not_bracket : (trim text).head? ≠ some '['
  equals : '=' ∈ text

instance (text : List Char) : Decidable (IsEntry text) :=
  decidable_of_iff
    (trim text ≠ [] ∧ ¬ IsCommentLine text ∧ (trim text).head? ≠ some '[' ∧ '=' ∈ text)
    ⟨fun ⟨h₁, h₂, h₃, h₄⟩ => ⟨h₁, h₂, h₃, h₄⟩, fun ⟨h₁, h₂, h₃, h₄⟩ => ⟨h₁, h₂, h₃, h₄⟩⟩

/-- A line that holds the header of a section of the given name: the trimmed line is the name in
brackets, and the name is not empty and has no bracket in it. -/
structure IsHeader (text name : List Char) : Prop where
  trim_eq : trim text = '[' :: (name ++ [']'])
  name_ne_nil : name ≠ []
  no_opening : '[' ∉ name
  no_closing : ']' ∉ name

/-! ### The parts of an entry -/

lemma keyPart_append_valuePart {text : List Char} (h : '=' ∈ text) :
    keyPart text ++ '=' :: valuePart text = text := by
  have hne : text.dropWhile (· != '=') ≠ [] := by
    rw [ne_eq, List.dropWhile_eq_nil_iff]
    intro hall
    exact absurd (hall '=' h) (by simp)
  obtain ⟨c, rest, hc⟩ := List.exists_cons_of_ne_nil hne
  have hceq : c = '=' := by
    have := List.head?_dropWhile_not (· != '=') text
    rw [hc] at this
    simpa using this
  subst hceq
  rw [keyPart, valuePart, hc, List.tail_cons, ← hc]
  exact List.takeWhile_append_dropWhile

lemma equals_not_mem_keyPart (text : List Char) : '=' ∉ keyPart text := by
  intro h
  exact absurd (List.mem_takeWhile_imp h) (by simp)

lemma bne_equals_of_not_mem {text : List Char} (h : '=' ∉ text) :
    ∀ c ∈ text, (c != '=') = true := by
  intro c hc
  simp only [bne_iff_ne, ne_eq]
  rintro rfl
  exact h hc

lemma keyPart_append_equals {key : List Char} (h : '=' ∉ key) (value : List Char) :
    keyPart (key ++ '=' :: value) = key := by
  simp [keyPart, List.takeWhile_append_of_pos (bne_equals_of_not_mem h)]

lemma valuePart_append_equals {key : List Char} (h : '=' ∉ key) (value : List Char) :
    valuePart (key ++ '=' :: value) = value := by
  simp [valuePart, List.dropWhile_append_of_pos (bne_equals_of_not_mem h)]

lemma keyPart_append {text : List Char} (h : '=' ∈ text) (rest : List Char) :
    keyPart (text ++ rest) = keyPart text := by
  conv_lhs => rw [← keyPart_append_valuePart h, List.append_assoc, List.cons_append]
  exact keyPart_append_equals (equals_not_mem_keyPart text) _

lemma valuePart_append {text : List Char} (h : '=' ∈ text) (rest : List Char) :
    valuePart (text ++ rest) = valuePart text ++ rest := by
  conv_lhs => rw [← keyPart_append_valuePart h, List.append_assoc, List.cons_append]
  exact valuePart_append_equals (equals_not_mem_keyPart text) _

/-! ### Continuation marks -/

lemma splitContinuation_snd {text : List Char} :
    (splitContinuation text).2 = true ↔ EndsInBackslash text := by
  unfold splitContinuation EndsInBackslash
  split <;> simp_all

lemma isComment_trim {text : List Char} : isComment (trim text) = true ↔ IsCommentLine text := by
  simp [isComment, IsCommentLine]

/-! ### Headers -/

lemma headerName?_eq_some_iff {trimmed name : List Char} :
    headerName? trimmed = some name ↔
      trimmed = '[' :: (name ++ [']']) ∧ name ≠ [] ∧ '[' ∉ name ∧ ']' ∉ name := by
  cases trimmed with
  | nil => simp [headerName?]
  | cons c rest =>
    simp only [headerName?]
    constructor
    · intro h
      split at h
      · rename_i hcond
        obtain ⟨rfl, hlast, hne, hopen, hclose⟩ := hcond
        obtain rfl : rest.dropLast = name := Option.some.inj h
        refine ⟨?_, hne, hopen, hclose⟩
        rw [List.dropLast_append_getLast? _ hlast]
      · exact absurd h (by simp)
    · rintro ⟨heq, hne, hopen, hclose⟩
      obtain ⟨rfl, rfl⟩ := List.cons.inj heq
      rw [List.dropLast_concat, if_pos ⟨rfl, by simp, hne, hopen, hclose⟩]

lemma headerName?_trim {text name : List Char} :
    headerName? (trim text) = some name ↔ IsHeader text name := by
  rw [headerName?_eq_some_iff]
  exact ⟨fun ⟨h₁, h₂, h₃, h₄⟩ => ⟨h₁, h₂, h₃, h₄⟩, fun ⟨h₁, h₂, h₃, h₄⟩ => ⟨h₁, h₂, h₃, h₄⟩⟩

lemma IsHeader.head_trim {text name : List Char} (h : IsHeader text name) :
    (trim text).head? = some '[' := by
  rw [h.trim_eq]
  rfl

lemma IsHeader.trim_ne_nil {text name : List Char} (h : IsHeader text name) : trim text ≠ [] := by
  rw [h.trim_eq]
  exact List.cons_ne_nil _ _

lemma IsHeader.not_entry {text name : List Char} (h : IsHeader text name) : ¬ IsEntry text :=
  fun hentry => hentry.not_bracket h.head_trim

/-! ### One line -/

lemma readLine_of_entry (line : Line) (h : IsEntry line.text) :
    readLine false line =
      (some (.entry (trim (keyPart line.text)) (line.trimmedSpan (keyPart line.text))
        (splitContinuation (trim (valuePart line.text))).1),
        (splitContinuation (trim (valuePart line.text))).2) := by
  have hcomment : isComment (trim line.text) = false :=
    Bool.eq_false_iff.2 (mt isComment_trim.1 h.not_comment)
  have hright : line.text.dropWhile (· != '=') = '=' :: valuePart line.text := by
    have hsplit : line.text.takeWhile (· != '=') ++ line.text.dropWhile (· != '=')
        = keyPart line.text ++ '=' :: valuePart line.text :=
      List.takeWhile_append_dropWhile.trans (keyPart_append_valuePart h.equals).symm
    exact List.append_cancel_left hsplit
  simp [readLine, readFresh, readEntry, h.not_blank, h.not_bracket, hcomment, hright, keyPart]

lemma readLine_of_header (line : Line) {name : List Char} (h : IsHeader line.text name) :
    readLine false line = (some (.header name (line.trimmedSpan line.text)), false) := by
  have hname := headerName?_trim.2 h
  have hcomment : isComment (trim line.text) = false := by
    simp [isComment, h.head_trim]
  simp [readLine, readFresh, h.head_trim, hname, hcomment, h.trim_ne_nil]

lemma readLine_of_neither (line : Line) (hentry : ¬ IsEntry line.text)
    (hheader : ∀ name, ¬ IsHeader line.text name) : readLine false line = (none, false) := by
  simp only [readLine, readFresh, Bool.false_eq_true, if_false]
  split
  · rfl
  · rename_i hskip
    simp only [Bool.or_eq_true, List.isEmpty_iff, not_or, isComment_trim] at hskip
    split
    · -- a line with a bracket in front that is no header
      rcases hname : headerName? (trim line.text) with _ | name
      · rfl
      · exact absurd (headerName?_trim.1 hname) (hheader name)
    · rename_i hbracket
      have hequals : '=' ∉ line.text := fun hmem =>
        hentry ⟨hskip.1, hskip.2, by simpa using hbracket, hmem⟩
      have hright : line.text.dropWhile (· != '=') = [] :=
        List.dropWhile_eq_nil_iff.2 (bne_equals_of_not_mem hequals)
      simp [readEntry, hright]

lemma readLine_continued_of_comment (line : Line) (h : IsCommentLine line.text) :
    readLine true line = (none, true) := by
  simp [readLine, readContinued, isComment_trim.2 h]

lemma readLine_continued (line : Line) (h : ¬ IsCommentLine line.text) :
    readLine true line =
      (some (.segment (splitContinuation (trim line.text)).1),
        (splitContinuation (trim line.text)).2) := by
  have hcomment : isComment (trim line.text) = false :=
    Bool.eq_false_iff.2 (mt isComment_trim.1 h)
  simp [readLine, readContinued, hcomment]

lemma pieces_cons (continued : Bool) (line : Line) (lines : List Line) :
    pieces continued (line :: lines) =
      (readLine continued line).1.toList ++ pieces (readLine continued line).2 lines := rfl

/-! ### Blank characters at the end of a line -/

section

variable {rest : List Char} (hrest : ∀ c ∈ rest, isBlank c = true)
include hrest

lemma isEntry_append_of_blank (text : List Char) : IsEntry (text ++ rest) ↔ IsEntry text := by
  have hequals : '=' ∈ text ++ rest ↔ '=' ∈ text := by
    rw [List.mem_append, or_iff_left]
    intro hmem
    exact absurd (hrest '=' hmem) (by decide)
  have htrim := trim_append_of_blank hrest text
  constructor
  · rintro ⟨h₁, h₂, h₃, h₄⟩
    rw [IsCommentLine, htrim] at h₂
    exact ⟨htrim ▸ h₁, h₂, htrim ▸ h₃, hequals.1 h₄⟩
  · rintro ⟨h₁, h₂, h₃, h₄⟩
    rw [IsCommentLine, ← htrim] at h₂
    exact ⟨htrim ▸ h₁, h₂, htrim ▸ h₃, hequals.2 h₄⟩

lemma isHeader_append_of_blank (text name : List Char) :
    IsHeader (text ++ rest) name ↔ IsHeader text name := by
  rw [← headerName?_trim, ← headerName?_trim, trim_append_of_blank hrest]

/-- Blank characters at the end of a line do not change how it is read. -/
lemma readLine_append_of_blank (continued : Bool) (offset : Nat) (text : List Char) :
    readLine continued ⟨offset, text ++ rest⟩ = readLine continued ⟨offset, text⟩ := by
  have htrim := trim_append_of_blank hrest text
  cases continued with
  | true => simp only [readLine, readContinued, if_true, htrim]
  | false =>
    by_cases hentry : IsEntry text
    · rw [readLine_of_entry ⟨offset, text⟩ hentry,
        readLine_of_entry ⟨offset, text ++ rest⟩ ((isEntry_append_of_blank hrest text).2 hentry)]
      simp only [keyPart_append hentry.equals, valuePart_append hentry.equals,
        trim_append_of_blank hrest]
      rfl
    · by_cases hheader : ∃ name, IsHeader text name
      · obtain ⟨name, hname⟩ := hheader
        rw [readLine_of_header ⟨offset, text⟩ hname,
          readLine_of_header ⟨offset, text ++ rest⟩
            ((isHeader_append_of_blank hrest text name).2 hname)]
        simp only [Line.trimmedSpan, htrim, indentation_append hname.trim_ne_nil]
      · push Not at hheader
        rw [readLine_of_neither ⟨offset, text⟩ hentry hheader,
          readLine_of_neither ⟨offset, text ++ rest⟩
            (mt (isEntry_append_of_blank hrest text).1 hentry)
            fun name => mt (isHeader_append_of_blank hrest text name).1 (hheader name)]

end

end UnitCheck
