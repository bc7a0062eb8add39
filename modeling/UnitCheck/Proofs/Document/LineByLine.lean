/-
Reading in one pass.

A unit file can be read in one pass over its lines, which keeps the sections so far and adds each line
to the last one.  Such a pass knows what a continued line belongs to: the last directive, or an entry
that was dropped.  What it makes of the lines to come is what is gathered from them, put behind the
sections so far (`Draft.sections_foldl_step`), so it reads the same document
(`Document.parse_eq_foldl_step`).
-/
import Mathlib.Data.List.ModifyLast
import UnitCheck.Proofs.Document.PhysicalLine

namespace UnitCheck

/-! ### The pass -/

/-- What the next line is. -/
inductive Continuation where
  /-- It stands on its own. -/
  | off
  /-- It continues the value of the last directive. -/
  | append
  /-- It continues an entry that was dropped. -/
  | discard
deriving DecidableEq, Repr

/-- A value and one more segment.  An empty segment adds nothing. -/
def appendSegment (value segment : List Char) : List Char :=
  if segment = [] then value
  else if value = [] then segment
  else value ++ ' ' :: segment

/-- A directive with one more segment of its value. -/
def Directive.append (directive : Directive) (segment : List Char) : Directive :=
  { directive with value := String.ofList (appendSegment directive.value.toList segment) }

/-- Append a segment to the last directive of the last section. -/
def appendToLast (sections : List Section) (segment : List Char) : List Section :=
  sections.modifyLast fun sec =>
    { sec with directives := sec.directives.modifyLast (·.append segment) }

/-- Add a directive to the last section. -/
def addToLast (sections : List Section) (directive : Directive) : List Section :=
  sections.modifyLast fun sec => { sec with directives := sec.directives ++ [directive] }

/-- What a pass has read. -/
structure Draft where
  sections : List Section := []
  continuation : Continuation := .off
deriving DecidableEq, Repr

namespace Draft

/-- Is the next line a continuation? -/
def continued (draft : Draft) : Bool :=
  draft.continuation != .off

/-- Read one more line. -/
def step (draft : Draft) (line : Line) : Draft :=
  let trimmed := trim line.text
  if draft.continued then
    if isComment trimmed then draft
    else
      let (segment, more) := splitContinuation trimmed
      { sections :=
          if draft.continuation = .append then appendToLast draft.sections segment
          else draft.sections
        continuation := if more then draft.continuation else .off }
  else if trimmed.isEmpty || isComment trimmed then draft
  else if trimmed.head? == some '[' then
    match headerName? trimmed with
    | some name =>
      let span := line.trimmedSpan line.text
      { draft with sections := draft.sections ++ [⟨String.ofList name, span, []⟩] }
    | none => draft
  else
    match line.text.dropWhile (· != '=') with
    | [] => draft
    | _ :: right =>
      let left := line.text.takeWhile (· != '=')
      let (segment, more) := splitContinuation (trim right)
      if draft.sections = [] ∨ trim left = [] then
        { draft with continuation := if more then .discard else .off }
      else
        let key := String.ofList (trim left)
        { sections :=
            addToLast draft.sections ⟨key, line.trimmedSpan left, String.ofList segment⟩
          continuation := if more then .append else .off }

end Draft

/-! ### One line -/

/-- A line that stands on its own contributes nothing, a header or an entry, and asks to be continued
only in an entry. -/
lemma readLine_fresh_cases (line : Line) :
    readLine false line = (none, false) ∨
      (∃ name span, readLine false line = (some (.header name span), false)) ∨
      ∃ key span segment more, readLine false line = (some (.entry key span segment), more) := by
  by_cases hentry : IsEntry line.text
  · exact Or.inr (Or.inr ⟨_, _, _, _, readLine_of_entry line hentry⟩)
  · by_cases hheader : ∃ name, IsHeader line.text name
    · obtain ⟨name, hname⟩ := hheader
      exact Or.inr (Or.inl ⟨_, _, readLine_of_header line hname⟩)
    · push Not at hheader
      exact Or.inl (readLine_of_neither line hentry hheader)

namespace Draft

/-- Take in what a line contributes. -/
def add (draft : Draft) : Option Piece × Bool → Draft
  | (none, _) => draft
  | (some (.header name span), _) =>
    { sections := draft.sections ++ [⟨String.ofList name, span, []⟩] }
  | (some (.entry key span segment), more) =>
    if draft.sections = [] ∨ key = [] then
      { draft with continuation := if more then .discard else .off }
    else
      { sections := addToLast draft.sections ⟨String.ofList key, span, String.ofList segment⟩
        continuation := if more then .append else .off }
  | (some (.segment text), more) =>
    { sections :=
        if draft.continuation = .append then appendToLast draft.sections text else draft.sections
      continuation := if more then draft.continuation else .off }

lemma step_eq_add (draft : Draft) (line : Line) :
    draft.step line = draft.add (readLine draft.continued line) := by
  cases hcontinued : draft.continued with
  | true =>
    simp only [step, readLine, readContinued, hcontinued, if_true]
    split <;> rfl
  | false =>
    have hoff : draft.continuation = .off := by simpa [continued] using hcontinued
    simp only [step, readLine, readFresh, readEntry, hcontinued, Bool.false_eq_true, if_false]
    split
    · rfl
    · split
      · cases headerName? (trim line.text) with
        | none => rfl
        | some name => simp [add, hoff]
      · cases line.text.dropWhile (· != '=') <;> rfl

lemma continued_add_fresh {draft : Draft} (h : draft.continued = false) (line : Line) :
    (draft.add (readLine false line)).continued = (readLine false line).2 := by
  rcases readLine_fresh_cases line with heq | ⟨name, span, heq⟩ | ⟨key, span, segment, more, heq⟩
  · rw [heq]
    exact h
  · rw [heq]
    rfl
  · rw [heq, add]
    cases more <;> split <;> rfl

lemma continued_add_continued {draft : Draft} (h : draft.continued = true) (line : Line) :
    (draft.add (readLine true line)).continued = (readLine true line).2 := by
  by_cases hcomment : IsCommentLine line.text
  · rw [readLine_continued_of_comment line hcomment]
    exact h
  · rw [readLine_continued line hcomment, add]
    cases (splitContinuation (trim line.text)).2 with
    | true => exact h
    | false => rfl

lemma continued_step (draft : Draft) (line : Line) :
    (draft.step line).continued = (readLine draft.continued line).2 := by
  rw [step_eq_add]
  cases h : draft.continued with
  | true => exact continued_add_continued h line
  | false => exact continued_add_fresh h line

/-! ### What is gathered from the lines to come -/

/-- The sections of a draft and what is gathered from the lines behind it. -/
def finish (draft : Draft) (behind : Gathered) : List Section :=
  let sections :=
    if draft.continuation = .append then behind.segments.foldl appendToLast draft.sections
    else draft.sections
  behind.directives.foldl addToLast sections ++ behind.sections

end Draft

lemma foldl_addToLast_nil (directives : List Directive) : directives.foldl addToLast [] = [] := by
  induction directives with
  | nil => rfl
  | cons directive directives ih => exact ih

/-- Directives that are added to the last section stand behind those that it has. -/
lemma foldl_addToLast_concat (sections : List Section) (sec : Section)
    (directives : List Directive) :
    directives.foldl addToLast (sections ++ [sec]) =
      sections ++ [{ sec with directives := sec.directives ++ directives }] := by
  induction directives generalizing sec with
  | nil => simp
  | cons directive directives ih =>
    rw [List.foldl_cons, addToLast, List.modifyLast_concat, ih]
    simp

lemma appendToLast_addToLast (sections : List Section) (directive : Directive)
    (segment : List Char) :
    appendToLast (addToLast sections directive) segment =
      addToLast sections (directive.append segment) := by
  rcases List.eq_nil_or_concat sections with rfl | ⟨sections, sec, rfl⟩
  · rfl
  · simp [appendToLast, addToLast, List.modifyLast_concat]

/-- The first two segments of a value can be put together before the others. -/
lemma joinSegments_appendSegment (value segment : List Char) (segments : List (List Char)) :
    joinSegments (appendSegment value segment :: segments) =
      joinSegments (value :: segment :: segments) := by
  by_cases hsegment : segment = []
  · rw [appendSegment, if_pos hsegment, hsegment]
    by_cases hvalue : value = [] <;> simp [joinSegments, hvalue]
  · by_cases hvalue : value = []
    · simp [appendSegment, joinSegments, hsegment, hvalue]
    · rw [appendSegment, if_neg hsegment, if_neg hvalue, joinSegments, joinSegments,
        List.filter_cons_of_pos (by simp), List.filter_cons_of_pos (by simpa using hvalue),
        List.filter_cons_of_pos (by simpa using hsegment)]
      cases segments.filter (· ≠ []) <;> simp [List.intercalate]

/-- Segments that are appended to a new directive one by one are joined to its value. -/
lemma foldl_appendToLast_addToLast (sections : List Section) (key : String) (span : Span)
    (value : List Char) (segments : List (List Char)) :
    segments.foldl appendToLast (addToLast sections ⟨key, span, String.ofList value⟩) =
      addToLast sections ⟨key, span, String.ofList (joinSegments (value :: segments))⟩ := by
  induction segments generalizing value with
  | nil => rw [List.foldl_nil, joinSegments_singleton]
  | cons segment segments ih =>
    rw [List.foldl_cons, appendToLast_addToLast, Directive.append, String.toList_ofList, ih,
      joinSegments_appendSegment]

/-- Lines that stand on their own leave no segment for an entry before them. -/
lemma segments_gathered_fresh (lines : List Line) :
    ((pieces false lines).foldr Gathered.cons {}).segments = [] := by
  induction lines with
  | nil => rfl
  | cons line lines ih =>
    rw [pieces_cons]
    rcases readLine_fresh_cases line with heq | ⟨name, span, heq⟩ | ⟨key, span, segment, more, heq⟩
    · rw [heq]
      exact ih
    · rw [heq]
      rfl
    · rw [heq]
      rfl

namespace Draft

/-- What a line contributes can be added to the draft or to what is gathered behind it. -/
lemma finish_add (draft : Draft) (read : Option Piece × Bool) {behind : Gathered}
    (h : (draft.add read).continued = false → behind.segments = []) :
    (draft.add read).finish behind = draft.finish (read.1.toList.foldr Gathered.cons behind) := by
  obtain ⟨piece, more⟩ := read
  cases piece with
  | none => rfl
  | some piece =>
    cases piece with
    | header name span =>
      simp [add, finish, Gathered.cons, foldl_addToLast_concat]
    | entry key span segment =>
      by_cases hdropped : draft.sections = [] ∨ key = []
      · rcases hdropped with hnone | hkeyless
        · cases more <;> simp [add, finish, Gathered.cons, hnone, foldl_addToLast_nil]
        · cases more <;> simp [add, finish, Gathered.cons, hkeyless]
      · obtain ⟨hsections, hkey⟩ := not_or.1 hdropped
        cases more with
        | true =>
          simp [add, finish, Gathered.cons, hsections, hkey, foldl_appendToLast_addToLast]
        | false =>
          have hsegments := h (by simp [continued, add, hsections, hkey])
          simp [add, finish, Gathered.cons, hsections, hkey, hsegments, joinSegments_singleton]
    | segment text =>
      cases more with
      | true =>
        by_cases hlast : draft.continuation = .append <;>
          simp [add, finish, Gathered.cons, hlast]
      | false =>
        have hsegments := h rfl
        by_cases hlast : draft.continuation = .append <;>
          simp [add, finish, Gathered.cons, hlast, hsegments]

lemma finish_step (draft : Draft) (line : Line) {behind : Gathered}
    (h : (draft.step line).continued = false → behind.segments = []) :
    (draft.step line).finish behind =
      draft.finish ((readLine draft.continued line).1.toList.foldr Gathered.cons behind) := by
  rw [step_eq_add] at h ⊢
  exact finish_add draft _ h

/-- A pass over lines puts what is gathered from them behind the sections that it had. -/
lemma sections_foldl_step (draft : Draft) (lines : List Line) :
    (lines.foldl step draft).sections =
      draft.finish ((pieces draft.continued lines).foldr Gathered.cons {}) := by
  induction lines generalizing draft with
  | nil => simp [pieces, finish]
  | cons line lines ih =>
    have hsegments : (draft.step line).continued = false →
        ((pieces (draft.step line).continued lines).foldr Gathered.cons {}).segments = [] := by
      intro hcontinued
      rw [hcontinued]
      exact segments_gathered_fresh lines
    rw [List.foldl_cons, ih, finish_step draft line hsegments, continued_step, pieces_cons,
      List.foldr_append]

end Draft

/-- **Reading in one pass.**  The document of a text is what a pass over its lines reads. -/
theorem Document.parse_eq_foldl_step (text : List Char) :
    Document.parse text = ⟨((linesOf text).foldl Draft.step {}).sections⟩ := by
  rw [Draft.sections_foldl_step, Document.parse, Document.ofPieces]
  simp [Draft.finish, Draft.continued, foldl_addToLast_nil]

end UnitCheck
