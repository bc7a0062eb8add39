/-
The rows of a report.

A snippet shows consecutive lines of the text.  Every diagnostic is marked below its own line, and the
lines around a group of diagnostics hold no diagnostic of another group, so each is marked once
(`Displays`).  Such rows take one line each, so all of them are printed (`Displays.fits`).
-/
import UnitCheck.Proofs.Report.Excerpts
import UnitCheck.Proofs.Report.Printed

namespace UnitCheck

/-- The text without its line end of the line with the given number, counted from one. -/
def IsLineBody (text : List Char) (number : Nat) (body : List Char) : Prop :=
  '\r' ∉ body ∧ ((text.splitOn '\n')[number - 1]? = some body ∨
    (text.splitOn '\n')[number - 1]? = some (body ++ ['\r']))

/-- The columns are those of the key of a diagnostic on the line on which it stands. -/
def MarksKey (text body : List Char) (diagnostic : Diagnostic) (position : Position)
    (start bar stop : Nat) : Prop :=
  ∃ key, diagnostic.span.slice? text = some key ∧
    start = textWidth (body.take (position.column - 1)) ∧
    stop = max (textWidth (body.take (position.column - 1 + key.length))) (start + 1) ∧
    start ≤ bar ∧ bar < stop

/-- The rows show lines of the text, and among them the given diagnostics in their order: directly
below the line on which a diagnostic begins come its marker and its message, and there are no other
markers and messages. -/
inductive Displays (text : List Char) : List Diagnostic → List SnippetRow → Prop
  | nil : Displays text [] []
  | line {diagnostics : List Diagnostic} {rows : List SnippetRow} {number : Nat} {body : List Char}
      (hbody : IsLineBody text number body) (hrows : Displays text diagnostics rows) :
      Displays text diagnostics (.source number (expandTabs body) :: rows)
  | marked {diagnostics : List Diagnostic} {rows : List SnippetRow} {diagnostic : Diagnostic}
      {position : Position} {body : List Char} {start bar stop : Nat}
      (hposition : (LineIndex.ofText text).position? diagnostic.span.start = some position)
      (hbody : IsLineBody text position.line body)
      (hmarks : MarksKey text body diagnostic position start bar stop)
      (hrows : Displays text diagnostics rows) :
      Displays text (diagnostic :: diagnostics)
        (.source position.line (expandTabs body) :: .marker start bar stop ::
          .label bar diagnostic.message :: rows)

/-! ### Lines -/

lemma ReturnsEndLines.isLineBody {text chunk : List Char} {k : Nat} (h : ReturnsEndLines text)
    (hchunk : (chunks text)[k]? = some chunk) : IsLineBody text (k + 1) (withoutLineEnd chunk) := by
  obtain ⟨line, hline, hcases⟩ := getElem?_splitOn_of_chunks hchunk
  obtain ⟨body, ending, hbody, -⟩ := h.exists_isLine hchunk
  have hnewline : '\n' ∉ line := not_mem_of_mem_splitOn (List.mem_of_getElem? hline)
  have hplain : '\n' ∉ body ∧ '\r' ∉ body :=
    ⟨fun hmem => (hbody.plain _ hmem).1 rfl, fun hmem => (hbody.plain _ hmem).2 rfl⟩
  rw [hbody.withoutLineEnd_eq, IsLineBody, Nat.add_sub_cancel, hline]
  refine ⟨hplain.2, ?_⟩
  rw [hbody.eq_append] at hcases
  rcases hbody.ending_eq with rfl | rfl | rfl
  · rw [List.append_nil] at hcases
    rcases hcases with rfl | rfl
    · exact absurd (by simp) hplain.1
    · exact Or.inl rfl
  · rcases hcases with heq | rfl
    · exact Or.inl (congrArg some (List.append_cancel_right heq).symm)
    · exact absurd (by simp) hnewline
  · rcases hcases with heq | rfl
    · have hsplit : body ++ ['\r', '\n'] = (body ++ ['\r']) ++ ['\n'] := by simp
      rw [hsplit] at heq
      exact Or.inr (congrArg some (List.append_cancel_right heq).symm)
    · exact absurd (by simp) hnewline

/-- The columns under the key of a diagnostic. -/
lemma KeyOnLine.exists_markerRows {text chunk : List Char} {d : Diagnostic} {k : Nat}
    (h : KeyOnLine text d k) (hchunk : (chunks text)[k]? = some chunk) :
    ∃ column start bar stop,
      (LineIndex.ofText text).position? d.span.start = some ⟨k + 1, column⟩ ∧
      MarksKey text (withoutLineEnd chunk) d ⟨k + 1, column⟩ start bar stop ∧
      markerRows ⟨k + 1, lineOffset text k, chunk⟩ d
        = [.marker start bar stop, .label bar d.message] := by
  obtain ⟨chunk', indent, key, rest, hchunk', hline, -, hspan, hslice, hposition⟩ := h.exists_key
  obtain rfl : chunk = chunk' := Option.some.inj (hchunk.symm.trans hchunk')
  have hstart : SourceLine.widthTo ⟨k + 1, lineOffset text k, chunk⟩ d.span.start
      = textWidth indent := by
    rw [SourceLine.widthTo, SourceLine.text, hspan, hline]
    simp only [Span.ofLength, Nat.add_sub_cancel_left, splitAtByte?_append]
  have hstop : SourceLine.widthTo ⟨k + 1, lineOffset text k, chunk⟩ d.span.stop
      = textWidth (indent ++ key) := by
    rw [SourceLine.widthTo, SourceLine.text, hspan, hline]
    simp only [Span.ofLength, Nat.add_assoc, Nat.add_sub_cancel_left, ← byteLength_append,
      ← List.append_assoc, splitAtByte?_append]
  refine ⟨indent.length + 1, _, _, _, hposition, ⟨key, hslice, ?_, ?_, ?_, ?_⟩, rfl⟩
  · rw [hstart, hline, Nat.add_sub_cancel, List.take_left]
  · rw [hstart, hstop, hline, Nat.add_sub_cancel, ← List.append_assoc, ← List.length_append,
      List.take_left]
  · omega
  · omega

/-- A diagnostic begins on its own line and on no other. -/
lemma KeyOnLine.holds_iff {text chunk : List Char} {d : Diagnostic} {k l : Nat}
    (h : KeyOnLine text d l) (hreturns : ReturnsEndLines text)
    (hchunk : (chunks text)[k]? = some chunk) (number : Nat) :
    SourceLine.holds ⟨number, lineOffset text k, chunk⟩ d.span = true ↔ l = k := by
  have hnext := h.joins.onFirst.lt_lineOffset_succ hreturns
  obtain ⟨-, -, hstart, -⟩ := h.joins.onFirst
  have hmono := lineOffset_mono text
  rw [SourceLine.holds, Bool.and_eq_true, decide_eq_true_eq, decide_eq_true_eq,
    ← lineOffset_succ hchunk]
  show lineOffset text k ≤ d.span.start ∧ d.span.start < lineOffset text (k + 1) ↔ l = k
  constructor
  · rintro ⟨hle, hlt⟩
    by_contra hne
    rcases Nat.lt_or_gt_of_ne hne with hbefore | hbehind
    · have : lineOffset text (l + 1) ≤ lineOffset text k := hmono hbefore
      omega
    · have : lineOffset text (k + 1) ≤ lineOffset text l := hmono hbehind
      omega
  · rintro rfl
    exact ⟨hstart, hnext⟩

/-! ### Stretches of diagnostics -/

/-- The diagnostics on the lines from one number up to another. -/
def betweenLines (text : List Char) (diagnostics : List Diagnostic) (a b : Nat) : List Diagnostic :=
  diagnostics.filter fun d => a ≤ d.lineIn text && d.lineIn text < b

namespace InOrder

variable {text : List Char} {diagnostics : List Diagnostic}

lemma betweenLines_append (h : InOrder text diagnostics) {a b c : Nat} (hab : a ≤ b) (hbc : b ≤ c) :
    betweenLines text diagnostics a c =
      betweenLines text diagnostics a b ++ betweenLines text diagnostics b c := by
  have hincreasing := h.increasing
  clear h
  unfold betweenLines
  induction diagnostics with
  | nil => rfl
  | cons d diagnostics ih =>
    obtain ⟨hd, hrest⟩ := List.pairwise_cons.1 hincreasing
    by_cases hb : d.lineIn text < b
    · have hc : d.lineIn text < c := by omega
      by_cases ha : a ≤ d.lineIn text
      · simp [ha, hb, hc, Nat.not_le.2 hb, ih hrest]
      · simp [ha, Nat.not_le.2 hb, ih hrest]
    · -- all diagnostics from here on are in the second part
      have hbehind : ∀ x ∈ d :: diagnostics, b ≤ x.lineIn text := by
        intro x hx
        rcases List.mem_cons.1 hx with rfl | hx
        · omega
        · have := hd x hx
          omega
      have hfirst : (d :: diagnostics).filter
          (fun x => a ≤ x.lineIn text && x.lineIn text < b) = [] := by
        refine List.filter_eq_nil_iff.2 fun x hx => ?_
        have := hbehind x hx
        simp only [Bool.and_eq_true, decide_eq_true_eq]
        omega
      rw [hfirst, List.nil_append]
      refine List.filter_congr fun x hx => ?_
      have := hbehind x hx
      rw [decide_eq_true this, decide_eq_true (by omega : a ≤ x.lineIn text)]

/-- On a line there is at most one diagnostic. -/
lemma betweenLines_succ (h : InOrder text diagnostics) (k : Nat) :
    betweenLines text diagnostics k (k + 1) = [] ∨
      ∃ d ∈ diagnostics, d.lineIn text = k ∧ betweenLines text diagnostics k (k + 1) = [d] := by
  have hsorted := h.increasing.filter (fun d => k ≤ d.lineIn text && d.lineIn text < k + 1)
  have hline : ∀ d ∈ betweenLines text diagnostics k (k + 1), d ∈ diagnostics ∧ d.lineIn text = k := by
    intro d hd
    obtain ⟨hmem, hbounds⟩ := List.mem_filter.1 hd
    rw [Bool.and_eq_true, decide_eq_true_eq, decide_eq_true_eq] at hbounds
    exact ⟨hmem, by omega⟩
  rw [← betweenLines] at hsorted
  rcases hfilter : betweenLines text diagnostics k (k + 1) with _ | ⟨d, _ | ⟨d', rest⟩⟩
  · exact Or.inl rfl
  · obtain ⟨hmem, hk⟩ := hline d (by simp [hfilter])
    exact Or.inr ⟨d, hmem, hk, rfl⟩
  · rw [hfilter] at hsorted hline
    have hlt := (List.pairwise_cons.1 hsorted).1 d' (by simp)
    have hd := (hline d (by simp)).2
    have hd' := (hline d' (by simp)).2
    omega

lemma rowsOfLine_eq (h : InOrder text diagnostics) (hreturns : ReturnsEndLines text)
    {chunk : List Char} {k : Nat} (hchunk : (chunks text)[k]? = some chunk) :
    rowsOfLine diagnostics ⟨k + 1, lineOffset text k, chunk⟩ =
      .source (k + 1) (expandTabs (withoutLineEnd chunk)) ::
        (betweenLines text diagnostics k (k + 1)).flatMap
          (markerRows ⟨k + 1, lineOffset text k, chunk⟩) := by
  have hfilter : diagnostics.filter
      (fun d => SourceLine.holds ⟨k + 1, lineOffset text k, chunk⟩ d.span)
        = betweenLines text diagnostics k (k + 1) := by
    refine List.filter_congr fun d hd => ?_
    rw [Bool.eq_iff_iff, (h.keyOnLine d hd).holds_iff hreturns hchunk, Bool.and_eq_true,
      decide_eq_true_eq, decide_eq_true_eq]
    omega
  rw [rowsOfLine, hfilter]
  rfl

/-- Consecutive lines of a text show the diagnostics on them. -/
lemma displays (h : InOrder text diagnostics) (hreturns : ReturnsEndLines text)
    {part rest : List (List Char)} {a : Nat} (hpart : (chunks text).drop a = part ++ rest) :
    Displays text (betweenLines text diagnostics a (a + part.length))
      ((sourceLines (a + 1) (lineOffset text a) part).flatMap (rowsOfLine diagnostics)) := by
  induction part generalizing a with
  | nil =>
    have hnone : betweenLines text diagnostics a (a + 0) = [] := by
      refine List.filter_eq_nil_iff.2 fun x _ => ?_
      simp only [Bool.and_eq_true, decide_eq_true_eq]
      omega
    rw [List.length_nil, hnone]
    exact .nil
  | cons chunk part ih =>
    have hchunk : (chunks text)[a]? = some chunk := by
      have hget : ((chunks text).drop a)[0]? = (chunks text)[a + 0]? := List.getElem?_drop
      rw [hpart] at hget
      exact hget.symm
    have hdrop : (chunks text).drop (a + 1) = part ++ rest := by
      rw [← List.tail_drop, hpart]
      rfl
    have hlength : a + (chunk :: part).length = a + 1 + part.length := by
      rw [List.length_cons]
      omega
    have hrows := ih hdrop
    have hbody := hreturns.isLineBody hchunk
    rw [hlength, h.betweenLines_append (Nat.le_succ a) (Nat.le_add_right _ _), sourceLines,
      List.flatMap_cons, h.rowsOfLine_eq hreturns hchunk, ← lineOffset_succ hchunk]
    rcases h.betweenLines_succ a with hnone | ⟨d, hd, hk, hone⟩
    · rw [hnone]
      exact .line hbody hrows
    · have hkey := h.keyOnLine d hd
      rw [hk] at hkey
      obtain ⟨column, start, bar, stop, hposition, hmarks, hmarkers⟩ :=
        hkey.exists_markerRows hchunk
      rw [hone, List.flatMap_singleton, hmarkers]
      exact .marked hposition hbody hmarks hrows

end InOrder

/-- The snippet shows the diagnostics of the group, and its heading has the line of the first one. -/
structure Snippet.Shows (text : List Char) (group : List Diagnostic) (snippet : Snippet) : Prop where
  displays : Displays text group snippet.rows
  heading : ∃ first position, group.head? = some first ∧
    (LineIndex.ofText text).position? first.span.start = some position ∧
      snippet.line = position.line

/-- The numbers of the rows go from the line before the group to the line behind it, the last one
shown. -/
structure Snippet.NumbersAround (text : List Char) (group : List Diagnostic) (snippet : Snippet) :
    Prop where
  increasing : (snippet.rows.filterMap SnippetRow.number?).Pairwise (· < ·)
  le_number : ∃ first ∈ group, ∀ n ∈ snippet.rows.filterMap SnippetRow.number?, first.lineIn text ≤ n
  number_le : ∃ last ∈ group,
    ∀ n ∈ snippet.rows.filterMap SnippetRow.number?, n ≤ last.lineIn text + 2
  getLast?_eq : (snippet.rows.filterMap SnippetRow.number?).getLast? = some snippet.lastLine

/-- A group of diagnostics, between the groups before it and those behind. -/
structure IsGroup (text : List Char) (before : List (List Diagnostic)) (group : List Diagnostic)
    (after : List (List Diagnostic)) (first last : Diagnostic) : Prop where
  inOrder : InOrder text (before.flatten ++ (group ++ after.flatten))
  apart : (before ++ group :: after).Pairwise (Apart text)
  head?_eq : group.head? = some first
  getLast?_eq : group.getLast? = some last

namespace IsGroup

variable {text : List Char} {before after : List (List Diagnostic)} {group : List Diagnostic}
  {first last : Diagnostic}

lemma first_mem (h : IsGroup text before group after first last) : first ∈ group :=
  List.mem_of_mem_head? h.head?_eq

lemma last_mem (h : IsGroup text before group after first last) : last ∈ group :=
  List.mem_of_getLast? h.getLast?_eq

lemma keyOnLine (h : IsGroup text before group after first last) {x : Diagnostic} (hx : x ∈ group) :
    KeyOnLine text x (x.lineIn text) :=
  h.inOrder.keyOnLine x (List.mem_append_right _ (List.mem_append_left _ hx))

lemma increasing (h : IsGroup text before group after first last) :
    group.Pairwise fun a b => a.lineIn text < b.lineIn text :=
  h.inOrder.increasing.sublist
    ((List.sublist_append_left _ _).trans (List.sublist_append_right _ _))

lemma first_eq_or_lt (h : IsGroup text before group after first last) :
    first = last ∨ first.lineIn text < last.lineIn text :=
  eq_or_rel_getLast h.increasing h.getLast?_eq h.first_mem

lemma joins (h : IsGroup text before group after first last) (hreturns : ReturnsEndLines text) :
    Span.Joins text ⟨first.span.start, last.span.stop⟩ (first.lineIn text) (last.lineIn text) :=
  h.inOrder.joins hreturns (by simp [h.first_mem]) (by simp [h.last_mem]) h.first_eq_or_lt

end IsGroup

/-! ### The report -/

lemma newline_not_mem_expandFrom {text : List Char} (h : '\n' ∉ text) (column : Nat) :
    '\n' ∉ expandFrom column text := by
  induction text generalizing column with
  | nil => simp [expandFrom]
  | cons c text ih =>
    rw [List.mem_cons, not_or] at h
    rw [expandFrom]
    simp only [List.mem_append, not_or]
    refine ⟨?_, ih h.2 _⟩
    split
    · simp
    · simpa using h.1

lemma IsLineBody.newline_not_mem {text body : List Char} {number : Nat}
    (h : IsLineBody text number body) : '\n' ∉ body := by
  rcases h.2 with hline | hline
  · exact not_mem_of_mem_splitOn (List.mem_of_getElem? hline)
  · exact fun hmem => not_mem_of_mem_splitOn (List.mem_of_getElem? hline)
      (List.mem_append_left _ hmem)

/-- The rows that show diagnostics take one line each. -/
lemma Displays.fits {text : List Char} {diagnostics : List Diagnostic} {rows : List SnippetRow}
    {width : Nat} (h : Displays text diagnostics rows)
    (hmessages : ∀ d ∈ diagnostics, '\n' ∉ d.message.toList)
    (hnumbers : ∀ n ∈ rows.filterMap SnippetRow.number?, (Nat.toDigits 10 n).length ≤ width) :
    ∀ row ∈ rows, row.Fits width := by
  induction h with
  | nil => simp
  | line hbody hrows ih =>
    obtain ⟨hnumber, hnumbers⟩ := List.forall_mem_cons.1 hnumbers
    exact List.forall_mem_cons.2
      ⟨⟨hnumber, newline_not_mem_expandFrom hbody.newline_not_mem 0⟩, ih hmessages hnumbers⟩
  | marked hposition hbody hmarks hrows ih =>
    obtain ⟨hnumber, hnumbers⟩ := List.forall_mem_cons.1 hnumbers
    obtain ⟨hmessage, hmessages⟩ := List.forall_mem_cons.1 hmessages
    obtain ⟨key, -, -, -, hstart, hstop⟩ := hmarks
    exact List.forall_mem_cons.2 ⟨⟨hnumber, newline_not_mem_expandFrom hbody.newline_not_mem 0⟩,
      List.forall_mem_cons.2 ⟨⟨hstart, hstop⟩,
        List.forall_mem_cons.2 ⟨hmessage, ih hmessages hnumbers⟩⟩⟩

lemma Snippet.Shows.fits {text : List Char} {group : List Diagnostic} {snippet : Snippet}
    (h : snippet.Shows text group) (hnumbers : snippet.NumbersAround text group)
    (hmessages : ∀ d ∈ group, '\n' ∉ d.message.toList) : snippet.Fits := by
  refine ⟨List.mem_of_getLast? hnumbers.getLast?_eq, h.displays.fits hmessages fun n hn => ?_⟩
  -- the numbers increase up to that of the last line
  rcases eq_or_rel_getLast hnumbers.increasing hnumbers.getLast?_eq hn with rfl | hlt
  · exact le_refl _
  · exact length_toDigits_mono hlt.le

end UnitCheck
