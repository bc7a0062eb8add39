/-
The report on a file: a headline, the snippets and a hint.
-/
import UnitCheck.Path.Basic
import UnitCheck.Report.Snippet
import UnitCheck.Text.Numeral

namespace UnitCheck

/-- A report on the findings of a file. -/
structure Report where
  /-- The path of the file as messages show it. -/
  path : List Char
  /-- The number of findings. -/
  count : Nat
  snippets : List Snippet

namespace Report

/-- The name of the rule that the findings offend. -/
def code : String :=
  "unitlint::unknown_directive"

/-- What to do about the findings. -/
def help : String :=
  "Check the spelling and the section, or prefix vendor directives with `X-`"

/-- The report on a file, with its path relative to the working directory. -/
def ofFile (workingDirectory : List Char) (file : CheckedFile) : Report where
  path := Path.shown workingDirectory file.path.toList
  count := file.diagnostics.length
  snippets := file.snippets

/-- The number of findings in words. -/
def headline (report : Report) : String :=
  toString report.count ++ " unrecognized directive(s)"

/-- As many copies of a character. -/
def repeated (n : Nat) (c : Char) : String :=
  String.ofList (List.replicate n c)

/-- A row of a snippet, in a snippet whose line numbers have at most `width` digits. -/
def renderRow (width : Nat) : SnippetRow → String
  | .source number text =>
    let digits := toString number
    " " ++ repeated (width - digits.length) ' ' ++ digits ++ " | " ++ String.ofList text ++ "\n"
  | .marker start bar stop =>
    " " ++ repeated width ' ' ++ " : " ++ repeated start ' ' ++ repeated (bar - start) '^' ++
      "|" ++ repeated (stop - bar - 1) '^' ++ "\n"
  | .label bar message =>
    " " ++ repeated width ' ' ++ " : " ++ repeated bar ' ' ++ "`-- " ++ message ++ "\n"

/-- A snippet of the file with the given path. -/
def renderSnippet (path : List Char) (snippet : Snippet) : String :=
  let width := (toString snippet.lastLine).length
  repeated (width + 2) ' ' ++ ",-[" ++ String.ofList path ++ ":" ++ toString snippet.line ++
    ":" ++ toString snippet.column ++ "]\n" ++
    String.join (snippet.rows.map (renderRow width)) ++
    repeated (width + 2) ' ' ++ "`----\n"

/-- The text of a report. -/
def render (report : Report) : String :=
  code ++ "\n\n  ! " ++ report.headline ++ "\n" ++
    String.join (report.snippets.map (renderSnippet report.path)) ++
    "  help: " ++ help ++ "\n"

end Report

end UnitCheck
