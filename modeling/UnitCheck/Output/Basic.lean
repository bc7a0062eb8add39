/-
Showing the findings of checked files in the chosen format.
-/
import UnitCheck.Json.Printer
import UnitCheck.Output.Format
import UnitCheck.Report.Basic

namespace UnitCheck

namespace Output

/-- The number of findings of all files. -/
def total (files : List CheckedFile) : Nat :=
  (files.flatMap (·.diagnostics)).length

/-! ### One line for each finding -/

/-- The line of a finding in the file of the given path. -/
def compactLine (path : String) (finding : Finding) : String :=
  path ++ ":" ++ toString finding.position.line ++ ":" ++ toString finding.position.column ++
    ": " ++ finding.severity.text ++ ": " ++ finding.message ++ " [" ++ finding.key ++ "]"

/-- The lines of the findings of all files. -/
def compactLines (files : List CheckedFile) : List String :=
  files.flatMap fun file => file.findings.map (compactLine file.path)

/-- One line for each finding. -/
def compact (files : List CheckedFile) : String :=
  String.join ((compactLines files).map (· ++ "\n"))

/-! ### JSON -/

/-- A finding as JSON data. -/
def findingJson (finding : Finding) : Json :=
  .obj [("key", .str finding.key), ("start", .nat finding.span.start),
    ("end", .nat finding.span.stop), ("line", .nat finding.position.line),
    ("column", .nat finding.position.column), ("severity", .str finding.severity.text),
    ("message", .str finding.message)]

/-- A file with its findings as JSON data. -/
def fileJson (file : CheckedFile) : Json :=
  .obj [("path", .str file.path), ("diagnostics", .arr (file.findings.map findingJson))]

/-- All files with their findings as JSON data. -/
def filesJson (files : List CheckedFile) : Json :=
  .arr (files.map fileJson)

/-- All files with their findings as a JSON text. -/
def json (files : List CheckedFile) : String :=
  String.ofList ((filesJson files).pretty 0 ++ ['\n'])

/-! ### Reports -/

/-- The colours of the closing line. -/
inductive Colour where
  | green
  | boldYellow

/-- What turns a colour on at a terminal. -/
def Colour.escape : Colour → String
  | .green => "\x1b[32m"
  | .boldYellow => "\x1b[1;33m"

/-- A text in colour, if colours are wanted. -/
def painted (colours : Bool) (colour : Colour) (text : String) : String :=
  if colours then colour.escape ++ text ++ "\x1b[0m" else text

/-- The files with findings. -/
def affected (files : List CheckedFile) : List CheckedFile :=
  files.filter (!·.diagnostics.isEmpty)

/-- The reports on the files with findings and a closing line. -/
def stylish (colours : Bool) (workingDirectory : List Char) (files : List CheckedFile) :
    String :=
  if total files = 0 then
    painted colours .green ("✓ No issues found in " ++ toString files.length ++ " file(s)") ++ "\n"
  else
    String.join ((affected files).map fun file => (Report.ofFile workingDirectory file).render) ++
      painted colours .boldYellow ("Found " ++ toString (total files) ++ " warning(s) in " ++
        toString (affected files).length ++ " file(s)") ++ "\n"

end Output

/-- The findings of files in the given format. -/
def Format.render (format : Format) (colours : Bool) (workingDirectory : List Char)
    (files : List CheckedFile) : String :=
  match format with
  | .stylish => Output.stylish colours workingDirectory files
  | .compact => Output.compact files
  | .json => Output.json files

end UnitCheck
