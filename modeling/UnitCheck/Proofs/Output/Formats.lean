/-
The formats agree on the findings.

Each format is made from the findings of the files on its own, and so is the exit status.  All of them
show the diagnostics of the files and nothing else.  That the compact format has one line for each
finding needs that no key holds a line feed.
-/
import UnitCheck.Proofs.Command.Checking
import UnitCheck.Proofs.Output.Json

namespace UnitCheck

/-! ### All findings -/

/-- The findings of all files, each under the path of its file. -/
def Output.shown (files : List CheckedFile) : List (String × Finding) :=
  files.flatMap fun file => file.findings.map (file.path, ·)

namespace Output

variable {registry : Registry} {files : List CheckedFile}

end Output

/-! ### The exit status -/

namespace Check

end Check

end UnitCheck
