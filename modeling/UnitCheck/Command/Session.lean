/-
What a command has at hand, and what it leaves.
-/
import UnitCheck.Config.Discovery
import UnitCheck.UnitInput

namespace UnitCheck

/-- What a command has at hand. -/
structure Session where
  tree : FileTree
  workingDirectory : Place
  /-- What the standard input holds, if it can be read. -/
  standardInput : StandardInput := .ok []
  /-- The configuration file that the environment names. -/
  configVariable : Option (List Char) := none
  /-- Is the output shown in colour? -/
  colours : Bool := false

/-- What a command that did not fail shows, with its exit status. -/
structure Page where
  text : String
  status : Nat
deriving DecidableEq, Repr

/-- The configuration: the one asked for, else that of the working directory. -/
def Session.config (session : Session) (explicit : Option (List Char)) : Logged Config :=
  Config.discover session.tree session.workingDirectory explicit session.workingDirectory.path

end UnitCheck
