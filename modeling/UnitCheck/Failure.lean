/-
Why a command fails.

Findings in a unit file are never failures.  A command fails if it cannot read what it was
given, or was asked for a section type that nobody knows.
-/
import UnitCheck.Config.Reader
import UnitCheck.FileTree.Walk

namespace UnitCheck

/-- Why a file or the standard input cannot be read. -/
inductive ReadError where
  /-- The file cannot be used. -/
  | access (error : AccessError)
  /-- The system reports an error by its text and its number. -/
  | system (text : String) (number : Nat)
  /-- The file has to be a text and is damaged. -/
  | notText
deriving DecidableEq, Repr

/-- The text of the error. -/
def ReadError.message : ReadError → String
  | .access error => error.message
  | .system text number => AccessError.numbered text number
  | .notText => "stream did not contain valid UTF-8"

/-- Why a command fails. -/
inductive Failure where
  /-- A file or the standard input cannot be read. -/
  | read (path : String) (error : ReadError)
  /-- A directory cannot be walked through. -/
  | walk (path : String) (fault : WalkFault)
  /-- A configuration file is wrong. -/
  | config (path : String) (error : ConfigError)
  /-- A configuration file was asked for and is not there. -/
  | configMissing (path : String)
  /-- A section type was asked for and is not known. -/
  | unknownSection (name : String)

namespace Failure

/-- What failed. -/
def message : Failure → String
  | .read path _ => "Failed to read " ++ path
  | .walk path _ => "Failed to walk " ++ path
  | .config path _ => "Failed to parse config " ++ path
  | .configMissing path => "Config file not found: " ++ path
  | .unknownSection name => "Unknown section type '" ++ name ++ "'"

/-- Why it failed: each cause with the cause of that behind it. -/
def causes : Failure → List String
  | .read _ error => [error.message]
  | .walk _ (.access path error) => [(WalkFault.access path error).message, error.message]
  | .walk _ fault => [fault.message]
  | .config _ error => [error.message]
  | .configMissing _ | .unknownSection _ => []

/-- A text with the given indentation behind each line break. -/
def hanging (indent : List Char) (text : String) : List Char :=
  text.toList.flatMap fun c => if c = '\n' then c :: indent else [c]

/-- The lines of causes, numbered from zero. -/
def numberedCauses (causes : List String) : List Char :=
  causes.zipIdx.flatMap fun (cause, n) =>
    let number := Nat.toDigits 10 n
    '\n' :: (List.replicate (5 - number.length) ' ' ++ number ++ [':', ' ']) ++
      hanging (List.replicate 7 ' ') cause

/-- The lines of causes.  A single one has no number. -/
def causeLines : List String → List Char
  | [] => []
  | [cause] =>
    "\n\nCaused by:\n    ".toList ++ hanging (List.replicate 4 ' ') cause
  | causes => "\n\nCaused by:".toList ++ numberedCauses causes

/-- The failure as the command reports it. -/
def report (failure : Failure) : String :=
  "Error: " ++ failure.message ++ String.ofList (causeLines failure.causes) ++ "\n"

end Failure

end UnitCheck
