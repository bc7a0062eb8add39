/-
What a check reads: files and the standard input.

Paths that lead to directories stand for the unit files below them.  All other paths stand for
themselves, whatever their extension.
-/
import UnitCheck.Logged
import UnitCheck.Text.Utf8

namespace UnitCheck

/-- A text to check. -/
inductive UnitInput where
  /-- The text of the standard input. -/
  | standardInput
  /-- The text of a file. -/
  | file (path : List Char)
deriving DecidableEq, Repr

/-- What reading the standard input to its end gives: its bytes, or why it cannot be read. -/
abbrev StandardInput := Except ReadError (List UInt8)

instance : Coe (List UInt8) StandardInput := ⟨.ok⟩

/-- A text that was read, with the name under which findings are shown. -/
structure Source where
  path : String
  text : String
  /-- Were damaged bytes replaced? -/
  damaged : Bool
deriving DecidableEq, Repr

namespace Source

/-- The name of the standard input. -/
def standardInputName : String := "<stdin>"

/-- The text of bytes. -/
def ofBytes (path : String) (bytes : List UInt8) : Source :=
  ⟨path, String.ofList (Utf8.decode bytes), Utf8.isDamaged bytes⟩

/-- The text of the file that a path leads to. -/
def ofFile (tree : FileTree) (workingDirectory : Place) (path : List Char) :
    Except Failure Source :=
  match tree.read workingDirectory path with
  | .ok bytes => .ok (ofBytes (String.ofList path) bytes)
  | .error error => .error (.read (String.ofList path) (.access error))

/-- The text of the standard input. -/
def ofStandardInput : StandardInput → Except Failure Source
  | .ok bytes => .ok (ofBytes standardInputName bytes)
  | .error error => .error (.read standardInputName error)

/-- A warning if the text was damaged. -/
def warnings (source : Source) : List LogLine :=
  if source.damaged then
    [⟨.warn, source.path ++ " is not valid UTF-8; invalid bytes were replaced"⟩]
  else []

end Source

namespace UnitInput

/-- Does the path stand for the standard input? -/
def isStandardInput (path : List Char) : Bool :=
  Path.components path == [.name ['-']]

/-- The inputs that a path stands for. -/
def ofPath (tree : FileTree) (workingDirectory : Place) (path : List Char) :
    Logged (List UnitInput) :=
  if isStandardInput path then pure [standardInput]
  else if tree.isDirectory workingDirectory path then
    match tree.walkFrom workingDirectory path with
    | .error fault => Logged.fail (.walk (String.ofList path) fault)
    | .ok encounters => do
      Logged.write ((FileTree.faults encounters).map fun fault =>
        ⟨.warn, "Skipping unreadable entry: " ++ fault.message⟩)
      let files := FileTree.unitFiles encounters
      Logged.write [⟨.debug, "Found " ++ toString files.length ++ " unit files in " ++
        String.ofList path⟩]
      return files.map file
  else pure [file path]

/-- The inputs that paths stand for, in their order. -/
def collect (tree : FileTree) (workingDirectory : Place) :
    List (List Char) → Logged (List UnitInput)
  | [] => pure []
  | path :: paths => do
    let here ← ofPath tree workingDirectory path
    return here ++ (← collect tree workingDirectory paths)

/-- Read inputs in their order.  The first one that asks for the standard input gets all of it,
unless it cannot be read, which then is so for all that ask. -/
def readAll (tree : FileTree) (workingDirectory : Place) :
    StandardInput → List UnitInput → List (Except Failure Source)
  | _, [] => []
  | contents, standardInput :: inputs =>
    Source.ofStandardInput contents ::
      readAll tree workingDirectory (contents.map fun _ => []) inputs
  | contents, file path :: inputs =>
    Source.ofFile tree workingDirectory path :: readAll tree workingDirectory contents inputs

end UnitInput

end UnitCheck
