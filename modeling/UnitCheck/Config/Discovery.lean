/-
Finding and loading the configuration file.
-/
import UnitCheck.Logged
import UnitCheck.Text.Utf8

namespace UnitCheck

namespace Config

/-- The name of the configuration file that is looked for in a directory. -/
def defaultName : String := ".unitlint.yml"

/-- The configuration in a file. -/
def load (tree : FileTree) (workingDirectory : Place) (path : List Char) :
    Except Failure Config :=
  match tree.read workingDirectory path with
  | .error error => .error (.read (String.ofList path) (.access error))
  | .ok bytes =>
    match Utf8.decode? bytes with
    | none => .error (.read (String.ofList path) .notText)
    | some text =>
      match ofText text with
      | .error error => .error (.config (String.ofList path) error)
      | .ok config => .ok config

/-- Load a configuration and say so in the log. -/
def loadLogged (tree : FileTree) (workingDirectory : Place) (path : List Char) :
    Logged Config := do
  Logged.write [⟨.debug, "Loading config from " ++ String.ofList path⟩]
  Logged.ofExcept (load tree workingDirectory path)

/-- The configuration that was asked for, which has to be there; else the one in the directory,
if there is one; else the empty one. -/
def discover (tree : FileTree) (workingDirectory : Place) (explicit : Option (List Char))
    (directory : List Char) : Logged Config :=
  match explicit with
  | some path =>
    if tree.isFile workingDirectory path then loadLogged tree workingDirectory path
    else Logged.fail (.configMissing (String.ofList path))
  | none =>
    let candidate := Path.join directory defaultName.toList
    if tree.isFile workingDirectory candidate then loadLogged tree workingDirectory candidate
    else pure {}

end Config

end UnitCheck
