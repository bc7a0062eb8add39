/-
Which paths name unit files.

A unit file is known by the extension of its name.  Settings that are dropped into a directory
for a unit have the extension `conf`, and the name of the directory ends in `.d`.
-/
import UnitCheck.Path.FileName

namespace UnitCheck

/-- The extensions of unit files. -/
def unitExtensions : List String :=
  ["service", "socket", "device", "mount", "automount", "swap", "target", "path", "timer",
    "slice", "scope"]

namespace Path

/-- The part of a name behind its last dot, unless that dot is the first character. -/
def extension? (name : List Char) : Option (List Char) :=
  match name.reverse.dropWhile (· != '.') with
  | [] | [_] => none
  | _ :: _ :: _ => some (name.reverse.takeWhile (· != '.')).reverse

/-- Is this the name of a directory for dropped settings? -/
def isDropInDirectory (name : List Char) : Bool :=
  ['.', 'd'].isSuffixOf name

/-- Does the path name a unit file? -/
def isUnitFile (path : List Char) : Bool :=
  match (fileName? path).bind extension? with
  | none => false
  | some extension =>
    (unitExtensions.map (·.toList)).contains extension ||
      (extension == ['c', 'o', 'n', 'f'] &&
        ((parent? path).bind fileName?).any isDropInDirectory)

end Path

end UnitCheck
