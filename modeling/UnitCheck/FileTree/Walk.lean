/-
Walking through a tree.

A walk visits a directory and then its entries in the order of their names, each directory among
them with its own entries.  Links are taken: one that leads to a file counts as that file, and
one that leads to a directory is entered, unless the walk is inside that directory already.  A
link that leads nowhere or back is a fault, and the walk goes on with the next entry.

Such a walk ends: along one descent each directory is entered by a link at most once, and between
two links the places only grow longer.
-/
import UnitCheck.FileTree.Resolve
import UnitCheck.Path.UnitFile

namespace UnitCheck

/-- Why a walk passes over an entry. -/
inductive WalkFault where
  /-- The entry cannot be used. -/
  | access (path : List Char) (error : AccessError)
  /-- The entry is a link to a directory that the walk is inside. -/
  | loop (path ancestor : List Char)
deriving DecidableEq, Repr

/-- The text of the fault. -/
def WalkFault.message : WalkFault → String
  | .access path error =>
    "IO error for operation on " ++ String.ofList path ++ ": " ++ error.message
  | .loop path ancestor =>
    "File system loop found: " ++ String.ofList path ++ " points to an ancestor " ++
      String.ofList ancestor

/-- What a walk meets. -/
inductive Encounter where
  /-- The path of a file. -/
  | file (path : List Char)
  /-- An entry that is passed over. -/
  | fault (fault : WalkFault)
deriving DecidableEq, Repr

namespace FileTree

/-- A directory that a walk is inside: the path by which it was reached and its place. -/
structure Entered where
  path : List Char
  place : Place
deriving DecidableEq, Repr

/-- What a walk meets in a directory, which stands in front of those around it.  The places that
a link may still lead to are counted in `fresh`. -/
def walk (tree : FileTree) (workingDirectory : Place) (fresh : List Place) (directory : Entered)
    (around : List Entered) : List Encounter :=
  (tree.children directory.place).flatMap fun (name, entry) =>
    let path := Path.join directory.path name
    match entry with
    | .file _ => [.file path]
    | .directory =>
      if directory.place.length < tree.height then
        tree.walk workingDirectory fresh ⟨path, directory.place ++ [name]⟩ (directory :: around)
      else []
    | .link _ =>
      match tree.resolve workingDirectory path with
      | .error error => [.fault (.access path error)]
      | .ok (_, .file _) => [.file path]
      | .ok (target, _) =>
        match (directory :: around).find? (·.place == target) with
        | some ancestor => [.fault (.loop path ancestor.path)]
        | none =>
          if target ∈ fresh then
            tree.walk workingDirectory (fresh.erase target) ⟨path, target⟩ (directory :: around)
          else []
termination_by (fresh.length, tree.height - directory.place.length)
decreasing_by
  · apply Prod.Lex.right
    simp
    omega
  · apply Prod.Lex.left
    rename_i inside
    have := List.length_pos_of_mem inside
    rw [List.length_erase_of_mem inside]
    omega

/-- What a walk meets that begins at a path: a fault if the path leads nowhere. -/
def walkFrom (tree : FileTree) (workingDirectory : Place) (path : List Char) :
    Except WalkFault (List Encounter) :=
  match tree.resolve workingDirectory path with
  | .error error => .error (.access path error)
  | .ok (_, .file _) => .ok [.file path]
  | .ok (place, _) => .ok (tree.walk workingDirectory tree.directories ⟨path, place⟩ [])

/-- The paths of the unit files among what a walk meets. -/
def unitFiles (encounters : List Encounter) : List (List Char) :=
  encounters.filterMap fun
    | .file path => if Path.isUnitFile path then some path else none
    | .fault _ => none

/-- The faults among what a walk meets. -/
def faults (encounters : List Encounter) : List WalkFault :=
  encounters.filterMap fun
    | .file _ => none
    | .fault fault => some fault

/-- The paths of the unit files that a walk from the path meets. -/
def scan (tree : FileTree) (workingDirectory : Place) (path : List Char) :
    Except WalkFault (List (List Char)) :=
  (tree.walkFrom workingDirectory path).map unitFiles

end FileTree

end UnitCheck
