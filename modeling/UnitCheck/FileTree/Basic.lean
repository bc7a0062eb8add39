/-
Trees of files.

A place is the list of the names that lead to it from the root.  A tree says which entry stands
at a place: a file with its bytes, a directory, or a link with the text of its target.  The root
is a directory in every tree.  Entries of one directory come in the order of their names.
-/
import Std.Data.TreeMap
import UnitCheck.Text.Numeral

namespace UnitCheck

/-- The names that lead to an entry from the root. -/
abbrev Place := List (List Char)

/-- The absolute path of a place. -/
def Place.path (place : Place) : List Char :=
  if place.isEmpty then ['/'] else place.flatMap ('/' :: ·)

/-- An entry of a tree. -/
inductive Entry where
  /-- A file and its bytes. -/
  | file (bytes : List UInt8)
  /-- A directory. -/
  | directory
  /-- A link and the path that it points to. -/
  | link (target : List Char)
deriving DecidableEq, Repr

/-- A tree of files: the entries below the root. -/
structure FileTree where
  /-- The entries by place. -/
  entries : Std.TreeMap Place Entry := ∅

namespace FileTree

/-- The entry at a place. -/
def entry? (tree : FileTree) : Place → Option Entry
  | [] => some .directory
  | place => tree.entries[place]?

/-- Put an entry at a place. -/
def insert (tree : FileTree) (place : Place) (entry : Entry) : FileTree :=
  { entries := tree.entries.insert place entry }

/-- The name of a place in the directory, if it is an entry of it. -/
def nameIn? (directory place : Place) : Option (List Char) :=
  if place.dropLast = directory then place.getLast? else none

/-- The names and entries of a directory, in the order of the names. -/
def children (tree : FileTree) (directory : Place) : List (List Char × Entry) :=
  tree.entries.toList.filterMap fun (place, entry) =>
    (nameIn? directory place).map fun name => (name, entry)

/-- The places of the directories. -/
def directories (tree : FileTree) : List Place :=
  [] :: tree.entries.toList.filterMap fun (place, entry) =>
    if entry = .directory then some place else none

/-- The greatest number of names that lead to an entry. -/
def height (tree : FileTree) : Nat :=
  tree.entries.toList.foldl (fun n entry => max n entry.1.length) 0

end FileTree

/-- Why an entry cannot be used. -/
inductive AccessError where
  /-- Nothing is there. -/
  | missing
  /-- A name leads through something that is not a directory. -/
  | notDirectory
  /-- A directory was to be read as a file. -/
  | isDirectory
  /-- A name or a path is too long. -/
  | tooLong
  /-- Too many links lead to the entry. -/
  | tooManyLinks
  /-- The path has a NUL character. -/
  | nulCharacter
deriving DecidableEq, Repr

namespace AccessError

/-- A message with the number of the error. -/
def numbered (text : String) (number : Nat) : String :=
  text ++ " (os error " ++ toString number ++ ")"

/-- The text of the error. -/
def message : AccessError → String
  | missing => numbered "No such file or directory" 2
  | notDirectory => numbered "Not a directory" 20
  | isDirectory => numbered "Is a directory" 21
  | tooLong => numbered "File name too long" 36
  | tooManyLinks => numbered "Too many levels of symbolic links" 40
  | nulCharacter => "file name contained an unexpected NUL byte"

end AccessError

end UnitCheck
