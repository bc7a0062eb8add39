/-
Following a path through a tree.

The pieces of a path are taken one by one.  A name leads to an entry of the directory reached so
far, `..` to the directory above.  A link is replaced by the pieces of its target, which begin
in the directory of the link or, if the target is absolute, in the root.  A piece that more
pieces follow has to lead to a directory, and an empty piece behind a final slash counts as one.
The number of links that one path may take is limited, so every path ends.
-/
import UnitCheck.FileTree.Basic
import UnitCheck.Path.Basic
import UnitCheck.Text.Bytes

namespace UnitCheck

namespace FileTree

/-- The number of links that one path may take. -/
def linkLimit : Nat := 40

/-- The number of bytes that a name may have. -/
def nameLimit : Nat := 255

/-- The number of bytes that a path may have. -/
def pathLimit : Nat := 4095

/-- Does the piece stay where it is? -/
def isIdle (piece : List Char) : Bool :=
  piece.isEmpty || piece == ['.']

/-- The directory in which a path begins. -/
def start (workingDirectory : Place) (path : List Char) : Place :=
  if path.head? = some '/' then [] else workingDirectory

/-- Follow pieces from a directory to an entry and its place, with the number of links that may
still be taken. -/
def follow (tree : FileTree) (links : Nat) (directory : Place) (ps : List (List Char)) :
    Except AccessError (Place × Entry) :=
  match ps with
  | [] => .ok (directory, .directory)
  | piece :: rest =>
    if isIdle piece then tree.follow links directory rest
    else if piece = ['.', '.'] then tree.follow links directory.dropLast rest
    else if nameLimit < byteLength piece then .error .tooLong
    else
      let place := directory ++ [piece]
      match tree.entry? place with
      | none => .error .missing
      | some (.file bytes) =>
        if rest.isEmpty then .ok (place, .file bytes) else .error .notDirectory
      | some .directory => tree.follow links place rest
      | some (.link target) =>
        match links with
        | 0 => .error .tooManyLinks
        | links + 1 => tree.follow links (start directory target) (Path.pieces target ++ rest)
termination_by (links, ps.length)

/-- The entry that a path leads to, with its place. -/
def resolve (tree : FileTree) (workingDirectory : Place) (path : List Char) :
    Except AccessError (Place × Entry) :=
  if path.contains '\x00' then .error .nulCharacter
  else if path.isEmpty then .error .missing
  else if pathLimit < byteLength path then .error .tooLong
  else tree.follow linkLimit (start workingDirectory path) (Path.pieces path)

/-- Does the path lead to a file? -/
def isFile (tree : FileTree) (workingDirectory : Place) (path : List Char) : Bool :=
  match tree.resolve workingDirectory path with
  | .ok (_, .file _) => true
  | _ => false

/-- Does the path lead to a directory? -/
def isDirectory (tree : FileTree) (workingDirectory : Place) (path : List Char) : Bool :=
  match tree.resolve workingDirectory path with
  | .ok (_, .directory) => true
  | _ => false

/-- The bytes of the file that a path leads to. -/
def read (tree : FileTree) (workingDirectory : Place) (path : List Char) :
    Except AccessError (List UInt8) :=
  match tree.resolve workingDirectory path with
  | .ok (_, .file bytes) => .ok bytes
  | .ok _ => .error .isDirectory
  | .error error => .error error

/-- Make the directories that pieces lead to, as far as they are missing, and give the place of
the last one.  Links on the way are taken. -/
def makeDirectories (tree : FileTree) (directory : Place) :
    List (List Char) → FileTree × Place
  | [] => (tree, directory)
  | piece :: rest =>
    match tree.follow linkLimit directory [piece] with
    | .ok (place, _) => tree.makeDirectories place rest
    | .error _ =>
      (tree.insert (directory ++ [piece]) .directory).makeDirectories (directory ++ [piece]) rest

/-- Put an entry where a path leads, with the directories on the way to it. -/
def create (tree : FileTree) (workingDirectory : Place) (path : List Char) (entry : Entry) :
    FileTree :=
  let origin := start workingDirectory path
  match ((Path.pieces path).filter (!isIdle ·)).reverse with
  | [] => tree
  | name :: above =>
    match entry with
    | .directory => (tree.makeDirectories origin (above.reverse ++ [name])).1
    | _ =>
      let (tree, directory) := tree.makeDirectories origin above.reverse
      tree.insert (directory ++ [name]) entry

end FileTree

end UnitCheck
