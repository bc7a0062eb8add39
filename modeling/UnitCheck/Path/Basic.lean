/-
Paths and their components.

A path is a text whose pieces are divided by slashes.  Empty pieces and pieces `.` mean
nothing, with two exceptions: an empty piece in front of a slash is the root, and a leading
`.` is the directory in which a relative path begins.  The other pieces are the components.
-/
namespace UnitCheck

/-- A component of a path. -/
inductive Component where
  /-- The root of an absolute path. -/
  | root
  /-- A leading `.`. -/
  | current
  /-- The directory above. -/
  | parent
  /-- The name of an entry of a directory. -/
  | name (text : List Char)
deriving DecidableEq, Repr

namespace Path

/-- The pieces of a path between its slashes. -/
def pieces : List Char → List (List Char)
  | [] => [[]]
  | c :: path =>
    if c = '/' then [] :: pieces path
    else match pieces path with
      | [] => [[c]]
      | piece :: rest => (c :: piece) :: rest

/-- The text of pieces with slashes between them. -/
def joinPieces (ps : List (List Char)) : List Char :=
  ['/'].intercalate ps

/-- The component of a piece that is not the first. -/
def laterComponent? (piece : List Char) : Option Component :=
  if piece = [] ∨ piece = ['.'] then none
  else if piece = ['.', '.'] then some .parent
  else some (.name piece)

/-- The component of the first piece, given whether a slash follows it. -/
def firstComponent? (piece : List Char) (slash : Bool) : Option Component :=
  if piece = [] then (if slash then some .root else none)
  else if piece = ['.'] then some .current
  else laterComponent? piece

/-- Pieces, each with the component that it stands for, if any. -/
def labelled : List (List Char) → List (List Char × Option Component)
  | [] => []
  | piece :: rest =>
    (piece, firstComponent? piece (!rest.isEmpty)) ::
      rest.map fun later => (later, laterComponent? later)

/-- The components of a path. -/
def components (path : List Char) : List Component :=
  (labelled (pieces path)).filterMap (·.2)

/-- Drop pieces from the front until the given number of components is gone. -/
def dropComponents : Nat → List (List Char × Option Component) →
    List (List Char × Option Component)
  | 0, ps => ps
  | _ + 1, [] => []
  | n + 1, (_, none) :: ps => dropComponents (n + 1) ps
  | n + 1, (_, some _) :: ps => dropComponents n ps

/-- The pieces without those at both ends that mean nothing. -/
def trimPieces (ps : List (List Char × Option Component)) :
    List (List Char × Option Component) :=
  ((ps.dropWhile (·.2.isNone)).reverse.dropWhile (·.2.isNone)).reverse

/-- The path below a directory, as it is spelled: none if the path does not begin with the
components of the directory. -/
def below? (directory path : List Char) : Option (List Char) :=
  let front := components directory
  if front <+: components path then
    some (joinPieces ((trimPieces (dropComponents front.length (labelled (pieces path)))).map (·.1)))
  else none

/-- The path of an entry of a directory.  No slash is added behind one. -/
def join (directory name : List Char) : List Char :=
  if directory = [] ∨ directory.getLast? = some '/' then directory ++ name
  else directory ++ '/' :: name

/-- A path as messages show it: relative to the working directory if it is below it, with a
space in front. -/
def shown (workingDirectory path : List Char) : List Char :=
  ' ' :: (below? workingDirectory path).getD path

end Path

end UnitCheck
