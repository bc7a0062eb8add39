/-
The file name and the parent of a path.

Both are read off the end of the text: the path is not cut into its components.  The slash of the
root or a leading `.` is set aside.  In the rest, slashes and pieces `.` at the end mean nothing
and are passed over, so that the text ends in a piece that means something.
-/
import UnitCheck.Path.Basic

namespace UnitCheck

namespace Path

/-- A path cut behind the slash of the root or a leading `.`, if it begins with one. -/
def splitStart : List Char → List Char × List Char
  | '/' :: body => (['/'], body)
  | ['.'] => (['.'], [])
  | '.' :: '/' :: body => (['.'], '/' :: body)
  | body => ([], body)

/-- A text that is read backwards, without the slashes and the pieces `.` that come first. -/
def skipIdle : List Char → List Char
  | '/' :: back => skipIdle back
  | ['.'] => []
  | '.' :: '/' :: back => skipIdle back
  | back => back

/-- What stands behind the start of a path, read backwards from the last piece that means
something. -/
def bodyFromEnd (path : List Char) : List Char :=
  skipIdle (splitStart path).2.reverse

/-- The name in which a path ends: none if its last component is no name. -/
def fileName? (path : List Char) : Option (List Char) :=
  let piece := ((bodyFromEnd path).takeWhile (· != '/')).reverse
  if piece = [] ∨ piece = ['.', '.'] then none else some piece

/-- The path without its last component.  The empty path and the root have no parent. -/
def parent? (path : List Char) : Option (List Char) :=
  let start := (splitStart path).1
  if bodyFromEnd path = [] then (if start = ['.'] then some [] else none)
  else some (start ++ (skipIdle ((bodyFromEnd path).dropWhile (· != '/'))).reverse)

end Path

end UnitCheck
