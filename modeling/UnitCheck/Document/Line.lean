/-
The physical lines of a unit file.

A line ends at a line feed only.  `chunks` cuts a text behind its line feeds and loses
nothing; a `Line` is such a chunk without its line end, with the offset at which it begins.
A byte order mark in front of the text belongs to no line.
-/
import UnitCheck.Text.Blank
import UnitCheck.Text.Bytes

namespace UnitCheck

/-- Cut a text behind each of its line feeds. -/
def chunks : List Char → List (List Char)
  | [] => []
  | c :: text =>
    if c = '\n' then [c] :: chunks text
    else match chunks text with
      | [] => [[c]]
      | chunk :: rest => (c :: chunk) :: rest

/-- A line without its line end. -/
structure Line where
  /-- The byte offset at which the line begins. -/
  offset : Nat
  text : List Char
deriving DecidableEq, Repr

/-- Is the character part of a line end? -/
def isLineEnd (c : Char) : Bool :=
  c == '\n' || c == '\r'

/-- The lines of consecutive chunks that begin at the given offset. -/
def linesFrom (offset : Nat) : List (List Char) → List Line
  | [] => []
  | chunk :: rest =>
    ⟨offset, dropEndWhile isLineEnd chunk⟩ :: linesFrom (offset + byteLength chunk) rest

/-- The mark that may stand in front of a text to show its byte order. -/
def byteOrderMark : Char := '\uFEFF'

/-- The lines of a text.  One byte order mark in front is passed over. -/
def linesOf : List Char → List Line
  | [] => []
  | c :: text =>
    if c = byteOrderMark then linesFrom c.utf8Size (chunks text)
    else linesFrom 0 (chunks (c :: text))

/-- No character is lost by cutting a text into chunks. -/
theorem flatten_chunks (text : List Char) : (chunks text).flatten = text := by
  induction text with
  | nil => rfl
  | cons c text ih =>
    rw [chunks]
    split
    · simp [ih]
    · split <;> simp_all

end UnitCheck
