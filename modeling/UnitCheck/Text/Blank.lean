/-
White space.

`isBlank` is the Unicode property White_Space.  Trimming removes blank characters from
the ends of a text; `indentation` is what trimming removes in front.
-/
namespace UnitCheck

/-- Does the character have the Unicode property White_Space? -/
def isBlank (c : Char) : Bool :=
  let n := c.toNat
  (0x9 ≤ n && n ≤ 0xD) || n == 0x20 || n == 0x85 || n == 0xA0 || n == 0x1680 ||
    (0x2000 ≤ n && n ≤ 0x200A) || n == 0x2028 || n == 0x2029 || n == 0x202F ||
    n == 0x205F || n == 0x3000

/-- The blank characters in front of a text. -/
def indentation (text : List Char) : List Char :=
  text.takeWhile isBlank

/-- The text without the blank characters in front of it. -/
def trimStart (text : List Char) : List Char :=
  text.dropWhile isBlank

/-- The text without the longest part at its end whose characters all satisfy `p`. -/
def dropEndWhile (p : Char → Bool) (text : List Char) : List Char :=
  (text.reverse.dropWhile p).reverse

/-- The text without the blank characters at its end. -/
def trimEnd (text : List Char) : List Char :=
  dropEndWhile isBlank text

/-- The text without the blank characters at both ends. -/
def trim (text : List Char) : List Char :=
  trimEnd (trimStart text)

/-- Nothing is lost in front: the indentation and the rest make up the text. -/
theorem indentation_append_trimStart (text : List Char) :
    indentation text ++ trimStart text = text :=
  List.takeWhile_append_dropWhile

end UnitCheck
