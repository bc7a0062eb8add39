/-
Texts and their bytes.

A text is a list of characters, and an offset into it counts the bytes of the UTF-8
form of what stands before.  `splitAtByte?` cuts a text at an offset, and `dropBytes?` keeps
only what stands behind; both fail at an offset inside a character or beyond the end.
-/
namespace UnitCheck

/-- The number of bytes of the UTF-8 form of a text. -/
def byteLength (text : List Char) : Nat :=
  text.foldr (fun c n => c.utf8Size + n) 0

@[simp]
theorem byteLength_nil : byteLength [] = 0 := rfl

@[simp]
theorem byteLength_cons (c : Char) (text : List Char) :
    byteLength (c :: text) = c.utf8Size + byteLength text := rfl

@[simp]
theorem byteLength_append (a b : List Char) :
    byteLength (a ++ b) = byteLength a + byteLength b := by
  induction a with
  | nil => simp
  | cons c a ih => simp [ih, Nat.add_assoc]

/-- Cut a text after the given number of bytes. -/
def splitAtByte? : Nat → List Char → Option (List Char × List Char)
  | 0, text => some ([], text)
  | _ + 1, [] => none
  | n + 1, c :: text =>
    if c.utf8Size ≤ n + 1 then
      (splitAtByte? (n + 1 - c.utf8Size) text).map fun (before, after) => (c :: before, after)
    else none

/-- The text behind the given number of bytes. -/
def dropBytes? : Nat → List Char → Option (List Char)
  | 0, text => some text
  | _ + 1, [] => none
  | n + 1, c :: text =>
    if c.utf8Size ≤ n + 1 then dropBytes? (n + 1 - c.utf8Size) text else none

/-- Dropping bytes gives the second part of a cut. -/
theorem dropBytes?_eq_map (n : Nat) (text : List Char) :
    dropBytes? n text = (splitAtByte? n text).map (·.2) := by
  fun_induction splitAtByte? n text with
  | case1 text => cases text <;> rfl
  | case2 => rfl
  | case3 n c text h ih => simp [dropBytes?, h, ih, Function.comp_def]
  | case4 n c text h => simp [dropBytes?, h]

/-- Cutting at the byte length of a leading part gives that part back. -/
theorem splitAtByte?_append (a b : List Char) :
    splitAtByte? (byteLength a) (a ++ b) = some (a, b) := by
  induction a with
  | nil => cases b <;> rfl
  | cons c a ih =>
    obtain ⟨n, hn⟩ : ∃ n, c.utf8Size + byteLength a = n + 1 :=
      ⟨c.utf8Size + byteLength a - 1, by have := c.utf8Size_pos; omega⟩
    have hrest : n + 1 - c.utf8Size = byteLength a := by omega
    simp only [byteLength_cons, hn, List.cons_append, splitAtByte?, hrest, ih]
    rw [if_pos (by omega)]
    rfl

end UnitCheck
