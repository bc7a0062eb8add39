/-
Text as bytes: UTF-8.

Decoding never fails.  It reads one byte after the other and keeps what the character at hand
still owes: how many bytes, and the range of the next one.  The ranges leave no room for
overlong forms, surrogates and values above the last character.  A byte that does not fit ends
the character at hand, which was damaged, and is read again as the first byte of the next one.
So each longest piece that could have begun a character counts as one damage.
-/
namespace UnitCheck

namespace Utf8

/-- The bytes of a text. -/
def encode (text : List Char) : List UInt8 :=
  text.flatMap String.utf8EncodeChar

/-- A character of which some bytes are still owed. -/
structure Pending where
  /-- The bits read so far. -/
  bits : Nat
  /-- How many bytes follow the next one. -/
  more : Nat
  /-- The least next byte. -/
  low : UInt8 := 0x80
  /-- The greatest next byte. -/
  high : UInt8 := 0xBF
deriving DecidableEq, Repr

/-- What a first byte begins: a character of its own, a longer one, or nothing. -/
inductive Lead where
  | whole (char : Char)
  | begun (pending : Pending)
  | invalid
deriving DecidableEq, Repr

/-- What the byte begins. -/
def lead (byte : UInt8) : Lead :=
  let n := byte.toNat
  if n < 0x80 then .whole (Char.ofNat n)
  else if n < 0xC2 then .invalid
  else if n < 0xE0 then .begun { bits := n - 0xC0, more := 0 }
  else if n = 0xE0 then .begun { bits := 0, more := 1, low := 0xA0 }
  else if n = 0xED then .begun { bits := 0xD, more := 1, high := 0x9F }
  else if n < 0xF0 then .begun { bits := n - 0xE0, more := 1 }
  else if n = 0xF0 then .begun { bits := 0, more := 2, low := 0x90 }
  else if n < 0xF4 then .begun { bits := n - 0xF0, more := 2 }
  else if n = 0xF4 then .begun { bits := 4, more := 2, high := 0x8F }
  else .invalid

/-- Can the byte follow? -/
def Pending.accepts (pending : Pending) (byte : UInt8) : Bool :=
  decide (pending.low ≤ byte) && decide (byte ≤ pending.high)

/-- The bits with those of a following byte. -/
def Pending.grow (pending : Pending) (byte : UInt8) : Nat :=
  pending.bits * 64 + (byte.toNat - 0x80)

/-- The characters of the bytes, `none` for each damage, after the bytes of a character that
still owes some. -/
def decodeFrom : Option Pending → List UInt8 → List (Option Char)
  | none, [] => []
  | some _, [] => [none]
  | none, byte :: bytes =>
    match lead byte with
    | .whole c => some c :: decodeFrom none bytes
    | .begun pending => decodeFrom (some pending) bytes
    | .invalid => none :: decodeFrom none bytes
  | some pending, byte :: bytes =>
    if pending.accepts byte then
      match pending.more with
      | 0 => some (Char.ofNat (pending.grow byte)) :: decodeFrom none bytes
      | more + 1 => decodeFrom (some { bits := pending.grow byte, more }) bytes
    else
      none :: match lead byte with
        | .whole c => some c :: decodeFrom none bytes
        | .begun next => decodeFrom (some next) bytes
        | .invalid => none :: decodeFrom none bytes

/-- The text of the bytes, if they are undamaged. -/
def decode? (bytes : List UInt8) : Option (List Char) :=
  (decodeFrom none bytes).mapM id

/-- The character that stands for a damage. -/
def replacement : Char := '\uFFFD'

/-- The text of the bytes, with one replacement character for each damage. -/
def decode (bytes : List UInt8) : List Char :=
  (decodeFrom none bytes).map (·.getD replacement)

/-- Are the bytes damaged anywhere? -/
def isDamaged (bytes : List UInt8) : Bool :=
  (decodeFrom none bytes).any (·.isNone)

end Utf8

end UnitCheck
