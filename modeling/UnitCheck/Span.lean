/-
Spans: stretches of a text, given by the byte offsets of their two ends.
-/
import UnitCheck.Text.Bytes

namespace UnitCheck

/-- The bytes from `start` up to, not including, `stop`. -/
structure Span where
  start : Nat
  stop : Nat
deriving DecidableEq, Repr

namespace Span

/-- The span of `length` bytes that begins at `start`. -/
def ofLength (start length : Nat) : Span :=
  ⟨start, start + length⟩

/-- The number of bytes of a span. -/
def length (span : Span) : Nat :=
  span.stop - span.start

/-- Does the span hold no byte? -/
def isEmpty (span : Span) : Bool :=
  span.length == 0

/-- The part of a text that a span covers: none if the ends are out of order, beyond the
text or inside a character. -/
def slice? (span : Span) (text : List Char) : Option (List Char) :=
  if span.start ≤ span.stop then do
    let rest ← dropBytes? span.start text
    let (part, _) ← splitAtByte? span.length rest
    return part
  else none

end Span

end UnitCheck
