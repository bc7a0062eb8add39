/-
The grammar of JSON.

`Denotes text value` says that a text is JSON for a value.  The rules are those of the format and
know nothing of the writer and the reader: white space of any kind may stand between the parts, a
character of a string may be spelled in several ways, and a number may have a fraction and an
exponent.  What the writer puts out is one of the many texts for a value (`denotes_pretty`).
-/
import Mathlib.Data.List.Forall2
import UnitCheck.Json.Printer
import UnitCheck.Proofs.Text.Numeral

namespace UnitCheck.Json

/-- White space: it may stand around values and names, and so before and behind each bracket, comma
and colon. -/
def IsSpace (text : List Char) : Prop :=
  ∀ c ∈ text, c = ' ' ∨ c = '\t' ∨ c = '\n' ∨ c = '\r'

/-! ### Strings -/

/-- The letters that may stand behind a backslash, each with the character it stands for. -/
def letterEscapes : List (Char × Char) :=
  [('"', '"'), ('\\', '\\'), ('/', '/'), ('b', '\x08'), ('f', '\x0c'), ('n', '\n'), ('r', '\r'),
    ('t', '\t')]

/-- The code units of a character: one, or a pair of surrogates. -/
def codeUnits (c : Char) : List Nat :=
  if c.toNat < 0x10000 then [c.toNat]
  else [0xD800 + (c.toNat - 0x10000) / 0x400, 0xDC00 + (c.toNat - 0x10000) % 0x400]

/-- Four hexadecimal digits that stand for a code unit. -/
structure IsCodeUnit (digits : List Char) (unit : Nat) : Prop where
  length_eq : digits.length = 4
  value_eq : ofDigits? 16 digits = some unit

/-- What may stand between the quotes of a string with the given characters. -/
inductive Spells : List Char → List Char → Prop where
  | nil : Spells [] []
  /-- Most characters can stand for themselves. -/
  | plain {c : Char} {text value : List Char} :
    c ≠ '"' → c ≠ '\\' → 0x20 ≤ c.toNat → Spells text value → Spells (c :: text) (c :: value)
  | letter {letter c : Char} {text value : List Char} :
    (letter, c) ∈ letterEscapes → Spells text value → Spells ('\\' :: letter :: text) (c :: value)
  /-- Every character can be written by its code units. -/
  | units {c : Char} {digits : List (List Char)} {text value : List Char} :
    List.Forall₂ IsCodeUnit digits (codeUnits c) → Spells text value →
      Spells (digits.flatMap (['\\', 'u'] ++ ·) ++ text) (c :: value)

/-! ### Numbers -/

/-- The sign of a number: nothing or a minus. -/
def sign (negative : Bool) : List Char :=
  if negative then ['-'] else []

/-- Digits without a needless zero in front. -/
structure IsWhole (text : List Char) (n : Nat) : Prop where
  value_eq : ofDigits? 10 text = some n
  no_zero : text.head? = some '0' → text.length = 1

/-- Nothing, or a point with digits behind it. -/
inductive Fraction : List Char → List Char → Prop where
  | none : Fraction [] []
  | some {digits : List Char} :
    digits ≠ [] → (∀ c ∈ digits, isDigit c = true) → Fraction ('.' :: digits) digits

/-- Nothing, or a mark and a whole number, which may have a sign. -/
inductive Power : List Char → Option Int → Prop where
  | none : Power [] none
  | unsigned {mark : Char} {digits : List Char} {n : Nat} :
    mark = 'e' ∨ mark = 'E' → ofDigits? 10 digits = some n → Power (mark :: digits) (some n)
  | plus {mark : Char} {digits : List Char} {n : Nat} :
    mark = 'e' ∨ mark = 'E' → ofDigits? 10 digits = some n → Power (mark :: '+' :: digits) (some n)
  | minus {mark : Char} {digits : List Char} {n : Nat} :
    mark = 'e' ∨ mark = 'E' → ofDigits? 10 digits = some n →
      Power (mark :: '-' :: digits) (some (-n))

/-- A number as it is written: a whole one, or one with a fraction or an exponent. -/
inductive Number : List Char → Json → Prop where
  | int {negative : Bool} {whole : List Char} {n : Nat} :
    IsWhole whole n → Number (sign negative ++ whole) (.int (if negative then -n else n))
  | real {negative : Bool} {whole fraction digits power : List Char} {n m : Nat}
      {exponent : Option Int} :
    IsWhole whole n → Fraction fraction digits → Power power exponent →
      fraction ++ power ≠ [] → ofDigits? 10 (whole ++ digits) = some m →
      Number (sign negative ++ (whole ++ (fraction ++ power)))
        (.real ⟨negative, m, exponent.getD 0 - digits.length⟩)

/-! ### Values -/

mutual

/-- The text is JSON for the value, without white space around it. -/
inductive Denotes : List Char → Json → Prop where
  | null : Denotes ['n', 'u', 'l', 'l'] .null
  | true : Denotes ['t', 'r', 'u', 'e'] (.bool true)
  | false : Denotes ['f', 'a', 'l', 's', 'e'] (.bool false)
  | number {text : List Char} {value : Json} : Number text value → Denotes text value
  | str {text value : List Char} :
    Spells text value → Denotes ('"' :: (text ++ ['"'])) (.str (String.ofList value))
  | emptyArr {space : List Char} : IsSpace space → Denotes ('[' :: (space ++ [']'])) (.arr [])
  | arr {text : List Char} {items : List Json} :
    Elements text items → Denotes ('[' :: (text ++ [']'])) (.arr items)
  | emptyObj {space : List Char} :
    IsSpace space → Denotes ('\x7b' :: (space ++ ['\x7d'])) (.obj [])
  | obj {text : List Char} {fields : List (String × Json)} :
    Members text fields → Denotes ('\x7b' :: (text ++ ['\x7d'])) (.obj fields)

/-- What stands between the brackets of an array that is not empty. -/
inductive Elements : List Char → List Json → Prop where
  | one {before text after : List Char} {item : Json} :
    IsSpace before → Denotes text item → IsSpace after →
      Elements (before ++ (text ++ after)) [item]
  | cons {before text after rest : List Char} {item : Json} {items : List Json} :
    IsSpace before → Denotes text item → IsSpace after → Elements rest items →
      Elements (before ++ (text ++ (after ++ ',' :: rest))) (item :: items)

/-- What stands between the braces of an object that is not empty. -/
inductive Members : List Char → List (String × Json) → Prop where
  | one {before spelling name behind front text after : List Char} {value : Json} :
    IsSpace before → Spells spelling name → IsSpace behind → IsSpace front →
      Denotes text value → IsSpace after →
      Members (before ++ '"' :: (spelling ++ '"' :: (behind ++ ':' :: (front ++ (text ++ after)))))
        [(String.ofList name, value)]
  | cons {before spelling name behind front text after rest : List Char} {value : Json}
      {fields : List (String × Json)} :
    IsSpace before → Spells spelling name → IsSpace behind → IsSpace front →
      Denotes text value → IsSpace after → Members rest fields →
      Members (before ++ '"' :: (spelling ++
          '"' :: (behind ++ ':' :: (front ++ (text ++ (after ++ ',' :: rest))))))
        ((String.ofList name, value) :: fields)

end

/-! ### What is written is JSON -/

lemma isSpace_nil : IsSpace [] := by
  simp [IsSpace]

lemma isSpace_space : IsSpace [' '] := by
  simp [IsSpace]

lemma isSpace_newLine (level : Nat) : IsSpace (newLine level) := by
  intro c hc
  rcases List.mem_cons.1 hc with rfl | hc
  · simp
  · exact Or.inl (List.eq_of_mem_replicate hc)

/-- The control characters are written by four hexadecimal digits. -/
lemma isCodeUnit_hexNumeral {n : Nat} (h : n < 0x20) : IsCodeUnit (hexNumeral 4 n) n := by
  have hall : ∀ n < 0x20, (hexNumeral 4 n).length = 4 ∧ ofDigits? 16 (hexNumeral 4 n) = some n := by
    decide
  exact ⟨(hall n h).1, (hall n h).2⟩

lemma Spells.escapeChar {text value : List Char} (h : Spells text value) (c : Char) :
    Spells (escapeChar c ++ text) (c :: value) := by
  have hletter : ∀ letter, (letter, c) ∈ letterEscapes →
      Spells (['\\', letter] ++ text) (c :: value) := fun letter hmem => .letter hmem h
  unfold Json.escapeChar
  split_ifs with hquote hbackslash hbackspace htab hnewline hfeed hreturn hcontrol
  · exact hletter '"' (by simp [letterEscapes, hquote])
  · exact hletter '\\' (by simp [letterEscapes, hbackslash])
  · exact hletter 'b' (by simp [letterEscapes, hbackspace])
  · exact hletter 't' (by simp [letterEscapes, htab])
  · exact hletter 'n' (by simp [letterEscapes, hnewline])
  · exact hletter 'f' (by simp [letterEscapes, hfeed])
  · exact hletter 'r' (by simp [letterEscapes, hreturn])
  · have hunits : codeUnits c = [c.toNat] := if_pos (by omega)
    have hdigits : List.Forall₂ IsCodeUnit [hexNumeral 4 c.toNat] (codeUnits c) := by
      rw [hunits]
      exact .cons (isCodeUnit_hexNumeral hcontrol) .nil
    simpa using Spells.units hdigits h
  · exact .plain hquote hbackslash (by omega) h

lemma spells_flatMap_escapeChar (text : List Char) : Spells (text.flatMap escapeChar) text := by
  induction text with
  | nil => exact .nil
  | cons c text ih => exact ih.escapeChar c

lemma isWhole_toDigits (n : Nat) : IsWhole (Nat.toDigits 10 n) n := by
  refine ⟨ofDigits?_toDigits n, fun hzero => ?_⟩
  rw [head?_toDigits_eq_zero hzero]
  simp

lemma number_writeInt (n : Int) : Number (writeInt n) (.int n) := by
  cases n with
  | ofNat n => exact @Number.int false _ _ (isWhole_toDigits n)
  | negSucc n => exact @Number.int true _ _ (isWhole_toDigits (n + 1))

lemma power_writeInt (n : Int) : Power ('e' :: writeInt n) (some n) := by
  cases n with
  | ofNat n => exact .unsigned (Or.inl rfl) (ofDigits?_toDigits n)
  | negSucc n => exact .minus (Or.inl rfl) (ofDigits?_toDigits (n + 1))

lemma number_writeReal (x : Decimal) : Number (writeReal x) (.real x) := by
  have hdigits : ofDigits? 10 (Nat.toDigits 10 x.digits ++ []) = some x.digits := by
    rw [List.append_nil, ofDigits?_toDigits]
  have h : Number (sign x.negative ++ (Nat.toDigits 10 x.digits ++ ([] ++ 'e' :: writeInt x.exponent))) _ :=
    .real (isWhole_toDigits x.digits) .none (power_writeInt x.exponent) (by simp) hdigits
  simpa [writeReal, sign] using h

lemma denotes_quote (text : String) : Denotes (quote text.toList) (.str text) := by
  have h := Denotes.str (spells_flatMap_escapeChar text.toList)
  rwa [String.ofList_toList] at h

mutual

/-- What is written for a value is JSON for that value. -/
theorem denotes_pretty (level : Nat) : (value : Json) → Denotes (pretty level value) value
  | .null => .null
  | .bool true => .true
  | .bool false => .false
  | .int n => .number (number_writeInt n)
  | .real x => .number (number_writeReal x)
  | .str text => denotes_quote text
  | .arr [] => .emptyArr isSpace_nil
  | .arr (item :: items) => by
    have h := elements_prettyItems (level + 1) items (isSpace_newLine (level + 1))
      (denotes_pretty (level + 1) item) (isSpace_newLine level)
    simpa [pretty] using Denotes.arr h
  | .obj [] => .emptyObj isSpace_nil
  | .obj ((name, value) :: fields) => by
    have h := members_prettyFields (level + 1) fields (isSpace_newLine (level + 1)) name
      (denotes_pretty (level + 1) value) (isSpace_newLine level)
    simpa [pretty, quote] using Denotes.obj h

/-- The items behind the first one, with white space before the closing bracket. -/
theorem elements_prettyItems (level : Nat) : (items : List Json) →
    {before text after : List Char} → {item : Json} → IsSpace before → Denotes text item →
    IsSpace after →
    Elements (before ++ (text ++ (prettyItems level items ++ after))) (item :: items)
  | [], _, _, _, _, hbefore, htext, hafter => .one hbefore htext hafter
  | next :: items, _, _, _, _, hbefore, htext, hafter => by
    have h := elements_prettyItems level items (isSpace_newLine level)
      (denotes_pretty level next) hafter
    simpa [prettyItems] using Elements.cons hbefore htext isSpace_nil h

/-- The fields behind the first one, with white space before the closing brace. -/
theorem members_prettyFields (level : Nat) : (fields : List (String × Json)) →
    {before text after : List Char} → {value : Json} → IsSpace before → (name : String) →
    Denotes text value → IsSpace after →
    Members (before ++ (quote name.toList ++
      ([':', ' '] ++ (text ++ (prettyFields level fields ++ after))))) ((name, value) :: fields)
  | [], _, _, _, _, hbefore, name, htext, hafter => by
    have h := Members.one hbefore (spells_flatMap_escapeChar name.toList) isSpace_nil isSpace_space
      htext hafter
    simpa [quote, prettyFields] using h
  | (next, value) :: fields, _, _, _, _, hbefore, name, htext, hafter => by
    have h := members_prettyFields level fields (isSpace_newLine level) next
      (denotes_pretty level value) hafter
    have hcons := Members.cons hbefore (spells_flatMap_escapeChar name.toList) isSpace_nil
      isSpace_space htext isSpace_nil h
    simpa [quote, prettyFields] using hcons

end

end UnitCheck.Json
