/-
Reading anchors, aliases, tags and directives.
-/
import UnitCheck.Yaml.Cursor
import UnitCheck.Yaml.Token

namespace UnitCheck.Yaml

/-! ### Anchors and aliases -/

/-- May the name of an anchor end before this character? -/
def endsAnchor (c : Option Char) : Bool :=
  endsWord c || c.any fun c =>
    c == '?' || c == ':' || c == ',' || c == ']' || c == '\x7d' || c == '%' || c == '@' ||
      c == '\x60'

/-- The name behind the indicator of an anchor or alias. -/
def scanAnchor (activity : Activity) (cursor : Cursor) : Except Fault (List Char × Cursor) :=
  let behind := cursor.skip 1
  let name := behind.takeWhile isNameChar
  let rest := behind.skipWhile isNameChar
  if name = [] || !endsAnchor rest.peek? then
    rest.fail .missingAnchorName activity cursor.mark
  else .ok (name, rest)

/-! ### Tags -/

/-- May the character stand in a tag?  Commas and brackets may only where the end of the tag is
marked. -/
def isTagChar (verbatim : Bool) (c : Char) : Bool :=
  isNameChar c || [';', '/', '?', ':', '@', '&', '=', '+', '$', '.', '%', '!', '~', '*', '\x27',
    '(', ')'].contains c || (verbatim && [',', '[', ']'].contains c)

/-- How many octets a character has whose first octet is given. -/
def octetCount? (octet : Nat) : Option Nat :=
  if octet < 0x80 then some 1
  else if octet / 0x20 = 0x6 then some 2
  else if octet / 0x10 = 0xE then some 3
  else if octet / 0x8 = 0x1E then some 4
  else none

/-- The character of the octets of an escape, first octet first. -/
def ofOctets : List Nat → Char
  | [] => '\x00'
  | [a] => Char.ofNat a
  | a :: rest =>
    let bits := a % Nat.pow 2 (6 - rest.length)
    Char.ofNat (rest.foldl (fun n b => n * 64 + b % 64) bits)

/-- Read the characters of a tag.  `owed` is the number of octets that the character being
escaped still needs, and `octets` are those it has, last first.  The first `pass` characters
have been read before. -/
def readTagText (verbatim : Bool) (activity : Activity) (start : Mark) (pass owed : Nat)
    (octets : List Nat) (text : List Char) (mark : Mark) :
    List Char → Except Fault (List Char × Cursor)
  | [] =>
    if owed = 0 then .ok (text.reverse, ⟨[], mark⟩)
    else Cursor.fail ⟨[], mark⟩ .missingOctet activity start
  | c :: rest =>
    let here : Cursor := ⟨c :: rest, mark⟩
    match pass with
    | pass + 1 => readTagText verbatim activity start pass owed octets text mark rest
    | 0 =>
      if c == '%' then
        match (if rest.length < 2 then none else ofDigits? 16 (rest.take 2)) with
        | none => here.fail .missingOctet activity start
        | some octet =>
          let owed? :=
            if owed = 0 then (octetCount? octet).map (· - 1)
            else if octet / 0x40 = 2 then some (owed - 1) else none
          match owed? with
          | none =>
            here.fail (if owed = 0 then .badFirstOctet else .badLaterOctet) activity start
          | some 0 =>
            readTagText verbatim activity start 2 0 []
              (ofOctets (octet :: octets).reverse :: text) (mark.right 3) rest
          | some (owed + 1) =>
            readTagText verbatim activity start 2 (owed + 1) (octet :: octets) text
              (mark.right 3) rest
      else if owed ≠ 0 then here.fail .missingOctet activity start
      else if isTagChar verbatim c then
        readTagText verbatim activity start 0 0 [] (c :: text) (mark.right 1) rest
      else .ok (text.reverse, here)

/-- The text of a tag, which is not empty.  `front` is the part of it that has been read. -/
def scanTagText (verbatim : Bool) (activity : Activity) (front : List Char) (start : Mark)
    (cursor : Cursor) : Except Fault (List Char × Cursor) := do
  let (text, rest) ← readTagText verbatim activity start 0 0 [] [] cursor.mark cursor.rest
  if front = [] ∧ text = [] then rest.fail .missingTagText activity start
  else return (front.tail ++ text, rest)

/-- The handle of a tag: an exclamation mark, letters, and mostly another exclamation mark. -/
def scanTagHandle (cursor : Cursor) : List Char × Cursor :=
  let name := (cursor.skip 1).takeWhile isNameChar
  let rest := (cursor.skip 1).skipWhile isNameChar
  if rest.isAt '!' then ('!' :: name ++ ['!'], rest.skip 1) else ('!' :: name, rest)

/-- The handle and the text of a tag. -/
def scanTagParts (cursor : Cursor) : Except Fault (List Char × List Char × Cursor) := do
  let start := cursor.mark
  if cursor.peekSecond? = some '<' then
    let (text, rest) ← scanTagText true .tagText [] start (cursor.skip 2)
    if rest.isAt '>' then return ([], text, rest.skip 1)
    else rest.fail .missingTagClose .tag start
  else
    let (handle, rest) := scanTagHandle cursor
    if 1 < handle.length ∧ handle.getLast? = some '!' then
      let (text, rest) ← scanTagText false .tagText [] start rest
      return (handle, text, rest)
    else
      let (text, rest) ← scanTagText false .tagText handle start rest
      -- A lone exclamation mark is a tag of its own.
      if text = [] then return ([], ['!'], rest) else return (['!'], text, rest)

/-- Read a tag. -/
def scanTag (flow : Bool) (cursor : Cursor) : Except Fault (TokenKind × Cursor) := do
  let (handle, text, rest) ← scanTagParts cursor
  if endsWord rest.peek? || (flow && rest.isAt ',') then return (.tag handle text, rest)
  else rest.fail .missingSpaceOrLineEnd .tag cursor.mark

/-! ### Directives -/

/-- A number in a version. -/
def scanVersionNumber (start : Mark) (cursor : Cursor) : Except Fault (Nat × Cursor) :=
  let digits := cursor.takeWhile isDigit
  if 9 < digits.length then (cursor.skip 9).fail .longVersion .versionDirective start
  else match ofDigits? 10 digits with
    | some n => .ok (n, cursor.skip digits.length)
    | none => cursor.fail .missingVersion .versionDirective start

/-- The version that a text conforms to. -/
def scanVersion (start : Mark) (cursor : Cursor) : Except Fault (TokenKind × Cursor) := do
  let (major, rest) ← scanVersionNumber start (cursor.skipWhile isSpace)
  if rest.isAt '.' then
    let (minor, rest) ← scanVersionNumber start (rest.skip 1)
    return (.versionDirective major minor, rest)
  else rest.fail .missingVersionPoint .versionDirective start

/-- A handle and the text that it stands for. -/
def scanTagDirective (start : Mark) (cursor : Cursor) : Except Fault (TokenKind × Cursor) := do
  let cursor := cursor.skipWhile isSpace
  unless cursor.isAt '!' do cursor.fail .missingTagMark .tagDirectiveHandle start
  let (handle, rest) := scanTagHandle cursor
  unless handle.length = 1 ∨ handle.getLast? = some '!' do
    rest.fail .missingTagMark .tagDirectiveHandleEnd start
  unless rest.peek?.any isSpace do rest.fail .missingSpace .tagDirective start
  let (text, rest) ← scanTagText true .tagDirectiveText [] start (rest.skipWhile isSpace)
  unless endsWord rest.peek? do rest.fail .missingSpaceOrLineEnd .tagDirective start
  return (.tagDirective handle text, rest)

/-- Read a directive up to the end of its line. -/
def scanDirective (cursor : Cursor) : Except Fault (TokenKind × Cursor) := do
  let start := cursor.mark
  let behind := cursor.skip 1
  let name := behind.takeWhile isNameChar
  let rest := behind.skipWhile isNameChar
  if name = [] then rest.fail .missingDirectiveName .directive start
  unless endsWord rest.peek? do rest.fail .badDirectiveName .directive start
  let (kind, rest) ←
    if name = ['Y', 'A', 'M', 'L'] then scanVersion start rest
    else if name = ['T', 'A', 'G'] then scanTagDirective start rest
    else rest.fail .unknownDirective .directive start
  let rest := rest.skipToLineEnd
  unless endsLine rest.peek? do rest.fail .missingLineEnd .directive start
  return (kind, rest.skipBreak)

end UnitCheck.Yaml
