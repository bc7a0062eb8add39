/-
The token stream of a YAML text.

Three things besides the characters decide the tokens.  The indentation of the open blocks:
a deeper line opens a block and a shallower one closes blocks.  The flow collections that are
open, inside of which indentation means nothing.  And keys: whether a scalar or collection is
the key of a mapping shows only at the colon behind it, so that the place of a token that may
turn out to be one is kept, on each level of flow collections at most one.

A token is settled when no colon can put another token in front of it any more.  If the text
has a fault, the tokens that are not settled are lost.
-/
import UnitCheck.Yaml.Token.Scalar
import UnitCheck.Yaml.Token.Tag

namespace UnitCheck.Yaml

/-- A token that may turn out to begin a key. -/
structure Candidate where
  /-- Its number among the tokens. -/
  number : Nat
  /-- Is there no other way to read it? -/
  required : Bool
  mark : Mark

/-- The state of scanning a text. -/
structure Scanner where
  cursor : Cursor
  tokens : Array Token
  /-- The column of the innermost open block, -1 outside of all blocks. -/
  indent : Int
  /-- The columns of the blocks around it. -/
  outerIndents : List Int
  /-- The candidate of the innermost flow level. -/
  candidate : Option Candidate
  /-- The candidates of the levels around it. -/
  outerCandidates : List (Option Candidate)
  /-- May the next token begin a key? -/
  keyAllowed : Bool
  /-- Has the end of the text been reached? -/
  ended : Bool

/-- The tokens of a text up to its end or its first fault. -/
structure TokenStream where
  tokens : List Token
  fault : Option Fault

namespace Scanner

/-- Scanning begins. -/
def start (text : List Char) : Scanner where
  cursor := ⟨text, .start⟩
  tokens := #[⟨.streamStart, .start, .start⟩]
  indent := -1
  outerIndents := []
  candidate := none
  outerCandidates := []
  keyAllowed := true
  ended := false

/-- Is a flow collection open? -/
def inFlow (scanner : Scanner) : Bool :=
  !scanner.outerCandidates.isEmpty

/-! ### Tokens and indentation -/

/-- Add a token that ends at the given cursor. -/
def push (scanner : Scanner) (kind : TokenKind) (cursor : Cursor) : Scanner :=
  { scanner with
    cursor
    tokens := scanner.tokens.push ⟨kind, scanner.cursor.mark, cursor.mark⟩ }

/-- Add a token of the next `n` characters. -/
def pushNext (scanner : Scanner) (kind : TokenKind) (n : Nat) : Scanner :=
  scanner.push kind (scanner.cursor.skip n)

/-- Put a token without extent in front of the token with the given number. -/
def insertAt (scanner : Scanner) (number : Nat) (kind : TokenKind) (mark : Mark) : Scanner :=
  { scanner with
    tokens := scanner.tokens.extract 0 number ++ #[⟨kind, mark, mark⟩] ++
      scanner.tokens.extract number scanner.tokens.size }

/-- Open a block at a column deeper than the innermost block, with its token in front of the
token with the given number. -/
def openBlock (scanner : Scanner) (mark : Mark) (number : Nat) (kind : TokenKind) : Scanner :=
  if !scanner.inFlow && scanner.indent < mark.column then
    { scanner.insertAt number kind mark with
      indent := mark.column
      outerIndents := scanner.indent :: scanner.outerIndents }
  else scanner

/-- Close blocks, innermost first, as long as they are deeper than the column. -/
def closeBlocksFrom (scanner : Scanner) (column : Int) : List Int → Scanner
  | [] => scanner
  | outer :: rest =>
    if column < scanner.indent then
      closeBlocksFrom
        { scanner.push .blockEnd scanner.cursor with indent := outer, outerIndents := rest }
        column rest
    else scanner

/-- Close the blocks that are deeper than the column.  In a flow collection there is nothing to
close. -/
def closeBlocks (scanner : Scanner) (column : Int) : Scanner :=
  if scanner.inFlow then scanner else scanner.closeBlocksFrom column scanner.outerIndents

/-! ### Keys -/

/-- A candidate has no colon where it needs one. -/
def missingColon {α : Type} (scanner : Scanner) (candidate : Candidate) : Except Fault α :=
  scanner.cursor.fail .missingColon .simpleKey candidate.mark

/-- The candidate of the innermost level is no key. -/
def dropCandidate (scanner : Scanner) : Except Fault Scanner :=
  match scanner.candidate with
  | some candidate =>
    if candidate.required then scanner.missingColon candidate
    else .ok { scanner with candidate := none }
  | none => .ok scanner

/-- The next token is a candidate, if keys are allowed here. -/
def noteCandidate (scanner : Scanner) : Except Fault Scanner :=
  if scanner.keyAllowed then do
    let scanner ← scanner.dropCandidate
    let mark := scanner.cursor.mark
    let required := !scanner.inFlow && scanner.indent == mark.column
    return { scanner with candidate := some ⟨scanner.tokens.size, required, mark⟩ }
  else .ok scanner

/-- Can a candidate no longer be a key?  A key stands on one line and has at most 1024
characters. -/
def isStale (scanner : Scanner) (candidate : Candidate) : Bool :=
  candidate.mark.line < scanner.cursor.mark.line ||
    candidate.mark.index + 1024 < scanner.cursor.mark.index

/-- Give up a candidate that can no longer be a key. -/
def refresh (scanner : Scanner) : Option Candidate → Except Fault (Option Candidate)
  | some candidate =>
    if scanner.isStale candidate then
      if candidate.required then scanner.missingColon candidate else .ok none
    else .ok (some candidate)
  | none => .ok none

/-- Give up the candidates, outermost first, that can no longer be keys. -/
def dropStale (scanner : Scanner) : Except Fault Scanner := do
  let outer ← scanner.outerCandidates.reverse.mapM scanner.refresh
  let candidate ← scanner.refresh scanner.candidate
  return { scanner with candidate, outerCandidates := outer.reverse }

/-! ### Fetching tokens -/

/-- Pass over white space, line ends and comments up to the next token.  At the beginning of
a line, where a key may stand, tabs are not passed over. -/
def skipGapFrom (flow keyAllowed : Bool) (mark : Mark) (inComment : Bool) :
    List Char → Cursor × Bool
  | [] => (⟨[], mark⟩, keyAllowed)
  | c :: rest =>
    if isBreak c then
      match c, rest with
      | '\r', '\n' :: rest => skipGapFrom flow (keyAllowed || !flow) (mark.down 2) false rest
      | _, rest => skipGapFrom flow (keyAllowed || !flow) (mark.down 1) false rest
    else if inComment || c == ' ' || (c == '\t' && (flow || !keyAllowed)) then
      skipGapFrom flow keyAllowed (mark.right 1) inComment rest
    else if c == '#' then skipGapFrom flow keyAllowed (mark.right 1) true rest
    else (⟨c :: rest, mark⟩, keyAllowed)

/-- Pass over what stands before the next token. -/
def skipGap (scanner : Scanner) : Scanner :=
  let (cursor, keyAllowed) :=
    skipGapFrom scanner.inFlow scanner.keyAllowed scanner.cursor.mark false scanner.cursor.rest
  { scanner with cursor, keyAllowed }

/-- The end of the text.  It begins a new line. -/
def fetchEnd (scanner : Scanner) : Except Fault Scanner := do
  let mark := scanner.cursor.mark
  let mark := if mark.column = 0 then mark else mark.down 0
  let scanner := { scanner with cursor := ⟨[], mark⟩ }.closeBlocks (-1)
  let scanner ← scanner.dropCandidate
  return { scanner.push .streamEnd scanner.cursor with keyAllowed := false, ended := true }

/-- A directive. -/
def fetchDirective (scanner : Scanner) : Except Fault Scanner := do
  let scanner ← (scanner.closeBlocks (-1)).dropCandidate
  let (kind, cursor) ← scanDirective scanner.cursor
  return { scanner.push kind cursor with keyAllowed := false }

/-- A mark between documents. -/
def fetchDocumentMark (scanner : Scanner) (kind : TokenKind) : Except Fault Scanner := do
  let scanner ← (scanner.closeBlocks (-1)).dropCandidate
  return { scanner.pushNext kind 3 with keyAllowed := false }

/-- The opening bracket or brace of a flow collection, which may be a key. -/
def fetchFlowStart (scanner : Scanner) (kind : TokenKind) : Except Fault Scanner := do
  let scanner ← scanner.noteCandidate
  return { scanner.pushNext kind 1 with
    candidate := none
    outerCandidates := scanner.candidate :: scanner.outerCandidates
    keyAllowed := true }

/-- The closing bracket or brace of a flow collection. -/
def fetchFlowEnd (scanner : Scanner) (kind : TokenKind) : Except Fault Scanner := do
  let scanner ← scanner.dropCandidate
  let scanner := { scanner.pushNext kind 1 with keyAllowed := false }
  match scanner.outerCandidates with
  | outer :: rest => return { scanner with candidate := outer, outerCandidates := rest }
  | [] => return scanner

/-- A comma in a flow collection. -/
def fetchFlowEntry (scanner : Scanner) : Except Fault Scanner := do
  let scanner ← scanner.dropCandidate
  return { scanner.pushNext .flowEntry 1 with keyAllowed := true }

/-- A fault in a block at the next token. -/
def refuse {α : Type} (scanner : Scanner) (problem : Problem) : Except Fault α :=
  .error (.malformed problem scanner.cursor.mark none)

/-- Open a block at the next token, where one may be opened. -/
def openBlockHere (scanner : Scanner) (problem : Problem) (kind : TokenKind) :
    Except Fault Scanner :=
  if scanner.inFlow then .ok scanner
  else if scanner.keyAllowed then
    .ok (scanner.openBlock scanner.cursor.mark scanner.tokens.size kind)
  else scanner.refuse problem

/-- The dash of an entry of a block sequence. -/
def fetchBlockEntry (scanner : Scanner) : Except Fault Scanner := do
  let scanner ← scanner.openBlockHere .entryNotAllowed .blockSequenceStart
  let scanner ← scanner.dropCandidate
  return { scanner.pushNext .blockEntry 1 with keyAllowed := true }

/-- The question mark of a key that may have several lines. -/
def fetchKey (scanner : Scanner) : Except Fault Scanner := do
  let scanner ← scanner.openBlockHere .keyNotAllowed .blockMappingStart
  let scanner ← scanner.dropCandidate
  return { scanner.pushNext .key 1 with keyAllowed := !scanner.inFlow }

/-- The colon behind a key.  If there is a candidate, it is the key. -/
def fetchValue (scanner : Scanner) : Except Fault Scanner := do
  match scanner.candidate with
  | some candidate =>
    let scanner := (scanner.insertAt candidate.number .key candidate.mark).openBlock
      candidate.mark candidate.number .blockMappingStart
    return { scanner.pushNext .value 1 with candidate := none, keyAllowed := false }
  | none =>
    let scanner ← scanner.openBlockHere .valueNotAllowed .blockMappingStart
    return { scanner.pushNext .value 1 with keyAllowed := !scanner.inFlow }

/-- An anchor or alias. -/
def fetchAnchor (scanner : Scanner) (activity : Activity) (kind : List Char → TokenKind) :
    Except Fault Scanner := do
  let scanner ← scanner.noteCandidate
  let (name, cursor) ← scanAnchor activity scanner.cursor
  return { scanner.push (kind name) cursor with keyAllowed := false }

/-- A tag. -/
def fetchTag (scanner : Scanner) : Except Fault Scanner := do
  let scanner ← scanner.noteCandidate
  let (kind, cursor) ← scanTag scanner.inFlow scanner.cursor
  return { scanner.push kind cursor with keyAllowed := false }

/-- A block scalar, which is never a key. -/
def fetchBlockScalar (scanner : Scanner) (literal : Bool) : Except Fault Scanner := do
  let scanner ← scanner.dropCandidate
  let (text, cursor) ← scanBlockScalar literal scanner.indent scanner.cursor
  return { scanner.push (.scalar text (if literal then .literal else .folded)) cursor with
    keyAllowed := true }

/-- A quoted scalar. -/
def fetchQuoted (scanner : Scanner) (single : Bool) : Except Fault Scanner := do
  let scanner ← scanner.noteCandidate
  let (text, cursor) ← scanQuoted single scanner.cursor
  return { scanner.push (.scalar text (if single then .singleQuoted else .doubleQuoted)) cursor
    with keyAllowed := false }

/-- A plain scalar.  If it ends at the end of a line, a key may follow. -/
def fetchPlain (scanner : Scanner) : Except Fault Scanner := do
  let scanner ← scanner.noteCandidate
  let scalar ← scanPlain scanner.inFlow scanner.indent scanner.cursor
  return { scanner.push (.scalar scalar.text .plain) scalar.cursor with
    keyAllowed := scalar.broken }

/-- Characters that begin other tokens than plain scalars. -/
def isIndicator (c : Char) : Bool :=
  ['-', '?', ':', ',', '[', ']', '\x7b', '\x7d', '#', '&', '*', '!', '|', '>', '\x27', '"', '%',
    '@', '\x60'].contains c

/-- May a plain scalar begin with `c`, which `next` follows? -/
def startsPlain (flow : Bool) (c : Char) (next : Option Char) : Bool :=
  !(isSpace c || isBreak c || isIndicator c) ||
    (c == '-' && !next.any isSpace) ||
    (!flow && (c == '?' || c == ':') && !endsWord next)

/-- Fetch the token that begins with `c`. -/
def fetchAt (scanner : Scanner) (c : Char) : Except Fault Scanner :=
  let next := scanner.cursor.peekSecond?
  let flow := scanner.inFlow
  let first := scanner.cursor.mark.column == 0
  if first && c == '%' then scanner.fetchDirective
  else if first && startsWithIndicator '-' scanner.cursor.rest then
    scanner.fetchDocumentMark .documentStart
  else if first && startsWithIndicator '.' scanner.cursor.rest then
    scanner.fetchDocumentMark .documentEnd
  else if c == '[' then scanner.fetchFlowStart .flowSequenceStart
  else if c == '\x7b' then scanner.fetchFlowStart .flowMappingStart
  else if c == ']' then scanner.fetchFlowEnd .flowSequenceEnd
  else if c == '\x7d' then scanner.fetchFlowEnd .flowMappingEnd
  else if c == ',' then scanner.fetchFlowEntry
  else if c == '-' && endsWord next then scanner.fetchBlockEntry
  else if c == '?' && (flow || endsWord next) then scanner.fetchKey
  else if c == ':' && (flow || endsWord next) then scanner.fetchValue
  else if c == '*' then scanner.fetchAnchor .aliasName .aliasOf
  else if c == '&' then scanner.fetchAnchor .anchorName .anchor
  else if c == '!' then scanner.fetchTag
  else if c == '|' && !flow then scanner.fetchBlockScalar true
  else if c == '>' && !flow then scanner.fetchBlockScalar false
  else if c == '\x27' then scanner.fetchQuoted true
  else if c == '"' then scanner.fetchQuoted false
  else if startsPlain flow c next then scanner.fetchPlain
  else scanner.cursor.fail .noToken .nextToken scanner.cursor.mark

/-- Fetch the next token and what comes with it. -/
def fetch (scanner : Scanner) : Except Fault Scanner := do
  let scanner ← scanner.skipGap.dropStale
  let scanner := scanner.closeBlocks scanner.cursor.mark.column
  let scanner ← match scanner.cursor.peek? with
    | none => scanner.fetchEnd
    | some c => scanner.fetchAt c
  scanner.dropStale

/-! ### The stream -/

/-- The tokens in front of which no other can come any more. -/
def settled (scanner : Scanner) : List Token :=
  let pending := (scanner.candidate :: scanner.outerCandidates).filterMap (·.map (·.number))
  scanner.tokens.toList.take (pending.foldl min scanner.tokens.size)

/-- Fetch tokens up to the end of the text or a fault.  Every token but the last takes up
characters of the text. -/
def run (scanner : Scanner) : TokenStream :=
  match scanner.fetch with
  | .error fault => ⟨scanner.settled, some fault⟩
  | .ok next =>
    if next.ended then ⟨next.tokens.toList, none⟩
    else if _h : next.cursor.rest.length < scanner.cursor.rest.length then next.run
    else ⟨next.settled, none⟩
termination_by scanner.cursor.rest.length

end Scanner

/-- The byte offset of the first character that no text may hold. -/
def unreadableOffset? (offset : Nat) : List Char → Option Nat
  | [] => none
  | c :: text => if isReadable c then unreadableOffset? (offset + c.utf8Size) text else some offset

/-- Pass over a byte order mark in front of a text. -/
def withoutMark : List Char → List Char
  | '\uFEFF' :: text => text
  | text => text

/-- The token stream of a text.  One byte order mark in front is passed over. -/
def TokenStream.ofText (text : List Char) : TokenStream :=
  match unreadableOffset? 0 text with
  | some offset => ⟨[], some (.unreadable offset)⟩
  | none => (Scanner.start (withoutMark text)).run

end UnitCheck.Yaml
