/-
From tokens to events.

The grammar of YAML is read by a machine with a stack.  The stack holds what is expected after
the node that is being read; a collection that is open is on it with the place where it began.
Each step gives one event.
-/
import UnitCheck.Yaml.Event
import UnitCheck.Yaml.Token.Stream

namespace UnitCheck.Yaml

/-- What may come next. -/
inductive Expectation where
  /-- A document.  The first one needs no mark. -/
  | document (first : Bool)
  /-- The content of a document behind its mark. -/
  | documentContent
  | documentEnd
  /-- A node that may be a block. -/
  | blockNode
  | blockEntry (start : Mark)
  /-- An entry of a block sequence that is not indented below the key before it. -/
  | indentlessEntry
  | blockKey (start : Mark)
  | blockValue (start : Mark)
  | flowEntry (start : Mark) (first : Bool)
  /-- The key of a mapping of one pair in a flow sequence. -/
  | pairKey (start : Mark)
  | pairValue (start : Mark)
  | pairEnd (start : Mark)
  | flowKey (start : Mark) (first : Bool)
  | flowValue (start : Mark)
  /-- The value of a key in a flow mapping that has no colon. -/
  | flowNoValue (start : Mark)

/-- The state of reading tokens. -/
structure Grammar where
  tokens : List Token
  /-- What is expected, nearest first. -/
  stack : List Expectation
  /-- What the handles of tags stand for in the current document. -/
  tags : List (List Char × List Char)

/-- Why reading stops: a fault, or the lack of tokens behind a fault. -/
inductive Stop where
  | fault (fault : Fault)
  | outOfTokens

/-- A step of reading: an event and the state behind it. -/
abbrev Step := Except Stop (Event × Grammar)

/-- The properties in front of a node. -/
structure Properties where
  anchor : Option (List Char) := none
  tag : Option (List Char × List Char × Mark) := none

namespace Grammar

/-- The next token. -/
def peek (grammar : Grammar) : Except Stop Token :=
  match grammar.tokens with
  | token :: _ => .ok token
  | [] => .error .outOfTokens

/-- Pass over the next token. -/
def skip (grammar : Grammar) : Grammar :=
  { grammar with tokens := grammar.tokens.tail }

/-- Expect something next. -/
def push (grammar : Grammar) (expectation : Expectation) : Grammar :=
  { grammar with stack := expectation :: grammar.stack }

/-- A problem at a place. -/
def fail {α : Type} (problem : Problem) (mark : Mark) (activity : Option (Activity × Mark)) :
    Except Stop α :=
  .error (.fault (.malformed problem mark activity))

/-- A scalar that was left out. -/
def emptyScalar (grammar : Grammar) (mark : Mark) : Step :=
  .ok (⟨.scalar ⟨[], .plain, none⟩ none, mark⟩, grammar)

/-! ### Nodes -/

/-- The anchor in front of a node, if it is next. -/
def anchor? (grammar : Grammar) : Except Stop (Option (List Char) × Grammar) := do
  match (← grammar.peek).kind with
  | .anchor name => return (some name, grammar.skip)
  | _ => return (none, grammar)

/-- The tag in front of a node, if it is next. -/
def tag? (grammar : Grammar) :
    Except Stop (Option (List Char × List Char × Mark) × Grammar) := do
  let token ← grammar.peek
  match token.kind with
  | .tag handle text => return (some (handle, text, token.start), grammar.skip)
  | _ => return (none, grammar)

/-- The anchor and the tag in front of a node, in any order. -/
def properties (grammar : Grammar) : Except Stop (Properties × Grammar) := do
  let (anchor, grammar) ← grammar.anchor?
  let (tag, grammar) ← grammar.tag?
  if anchor.isNone && tag.isSome then
    let (anchor, grammar) ← grammar.anchor?
    return ({ anchor, tag }, grammar)
  else return ({ anchor, tag }, grammar)

/-- The full text of a tag. -/
def resolveTag (grammar : Grammar) (start : Mark) :
    Option (List Char × List Char × Mark) → Except Stop (Option (List Char))
  | none => .ok none
  | some ([], text, _) => .ok (some text)
  | some (handle, text, mark) =>
    match grammar.tags.find? (·.1 == handle) with
    | some (_, full) => .ok (some (full ++ text))
    | none => fail .undefinedTagHandle mark (some (.node, start))

/-- A node.  `block` allows block collections, and `indentless` block sequences that are not
indented. -/
def node (grammar : Grammar) (block indentless : Bool) : Step := do
  let first ← grammar.peek
  let start := first.start
  match first.kind with
  | .aliasOf name => return (⟨.aliasOf name, start⟩, grammar.skip)
  | _ =>
    let (properties, grammar) ← grammar.properties
    let tag ← grammar.resolveTag start properties.tag
    let anchor := properties.anchor
    let token ← grammar.peek
    let sequence : Event := ⟨.sequenceStart tag anchor, start⟩
    let mapping : Event := ⟨.mappingStart tag anchor, start⟩
    match token.kind with
    | .scalar text style =>
      let tag := if tag = some ['!'] then none else tag
      return (⟨.scalar ⟨text, style, tag⟩ anchor, start⟩, grammar.skip)
    | .flowSequenceStart => return (sequence, grammar.skip.push (.flowEntry token.start true))
    | .flowMappingStart => return (mapping, grammar.skip.push (.flowKey token.start true))
    | kind =>
      if indentless && kind == .blockEntry then return (sequence, grammar.push .indentlessEntry)
      else if block && kind == .blockSequenceStart then
        return (sequence, grammar.skip.push (.blockEntry token.start))
      else if block && kind == .blockMappingStart then
        return (mapping, grammar.skip.push (.blockKey token.start))
      else if anchor.isSome || tag.isSome then
        return (⟨.scalar ⟨[], .plain, tag⟩ anchor, start⟩, grammar)
      else
        fail .missingNode token.start (some (if block then .blockNode else .flowNode, start))

/-! ### Documents -/

/-- The tags that every document knows. -/
def standardTags : List (List Char × List Char) :=
  [("!".toList, "!".toList), ("!!".toList, "tag:yaml.org,2002:".toList)]

/-- Read the directives in front of a document. -/
def directives (versioned : Bool) (tags : List (List Char × List Char)) :
    List Token → Except Stop (List (List Char × List Char) × List Token)
  | [] => .error .outOfTokens
  | token :: rest =>
    match token.kind with
    | .versionDirective major minor =>
      if versioned then fail .duplicateVersion token.start none
      else if major ≠ 1 ∨ (minor ≠ 1 ∧ minor ≠ 2) then fail .wrongVersion token.start none
      else directives true tags rest
    | .tagDirective handle text =>
      if tags.any (·.1 == handle) then fail .duplicateTagHandle token.start none
      else directives versioned (tags ++ [(handle, text)]) rest
    | _ => .ok (tags ++ standardTags, token :: rest)

/-- Does the token stand before a document or behind the last one? -/
def isBetweenDocuments : TokenKind → Bool
  | .versionDirective .. | .tagDirective .. | .documentStart | .streamEnd => true
  | _ => false

/-- A document, or the end of the stream. -/
def document (grammar : Grammar) (first : Bool) : Step := do
  let tokens :=
    if first then grammar.tokens else grammar.tokens.dropWhile (·.kind == .documentEnd)
  let grammar := { grammar with tokens }
  let token ← grammar.peek
  if first && !isBetweenDocuments token.kind then
    return (⟨.documentStart, token.start⟩,
      { grammar with tags := standardTags, stack := [.blockNode, .documentEnd] })
  else if token.kind == .streamEnd then
    return (⟨.streamEnd, token.start⟩, { grammar.skip with stack := [] })
  else
    let (tags, tokens) ← directives false [] tokens
    let grammar := { grammar with tokens, tags }
    let mark ← grammar.peek
    if mark.kind == .documentStart then
      return (⟨.documentStart, token.start⟩,
        { grammar.skip with stack := [.documentContent, .documentEnd] })
    else fail .missingDocumentStart mark.start none

/-- The content of a document behind its mark, which may be missing. -/
def documentContent (grammar : Grammar) : Step := do
  let token ← grammar.peek
  if isBetweenDocuments token.kind || token.kind == .documentEnd then
    grammar.emptyScalar token.start
  else grammar.node true false

/-- The end of a document. -/
def documentEnd (grammar : Grammar) : Step := do
  let token ← grammar.peek
  let grammar := if token.kind == .documentEnd then grammar.skip else grammar
  return (⟨.documentEnd, token.start⟩, grammar.push (.document false))

/-! ### Block collections -/

/-- An entry of a block sequence, or its end. -/
def blockEntry (grammar : Grammar) (start : Mark) : Step := do
  let token ← grammar.peek
  match token.kind with
  | .blockEntry =>
    let grammar := grammar.skip.push (.blockEntry start)
    match (← grammar.peek).kind with
    | .blockEntry | .blockEnd => grammar.emptyScalar token.stop
    | _ => grammar.node true false
  | .blockEnd => return (⟨.sequenceEnd, token.start⟩, grammar.skip)
  | _ => fail .missingEntry token.start (some (.blockSequence, start))

/-- An entry of a block sequence that is not indented, or its end. -/
def indentlessEntry (grammar : Grammar) : Step := do
  let token ← grammar.peek
  match token.kind with
  | .blockEntry =>
    let grammar := grammar.skip.push .indentlessEntry
    match (← grammar.peek).kind with
    | .blockEntry | .key | .value | .blockEnd => grammar.emptyScalar token.stop
    | _ => grammar.node true false
  | _ => return (⟨.sequenceEnd, token.start⟩, grammar)

/-- A key of a block mapping, or its end. -/
def blockKey (grammar : Grammar) (start : Mark) : Step := do
  let token ← grammar.peek
  match token.kind with
  | .key =>
    let grammar := grammar.skip.push (.blockValue start)
    match (← grammar.peek).kind with
    | .key | .value | .blockEnd => grammar.emptyScalar token.stop
    | _ => grammar.node true true
  | .blockEnd => return (⟨.mappingEnd, token.start⟩, grammar.skip)
  | _ => fail .missingKey token.start (some (.blockMapping, start))

/-- A value of a block mapping. -/
def blockValue (grammar : Grammar) (start : Mark) : Step := do
  let token ← grammar.peek
  match token.kind with
  | .value =>
    let grammar := grammar.skip.push (.blockKey start)
    match (← grammar.peek).kind with
    | .key | .value | .blockEnd => grammar.emptyScalar token.stop
    | _ => grammar.node true true
  | _ => (grammar.push (.blockKey start)).emptyScalar token.start

/-! ### Flow collections -/

/-- Pass over the comma in front of an entry that is not the first. -/
def skipComma (grammar : Grammar) (first : Bool) (problem : Problem) (activity : Activity)
    (start : Mark) : Except Stop Grammar := do
  let token ← grammar.peek
  if first then return grammar
  else if token.kind == .flowEntry then return grammar.skip
  else fail problem token.start (some (activity, start))

/-- An entry of a flow sequence, or its end. -/
def flowEntry (grammar : Grammar) (start : Mark) (first : Bool) : Step := do
  let token ← grammar.peek
  if token.kind == .flowSequenceEnd then
    return (⟨.sequenceEnd, token.start⟩, grammar.skip)
  else
    let grammar ← grammar.skipComma first .missingSequenceEnd .flowSequence start
    let token ← grammar.peek
    match token.kind with
    | .key => return (⟨.mappingStart none none, token.start⟩, grammar.skip.push (.pairKey start))
    | .flowSequenceEnd => return (⟨.sequenceEnd, token.start⟩, grammar.skip)
    | _ => (grammar.push (.flowEntry start false)).node false false

/-- The key of a mapping of one pair in a flow sequence. -/
def pairKey (grammar : Grammar) (start : Mark) : Step := do
  let token ← grammar.peek
  let grammar := grammar.push (.pairValue start)
  match token.kind with
  | .value | .flowEntry | .flowSequenceEnd => grammar.skip.emptyScalar token.stop
  | _ => grammar.node false false

/-- The value of a mapping of one pair in a flow sequence. -/
def pairValue (grammar : Grammar) (start : Mark) : Step := do
  let token ← grammar.peek
  let grammar := grammar.push (.pairEnd start)
  if token.kind == .value then
    let grammar := grammar.skip
    let token ← grammar.peek
    match token.kind with
    | .flowEntry | .flowSequenceEnd => grammar.emptyScalar token.start
    | _ => grammar.node false false
  else grammar.emptyScalar token.start

/-- The end of a mapping of one pair in a flow sequence. -/
def pairEnd (grammar : Grammar) (start : Mark) : Step := do
  let token ← grammar.peek
  return (⟨.mappingEnd, token.start⟩, grammar.push (.flowEntry start false))

/-- A key of a flow mapping, or its end. -/
def flowKey (grammar : Grammar) (start : Mark) (first : Bool) : Step := do
  let token ← grammar.peek
  if token.kind == .flowMappingEnd then
    return (⟨.mappingEnd, token.start⟩, grammar.skip)
  else
    let grammar ← grammar.skipComma first .missingMappingEnd .flowMapping start
    let token ← grammar.peek
    match token.kind with
    | .key =>
      let grammar := grammar.skip.push (.flowValue start)
      let token ← grammar.peek
      match token.kind with
      | .value | .flowEntry | .flowMappingEnd => grammar.emptyScalar token.start
      | _ => grammar.node false false
    | .flowMappingEnd => return (⟨.mappingEnd, token.start⟩, grammar.skip)
    | _ => (grammar.push (.flowNoValue start)).node false false

/-- A value of a flow mapping. -/
def flowValue (grammar : Grammar) (start : Mark) : Step := do
  let token ← grammar.peek
  let grammar := grammar.push (.flowKey start false)
  if token.kind == .value then
    let grammar := grammar.skip
    let token ← grammar.peek
    match token.kind with
    | .flowEntry | .flowMappingEnd => grammar.emptyScalar token.start
    | _ => grammar.node false false
  else grammar.emptyScalar token.start

/-- The missing value of a key of a flow mapping. -/
def flowNoValue (grammar : Grammar) (start : Mark) : Step := do
  let token ← grammar.peek
  (grammar.push (.flowKey start false)).emptyScalar token.start

/-! ### The stream -/

/-- Read what is expected. -/
def read (grammar : Grammar) : Expectation → Step
  | .document first => grammar.document first
  | .documentContent => grammar.documentContent
  | .documentEnd => grammar.documentEnd
  | .blockNode => grammar.node true false
  | .blockEntry start => grammar.blockEntry start
  | .indentlessEntry => grammar.indentlessEntry
  | .blockKey start => grammar.blockKey start
  | .blockValue start => grammar.blockValue start
  | .flowEntry start first => grammar.flowEntry start first
  | .pairKey start => grammar.pairKey start
  | .pairValue start => grammar.pairValue start
  | .pairEnd start => grammar.pairEnd start
  | .flowKey start first => grammar.flowKey start first
  | .flowValue start => grammar.flowValue start
  | .flowNoValue start => grammar.flowNoValue start

/-- Read up to the end, a fault, or `bound` events. -/
def run : Nat → Grammar → List Event × Option Stop
  | 0, _ => ([], none)
  | bound + 1, grammar =>
    match grammar.stack with
    | [] => ([], none)
    | expectation :: stack =>
      match { grammar with stack }.read expectation with
      | .error stop => ([], some stop)
      | .ok (event, next) =>
        let (events, stop) := run bound next
        (event :: events, stop)

end Grammar

/-- The events of a token stream.  Tokens that are missing behind a fault are a fault only
where they are needed.  No token gives more than four events. -/
def EventStream.ofTokens (stream : TokenStream) : EventStream :=
  let tokens := stream.tokens.tail
  let (events, stop) := Grammar.run (4 * tokens.length + 4) ⟨tokens, [.document true], []⟩
  match stop with
  | none => ⟨events, none⟩
  | some (.fault fault) => ⟨events, some fault⟩
  | some .outOfTokens => ⟨events, stream.fault⟩

end UnitCheck.Yaml
