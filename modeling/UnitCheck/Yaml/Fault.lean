/-
Faults in YAML texts: what is wrong, where, and what was being read at the time.
-/
namespace UnitCheck.Yaml

/-- A place in a text.  All three numbers count characters or lines from zero. -/
structure Mark where
  index : Nat
  line : Nat
  column : Nat
deriving DecidableEq, Repr

namespace Mark

/-- The place before the first character. -/
def start : Mark :=
  ⟨0, 0, 0⟩

/-- The place `n` characters to the right. -/
def right (mark : Mark) (n : Nat) : Mark :=
  ⟨mark.index + n, mark.line, mark.column + n⟩

/-- The place behind a line end of `n` characters. -/
def down (mark : Mark) (n : Nat) : Mark :=
  ⟨mark.index + n, mark.line + 1, 0⟩

/-- Is this the first place of its text? -/
def isFirst (mark : Mark) : Bool :=
  mark.line == 0 && mark.column == 0

/-- Are two places on one line and in one column? -/
def same (a b : Mark) : Bool :=
  a.line == b.line && a.column == b.column

/-- The place in words; the first place of a text goes without saying. -/
def place (mark : Mark) : String :=
  if mark.isFirst then ""
  else " at line " ++ toString (mark.line + 1) ++ " column " ++ toString (mark.column + 1)

end Mark

/-- What is wrong at a place. -/
inductive Problem where
  | missingColon
  | entryNotAllowed
  | keyNotAllowed
  | valueNotAllowed
  | noToken
  | unknownDirective
  | missingDirectiveName
  | badDirectiveName
  | missingVersion
  | missingVersionPoint
  | longVersion
  | missingLineEnd
  | missingSpace
  | missingSpaceOrLineEnd
  | missingAnchorName
  | missingTagMark
  | missingTagClose
  | missingTagText
  | missingOctet
  | badFirstOctet
  | badLaterOctet
  | zeroIndentation
  | tabForIndentation
  | documentInQuotes
  | endInQuotes
  | unknownEscape
  | missingHexDigit
  | badEscapedCharacter
  | colonInFlow
  | tabInPlain
  | missingDocumentStart
  | duplicateVersion
  | wrongVersion
  | duplicateTagHandle
  | undefinedTagHandle
  | missingNode
  | missingEntry
  | missingKey
  | missingSequenceEnd
  | missingMappingEnd
deriving DecidableEq, Repr

/-- The wording of a problem. -/
def Problem.text : Problem → String
  | .missingColon => "could not find expected ':'"
  | .entryNotAllowed => "block sequence entries are not allowed in this context"
  | .keyNotAllowed => "mapping keys are not allowed in this context"
  | .valueNotAllowed => "mapping values are not allowed in this context"
  | .noToken => "found character that cannot start any token"
  | .unknownDirective => "found unknown directive name"
  | .missingDirectiveName => "could not find expected directive name"
  | .badDirectiveName => "found unexpected non-alphabetical character"
  | .missingVersion => "did not find expected version number"
  | .missingVersionPoint => "did not find expected digit or '.' character"
  | .longVersion => "found extremely long version number"
  | .missingLineEnd => "did not find expected comment or line break"
  | .missingSpace => "did not find expected whitespace"
  | .missingSpaceOrLineEnd => "did not find expected whitespace or line break"
  | .missingAnchorName => "did not find expected alphabetic or numeric character"
  | .missingTagMark => "did not find expected '!'"
  | .missingTagClose => "did not find the expected '>'"
  | .missingTagText => "did not find expected tag URI"
  | .missingOctet => "did not find URI escaped octet"
  | .badFirstOctet => "found an incorrect leading UTF-8 octet"
  | .badLaterOctet => "found an incorrect trailing UTF-8 octet"
  | .zeroIndentation => "found an indentation indicator equal to 0"
  | .tabForIndentation => "found a tab character where an indentation space is expected"
  | .documentInQuotes => "found unexpected document indicator"
  | .endInQuotes => "found unexpected end of stream"
  | .unknownEscape => "found unknown escape character"
  | .missingHexDigit => "did not find expected hexdecimal number"
  | .badEscapedCharacter => "found invalid Unicode character escape code"
  | .colonInFlow => "found unexpected ':'"
  | .tabInPlain => "found a tab character that violates indentation"
  | .missingDocumentStart => "did not find expected <document start>"
  | .duplicateVersion => "found duplicate %YAML directive"
  | .wrongVersion => "found incompatible YAML document"
  | .duplicateTagHandle => "found duplicate %TAG directive"
  | .undefinedTagHandle => "found undefined tag handle"
  | .missingNode => "did not find expected node content"
  | .missingEntry => "did not find expected '-' indicator"
  | .missingKey => "did not find expected key"
  | .missingSequenceEnd => "did not find expected ',' or ']'"
  | .missingMappingEnd => "did not find expected ',' or '\x7d'"

/-- What was being read when a problem arose. -/
inductive Activity where
  | simpleKey
  | nextToken
  | directive
  | versionDirective
  | tagDirective
  | tagDirectiveHandle
  | tagDirectiveHandleEnd
  | tagDirectiveText
  | tag
  | tagText
  | anchorName
  | aliasName
  | blockScalar
  | quotedScalar
  | quotedEscape
  | plainScalar
  | node
  | blockNode
  | flowNode
  | blockSequence
  | blockMapping
  | flowSequence
  | flowMapping
deriving DecidableEq, Repr

/-- The wording of an activity. -/
def Activity.text : Activity → String
  | .simpleKey => "while scanning a simple key"
  | .nextToken => "while scanning for the next token"
  | .directive => "while scanning a directive"
  | .versionDirective => "while scanning a %YAML directive"
  | .tagDirective => "while scanning a %TAG directive"
  | .tagDirectiveHandle => "while scanning a tag directive"
  | .tagDirectiveHandleEnd => "while parsing a tag directive"
  | .tagDirectiveText => "while parsing a %TAG directive"
  | .tag => "while scanning a tag"
  | .tagText => "while parsing a tag"
  | .anchorName => "while scanning an anchor"
  | .aliasName => "while scanning an alias"
  | .blockScalar => "while scanning a block scalar"
  | .quotedScalar => "while scanning a quoted scalar"
  | .quotedEscape => "while parsing a quoted scalar"
  | .plainScalar => "while scanning a plain scalar"
  | .node => "while parsing a node"
  | .blockNode => "while parsing a block node"
  | .flowNode => "while parsing a flow node"
  | .blockSequence => "while parsing a block collection"
  | .blockMapping => "while parsing a block mapping"
  | .flowSequence => "while parsing a flow sequence"
  | .flowMapping => "while parsing a flow mapping"

/-- A fault in a text. -/
inductive Fault where
  /-- A character that no text may hold, at the given byte offset. -/
  | unreadable (offset : Nat)
  /-- A problem at a place, with what was being read and where that began. -/
  | malformed (problem : Problem) (mark : Mark) (activity : Option (Activity × Mark))
  /-- An alias at a place for which no anchor stands before it. -/
  | unknownAnchor (mark : Mark)
deriving DecidableEq, Repr

/-- The wording of a fault.  The beginning of the activity is given only where it differs from
the place of the problem. -/
def Fault.message : Fault → String
  | .unreadable offset =>
    "control characters are not allowed" ++
      (if offset = 0 then "" else " at position " ++ toString offset)
  | .malformed problem mark none => problem.text ++ mark.place
  | .malformed problem mark (some (activity, start)) =>
    problem.text ++ mark.place ++ ", " ++ activity.text ++
      (if start.same mark then "" else start.place)
  | .unknownAnchor mark => "unknown anchor" ++ mark.place

end UnitCheck.Yaml
