/-
Reading a configuration from YAML.

The document is walked along once, in the order of its text, and the first thing that is wrong
is reported, be it a value of the wrong shape or the fault that cuts the document short.  The
place of a value is the path of keys and item numbers that leads to it.
-/
import UnitCheck.Config.Basic
import UnitCheck.Text.Blank
import UnitCheck.Yaml.Node
import UnitCheck.Yaml.Plain

namespace UnitCheck

/-- Why a configuration cannot be read. -/
inductive ConfigError where
  /-- The text is no YAML. -/
  | malformed (fault : Yaml.Fault)
  /-- A value does not have the wanted shape.  The path of the value and its place are added
  where they are known. -/
  | unfit (mismatch : Mismatch) (place : Option (String × Yaml.Mark))
  /-- The aliases unfold to too large a document. -/
  | tooManyAliases
  /-- There is more than one document. -/
  | manyDocuments

/-- The wording of the reason. -/
def ConfigError.message : ConfigError → String
  | .malformed fault => fault.message
  | .unfit mismatch none => mismatch.message
  | .unfit mismatch (some (path, mark)) =>
    (if path.isEmpty then "" else path ++ ": ") ++ mismatch.message ++ mark.place
  | .tooManyAliases => "repetition limit exceeded"
  | .manyDocuments => "deserializing from YAML containing more than one document is not supported"

namespace Config

open Yaml (Node Scalar)

/-- Reading a part of a document.  The state counts the aliases that were followed. -/
abbrev Read := ReaderT Yaml.Document (StateT Nat (Except ConfigError))

namespace Read

/-- A value does not have the wanted shape. -/
def refuse {α : Type} (mismatch : Mismatch) : Read α :=
  throw (.unfit mismatch none)

/-- Add the path and place of a value to what is wrong with it, unless they are known. -/
def locate {α : Type} (path : String) (node : Node) (read : Read α) : Read α :=
  tryCatch read fun error =>
    match error with
    | .unfit mismatch none => throw (.unfit mismatch (some (path, node.mark)))
    | error => throw error

/-- The end of a collection: a value, unless the collection is cut short. -/
def endWith {α : Type} (cut : Option Yaml.Fault) (value : α) : Read α :=
  match cut with
  | some fault => throw (.malformed fault)
  | none => return value

/-- The node that an alias stands for.  A document of `n` events may follow a hundred times as
many aliases. -/
def resolve (node : Node) : Read Node := do
  match node with
  | .aliasOf id _ =>
    let document ← read
    let count ← get
    set (count + 1)
    if 100 * document.size < count + 1 then throw .tooManyAliases
    else return (document.anchored? id).getD node
  | node => return node

/-- What is wrong with a node in the place of something else. -/
def wrongNode {α : Type} (node : Node) (wanted : String) : Read α :=
  match node with
  | .scalar value _ _ => refuse (value.mismatch wanted)
  | .sequence .. => refuse (.wrongType .sequence wanted)
  | .mapping .. | .aliasOf .. => refuse (.wrongType .map wanted)

/-- A text: the text of any scalar. -/
def text (path : String) (node : Node) (wanted : String) : Read String := do
  let node ← resolve node
  locate path node do
    match node with
    | .scalar value _ _ => return String.ofList value.text
    | node => wrongNode node wanted

/-- The items of a list, from the given number on. -/
def itemsFrom (path : String) (cut : Option Yaml.Fault) (number : Nat) : List Node → Read (List String)
  | [] => endWith cut []
  | item :: items => do
    let first ← text (path ++ "[" ++ toString number ++ "]") item "a string"
    return first :: (← itemsFrom path cut (number + 1) items)

/-- A list of texts.  A value that is left out is the empty list. -/
def texts (path : String) (node : Node) : Read (List String) := do
  let node ← resolve node
  locate path node do
    match node with
    | .sequence items cut _ _ _ => itemsFrom path cut 0 items
    | .scalar value mark anchor =>
      if value.isMissing then return []
      else wrongNode (.scalar value mark anchor) "a sequence"
    | node => wrongNode node "a sequence"

/-- The path of the value of a key. -/
def valuePath (path : String) : Node → String
  | .scalar value _ _ => path ++ "." ++ String.ofList value.text
  | _ => path ++ ".?"

/-- The lists of a map, added to those before. -/
def listsFrom (path : String) (cut : Option Yaml.Fault) (lists : NameLists) :
    List Node → Read NameLists
  | [] => endWith cut lists
  | [key] => do
    discard (text path key "a string")
    endWith cut lists
  | key :: value :: children => do
    let name ← text path key "a string"
    let names ← texts (valuePath path key) value
    listsFrom path cut (lists.insert name names) children

/-- A map of lists.  A value that is left out is the empty map. -/
def lists (path : String) (node : Node) : Read NameLists := do
  let node ← resolve node
  locate path node do
    match node with
    | .mapping children cut _ _ _ => listsFrom path cut ∅ children
    | .scalar value mark anchor =>
      if value.isMissing then return ∅ else wrongNode (.scalar value mark anchor) "a map"
    | node => wrongNode node "a map"

/-- Is a scalar null, or left out?  One with the tag of null has to be. -/
def isUnset (value : Scalar) : Read Bool :=
  if value.style != .plain then return false
  else if value.hasTag "null" then
    if Yaml.isNull value.text then return true
    else refuse (.wrongValue (.str (String.ofList value.text)) "null")
  else if value.tag.isSome then return false
  else return value.text == [] || Yaml.isNull value.text

/-- A value that may be null or left out. -/
def optional {α : Type} (readSome : Node → Read α) (node : Node) : Read (Option α) := do
  let node ← resolve node
  match node with
  | .scalar value _ _ =>
    if ← isUnset value then return none else some <$> readSome node
  | node => some <$> readSome node

/-- A truth value: a plain scalar, or a literal one with the tag of truth values. -/
def bool (path : String) (node : Node) : Read Bool :=
  locate path node do
    match node with
    | .scalar value _ _ =>
      let eligible := value.style == .plain || (value.style == .literal && value.hasTag "bool")
      match Yaml.bool? value.text with
      | some b => if eligible then return b else wrongNode node "a boolean"
      | none => wrongNode node "a boolean"
    | node => wrongNode node "a boolean"

/-- The tag of a node. -/
def tagOf : Node → Option (List Char)
  | .scalar value _ _ => value.tag
  | .sequence _ _ tag _ _ => tag
  | .mapping _ _ tag _ _ => tag
  | .aliasOf _ _ => none

/-- The name in a tag that begins with an exclamation mark. -/
def tagName? (node : Node) : Option (List Char) := do
  let tag ← tagOf node
  if tag.head? = some '!' then return (if tag.tail = [] then tag else tag.tail) else none

/-- The value behind a tag that says everything: null. -/
def nothing (path : String) (node : Node) : Read Unit :=
  locate path node do
    match node with
    | .scalar value _ _ =>
      if value.style == .plain && (value.text == [] || Yaml.isNull value.text) then return ()
      else refuse (.wrongValue (.str (String.ofList value.text)) "null")
    | node => wrongNode node "unit"

/-- A format by its name. -/
def formatNamed (name : List Char) : Read Format :=
  match Format.ofName (String.ofList name) with
  | .ok format => return format
  | .error mismatch => refuse mismatch

/-- A format: the text of a scalar, or a tag. -/
def format (path : String) (node : Node) : Read Format := do
  match tagName? node with
  | some name =>
    let format ← formatNamed name
    nothing path node
    return format
  | none =>
    locate path node do
      match node with
      | .scalar value _ _ => formatNamed value.text
      | node => wrongNode node "a YAML tag starting with '!'"

/-! ### The whole configuration -/

/-- The names of the fields. -/
def fieldNames : List String :=
  ["extra_directives", "strict", "format"]

/-- The fields that have been seen, with the configuration so far. -/
structure Seen where
  config : Config := {}
  names : List String := []

/-- The name of a field. -/
def fieldName (seen : Seen) (key : Node) : Read String := do
  let target ← resolve key
  let name ← locate "" target do
    match target with
    | .scalar value _ _ =>
      let name := String.ofList value.text
      if fieldNames.contains name then return name
      else refuse (.unknownField name fieldNames)
    | node => wrongNode node "field identifier"
  if seen.names.contains name then refuse (.duplicateField name) else return name

/-- The value of a field. -/
def fieldValue (config : Config) (name : String) (value : Node) : Read Config := do
  if name = "extra_directives" then
    return { config with extraDirectives := ← lists name value }
  else if name = "strict" then
    return { config with strict := ← optional (bool name) value }
  else
    return { config with format := ← optional (format name) value }

/-- The fields of the root. -/
def fieldsFrom (cut : Option Yaml.Fault) (seen : Seen) : List Node → Read Config
  | [] => endWith cut seen.config
  | [key] => do
    discard (fieldName seen key)
    endWith cut seen.config
  | key :: value :: children => do
    let name ← fieldName seen key
    let config ← fieldValue seen.config name value
    fieldsFrom cut ⟨config, name :: seen.names⟩ children

/-- The root of a document. -/
def root (node : Node) : Read Config :=
  locate "" node do
    match node with
    | .mapping children cut _ _ _ => fieldsFrom cut {} children
    | .scalar value mark anchor =>
      if value.isMissing then return {}
      else wrongNode (.scalar value mark anchor) "struct LintConfig"
    | node => wrongNode node "struct LintConfig"

end Read

/-- The configuration in a document.  What is wrong with its values is reported before the fault
that cuts it short. -/
def ofDocument (document : Yaml.Document) : Except ConfigError Config := do
  let config ← match document.root with
    | some root => (·.1) <$> ((Read.root root).run document).run 0
    | none => pure {}
  match document.fault with
  | some fault => throw (.malformed fault)
  | none => if document.followed then throw .manyDocuments else return config

/-- Read a configuration.  A text of white space alone is the empty configuration. -/
def ofText (text : List Char) : Except ConfigError Config :=
  if text.all isBlank then .ok {} else ofDocument (.ofText text)

end Config

end UnitCheck
