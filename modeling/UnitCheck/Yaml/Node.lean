/-
Documents as trees of nodes.

A fault may cut a document short.  The nodes that are open at that point hold what was read of
them, and the fault behind it, so that whoever walks along the tree meets the fault where the
text has it.
-/
import UnitCheck.Yaml.Event.Grammar

namespace UnitCheck.Yaml

/-- A node of a document.  The children of a mapping are its keys and values in turn.  `cut` is
the fault that cuts a collection short. -/
inductive Node where
  | scalar (value : Scalar) (mark : Mark) (anchor : Option Nat)
  | sequence (items : List Node) (cut : Option Fault) (tag : Option (List Char)) (mark : Mark)
      (anchor : Option Nat)
  | mapping (children : List Node) (cut : Option Fault) (tag : Option (List Char)) (mark : Mark)
      (anchor : Option Nat)
  /-- Another occurrence of the node with the given anchor number. -/
  | aliasOf (anchor : Nat) (mark : Mark)

namespace Node

/-- The place where a node begins. -/
def mark : Node → Mark
  | .scalar _ mark _ => mark
  | .sequence _ _ _ mark _ => mark
  | .mapping _ _ _ mark _ => mark
  | .aliasOf _ mark => mark

mutual

/-- The nodes with an anchor, in the order in which they begin. -/
def anchored : Node → List (Nat × Node)
  | .scalar value mark anchor =>
    anchor.toList.map fun id => (id, .scalar value mark anchor)
  | .sequence items cut tag mark anchor =>
    (anchor.toList.map fun id => (id, .sequence items cut tag mark anchor)) ++
      anchoredIn items
  | .mapping children cut tag mark anchor =>
    (anchor.toList.map fun id => (id, .mapping children cut tag mark anchor)) ++
      anchoredIn children
  | .aliasOf _ _ => []

/-- The nodes with an anchor among nodes and below them. -/
def anchoredIn : List Node → List (Nat × Node)
  | [] => []
  | node :: nodes => anchored node ++ anchoredIn nodes

end

end Node

/-! ### Building a tree -/

/-- A collection that is open, with its children last first. -/
structure Frame where
  isMapping : Bool
  tag : Option (List Char)
  mark : Mark
  anchor : Option Nat
  children : List Node

/-- The node of a frame. -/
def Frame.node (frame : Frame) (cut : Option Fault) : Node :=
  if frame.isMapping then
    .mapping frame.children.reverse cut frame.tag frame.mark frame.anchor
  else .sequence frame.children.reverse cut frame.tag frame.mark frame.anchor

/-- A tree that is being built. -/
structure Builder where
  root : Option Node := none
  /-- The open collections, innermost first. -/
  frames : List Frame := []
  /-- The numbers of the anchors by name. -/
  anchors : List (List Char × Nat) := []
  /-- The number of events so far. -/
  size : Nat := 0
  fault : Option Fault := none

namespace Builder

/-- Add a finished node to the innermost open collection. -/
def attach (builder : Builder) (node : Node) : Builder :=
  match builder.frames with
  | [] => { builder with root := some node }
  | frame :: frames =>
    { builder with frames := { frame with children := node :: frame.children } :: frames }

/-- Number an anchor by the count of names so far.  A name that is used again takes a new
number, which the next new name takes too. -/
def name (builder : Builder) : Option (List Char) → Builder × Option Nat
  | none => (builder, none)
  | some name =>
    let id := builder.anchors.length
    let others := builder.anchors.filter (·.1 != name)
    ({ builder with anchors := (name, id) :: others }, some id)

/-- Close the innermost open collection, or cut it short. -/
def close (builder : Builder) (cut : Option Fault) : Builder :=
  match builder.frames with
  | [] => builder
  | frame :: frames => { builder with frames }.attach (frame.node cut)

/-- Take in an event of a document. -/
def step (builder : Builder) (event : Event) : Builder :=
  if builder.fault.isSome then builder
  else
    let counted := { builder with size := builder.size + 1 }
    match event.kind with
    | .aliasOf name =>
      match builder.anchors.find? (·.1 == name) with
      | some (_, id) => counted.attach (.aliasOf id event.mark)
      | none => { builder with fault := some (.unknownAnchor event.mark) }
    | .scalar value anchor =>
      let (counted, id) := counted.name anchor
      counted.attach (.scalar value event.mark id)
    | .sequenceStart tag anchor =>
      let (counted, id) := counted.name anchor
      { counted with frames := ⟨false, tag, event.mark, id, []⟩ :: counted.frames }
    | .mappingStart tag anchor =>
      let (counted, id) := counted.name anchor
      { counted with frames := ⟨true, tag, event.mark, id, []⟩ :: counted.frames }
    | .sequenceEnd | .mappingEnd => counted.close none
    | .documentStart | .documentEnd | .streamEnd => builder

/-- Cut all open collections short. -/
def finish (builder : Builder) (cut : Option Fault) : Builder :=
  builder.frames.foldl (fun b _ => b.close cut) builder

end Builder

/-! ### Documents -/

/-- The first document of a text. -/
structure Document where
  /-- The root, unless the text has no document or a fault in front of it. -/
  root : Option Node
  /-- The fault that cuts the document short. -/
  fault : Option Fault
  /-- The number of its events. -/
  size : Nat
  /-- Does anything follow the document? -/
  followed : Bool

namespace Document

/-- Is this the end of a document? -/
def isEnd (event : Event) : Bool :=
  event.kind == .documentEnd

/-- Is this the end of the stream? -/
def isStreamEnd (event : Event) : Bool :=
  event.kind == .streamEnd

/-- The first document of an event stream. -/
def ofEvents (stream : EventStream) : Document :=
  let own := stream.events.takeWhile (!isEnd ·)
  let behind := stream.events.drop (own.length + 1)
  let ended := own.length < stream.events.length
  let builder := own.foldl Builder.step {}
  let fault := builder.fault.or (if ended then none else stream.fault)
  { root := (builder.finish fault).root
    fault
    size := builder.size
    followed := ended && !behind.head?.any isStreamEnd }

/-- The first document of a text. -/
def ofText (text : List Char) : Document :=
  .ofEvents (.ofTokens (.ofText text))

/-- The node with the given anchor number: of several the one that begins last. -/
def anchored? (document : Document) (id : Nat) : Option Node := do
  let root ← document.root
  let (_, node) ← root.anchored.reverse.find? (·.1 == id)
  return node

end Document

end UnitCheck.Yaml
