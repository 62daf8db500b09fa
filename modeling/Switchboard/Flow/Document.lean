import Switchboard.Flow.CallFlow
import Switchboard.Flow.Layout
import Switchboard.Json.Reader
/-! # Stored flows

A flow is stored as a document of one of three shapes: a list of blocks, alone or in an object; an object
of nodes by id with a start; or a greeting with a menu. Reading turns each of them into blocks. An item of
a block list that is no block is left out, and a document of no known shape has no blocks.
-/
namespace Switchboard

inductive Shape where
  | blocks
  | nodeMap
  | greetingMenu
  | empty
deriving DecidableEq, Repr

def Shape.name : Shape → String
  | .blocks => "blocks"
  | .nodeMap => "node_map"
  | .greetingMenu => "legacy"
  | .empty => "empty"

/-- What a stored flow holds. -/
structure StoredGraph where
  blocks : List Block := []
  entryBlockId : Option Text := none
  shape : Shape
deriving Repr

namespace StoredGraph

def nothing : StoredGraph := { shape := .empty }

def greetingId : String := "legacy-greeting"

def menuId : String := "legacy-menu"

def voicemailPrompt : String := "Please leave a message after the tone."

def readBlocks (items : List Value) : List Block :=
  items.filterMap fun item => (Block.read item).result?

def part (v : Value) (name : Text) : Outcome Value :=
  match v with
  | .obj entries => .ok (Entries.get entries name)
  | v => .error (.noPart v.kind "get")

/-- The option that an item of a greeting's menu stands for; its target is a label, not a block. An item
that is no object or has no digits stands for none. -/
def greetingOption (item : Value) : Outcome (Option Value) :=
  match item with
  | .obj entries =>
    match Entries.get entries "digit" with
    | .null | .str (.plain "") => .ok none
    | digit => digit.written.map fun digit => some (.obj [("digit", .str digit),
        ("label", (Entries.get entries "label").orElse (Entries.get entries "target")),
        ("target", .null)])
  | _ => .ok none

def greetingOptions (raw : Value) : Outcome (List Value) := do
  let items ← Block.optionItems [("options", raw)]
  let options ← items.mapM greetingOption
  return options.filterMap fun o => o

def greetingBlock (greeting : Value) (next : List Text) : Block where
  id := greetingId
  type := .say
  config := [("text", greeting)]
  position := Layout.gridPosition 0
  next := next

def menuBlock (menu : Value) (row : Int) : Outcome Block := do
  let prompt ← part menu "prompt"
  let options ← greetingOptions (← part menu "options")
  return {
    id := menuId
    type := .menu
    config := [("prompt", prompt.orElse (.str "")), ("options", .arr options)]
    position := Layout.gridPosition (Layout.columns * row)
    next := [] }

def ofGreeting (entries : Entries) : Outcome StoredGraph := do
  let greeting := entries.get "greeting"
  let menu := entries.get "menu"
  let greets := greeting.truthy
  let menuBlocks ← if menu.truthy then do
      let b ← menuBlock menu (if greets then 1 else 0)
      pure [b]
    else pure []
  let greetingBlocks :=
    if greets then [greetingBlock greeting (menuBlocks.map Block.id)] else []
  let blocks := greetingBlocks ++ menuBlocks
  return { blocks, entryBlockId := blocks.head?.map Block.id, shape := .greetingMenu }

/-- A block from the parts of a node; the id and the following blocks have to be texts. -/
def nodeBlock (id : Value) (type : BlockType) (config : Entries) (next : List Value) : Outcome Block :=
  (Block.mk <$> Reading.under (.field "id") (Reading.text id)
    <*> pure type <*> pure config <*> pure ⟨.ofInt 0, .ofInt 0⟩
    <*> Reading.under (.field "next") (Reading.items Reading.text 0 next)).outcome

def nodeOptions (raw : Value) : Outcome (List Value) :=
  match raw.orElse (.obj []) with
  | .obj entries => .ok (entries.map fun entry =>
      .obj [("digit", .str entry.1), ("label", .null), ("target", entry.2)])
  | v => v.items

def nodeTargets (options : List Value) : Outcome (List Value) := do
  let targets ← options.mapM fun option => part option "target"
  return Value.distinct (targets.filter Value.truthy)

def menuExtras (node : Entries) : Entries :=
  let attempts := node.get "max_attempts"
  let onFail := node.get "on_fail"
  (if attempts.isNull then ([] : Entries) else [("max_attempts", attempts)]) ++
    (if onFail.truthy then ([("on_fail", onFail)] : Entries) else [])

def menuNode (id : Value) (node : Entries) : Outcome Block := do
  let options ← nodeOptions (node.get "options")
  let targets ← nodeTargets options
  nodeBlock id .menu
    (("prompt", (node.get "prompt").orElse (.str "")) :: ("options", .arr options) :: menuExtras node)
    targets

/-- The block of a node. A node of a type of its own is read as a block, and left out if it is none. -/
def ofNode (id : Value) (node : Entries) : Outcome (Option Block) :=
  match (node.get "type").asText?.bind Text.plain? with
  | some "say" => some <$> nodeBlock id .say [("text", (node.get "message").orElse (.str ""))]
      (node.get "next").truthy?.toList
  | some "menu" => some <$> menuNode id node
  | some "gather" => some <$> menuNode id node
  | some "forward" => some <$> nodeBlock id .forward [("to", (node.get "to").orElse (.str ""))] []
  | some "voicemail" => some <$> nodeBlock id .hangup
      [("voicemail", .bool true), ("message", .str voicemailPrompt)] []
  | some "hangup" => some <$> nodeBlock id .hangup [] []
  | _ => .ok (Block.readEntries (Entries.put "id" id node)).result?

/-- The nodes with one more: a node with an equal id is replaced and keeps its place and id. -/
def putNode (id node : Value) : List (Value × Value) → List (Value × Value)
  | [] => [(id, node)]
  | other :: rest =>
    if other.1.alike id then (other.1, node) :: rest else other :: putNode id node rest

def nodesOfList (items : List Value) : Outcome (List (Value × Value)) := do
  let nodes := items.filter fun item =>
    match item with
    | .obj entries => (Entries.get entries "id").truthy
    | _ => false
  let keyed ← nodes.mapM fun node => do
    let id ← part node "id"
    let _ ← id.key?
    return (id, node)
  return keyed.foldl (fun nodes node => putNode node.1 node.2 nodes) []

def nodesOf (raw : Value) : Outcome (List (Value × Value)) :=
  match raw.orElse (.obj []) with
  | .obj entries => .ok (entries.map fun entry => (.str entry.1, entry.2))
  | .arr items => nodesOfList items
  | v => .error (.noPart v.kind "items")

/-- The blocks of nodes, each in the cell of its index; what is no object is left out. -/
def nodeBlocks : Nat → List (Value × Value) → Outcome (List Block)
  | _, [] => .ok []
  | index, (id, .obj node) :: rest => do
    let b ← ofNode id node
    let placed := b.map fun b => { b with position := Layout.gridPosition (index : Int) }
    let others ← nodeBlocks (index + 1) rest
    return placed.toList ++ others
  | index, _ :: rest => nodeBlocks (index + 1) rest

def ofNodeMap (entries : Entries) : Outcome StoredGraph := do
  let nodes ← nodesOf (entries.get "nodes")
  let blocks ← nodeBlocks 0 nodes
  let start := (entries.get "start").asText?
  return { blocks, shape := .nodeMap
           entryBlockId := start.filter fun id => blocks.any fun b => b.id == id }

def ofBlockObject (items : List Value) (entries : Entries) : Outcome StoredGraph := do
  let entry ← (Reading.under (.field "entry_block_id")
    (Reading.nullable Reading.text (entries.get "entry_block_id"))).outcome
  return { blocks := readBlocks items, entryBlockId := entry, shape := .blocks }

def ofEntries (entries : Entries) : Outcome StoredGraph :=
  match entries.get "blocks" with
  | .arr items => ofBlockObject items entries
  | _ =>
    if entries.has "nodes" then ofNodeMap entries
    else if entries.has "greeting" || entries.has "menu" then ofGreeting entries
    else .ok nothing

def ofDocument : Value → Outcome StoredGraph
  | .arr items => .ok { blocks := readBlocks items, shape := .blocks }
  | .obj entries => ofEntries entries
  | _ => .ok nothing

def ofDocument? : Option Value → Outcome StoredGraph
  | some document => ofDocument document
  | none => .ok nothing

/-- The blocks of what is stored: a document, or its text. -/
def decode : Value → Outcome StoredGraph
  | .str t => ofDocument? (Json.read? t)
  | document => ofDocument document

def decodeBytes (bytes : List UInt8) : Outcome StoredGraph :=
  ofDocument? (Json.readBytes? bytes)

end StoredGraph
end Switchboard
