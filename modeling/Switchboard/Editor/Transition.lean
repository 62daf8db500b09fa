import Switchboard.Editor.Edge
import Switchboard.Editor.State
import Switchboard.Flow.Layout
import Switchboard.Text.Part
/-! # Transitions of the editor

A transition takes a state to the next one and tells what has happened, or refuses and leaves the state as
it is. While a save is under way everything that edits the flow is refused. Arguments may be values of any
kind. The only faults are options of a menu that cannot be read and updates that are no object.
-/
namespace Switchboard

inductive EditorEvent where
  | editingStarted
  | nameChanged
  | numbersLoaded
  | numberSelected
  | recordingChanged
  | blocksReplaced
  | blockAdded
  | blockAddedAndConnected
  | blockUpdated
  | blockDeleted
  | blockSelected
  | connectionStarted
  | connectionCancelled
  | alreadyConnected
  | blocksConnected
  | blocksDisconnected
  | flowLoaded
  | editorReset
deriving DecidableEq, Repr

def EditorEvent.name : EditorEvent → String
  | editingStarted => "editing_started"
  | nameChanged => "name_changed"
  | numbersLoaded => "numbers_loaded"
  | numberSelected => "number_selected"
  | recordingChanged => "recording_changed"
  | blocksReplaced => "blocks_replaced"
  | blockAdded => "block_added"
  | blockAddedAndConnected => "block_added_and_connected"
  | blockUpdated => "block_updated"
  | blockDeleted => "block_deleted"
  | blockSelected => "block_selected"
  | connectionStarted => "connection_started"
  | connectionCancelled => "connection_cancelled"
  | alreadyConnected => "already_connected"
  | blocksConnected => "blocks_connected"
  | blocksDisconnected => "blocks_disconnected"
  | flowLoaded => "flow_loaded"
  | editorReset => "editor_reset"

structure Edit (K : Type := Binary64) where
  state : EditorState K
  event : Option EditorEvent := none
  error : Option EditorError := none
deriving Repr

def Edit.ok {K : Type} (e : Edit K) : Bool :=
  e.error.isNone

namespace EditorState

variable {K : Type}

def refuse (s : EditorState K) (code : EditorErrorCode) (message : Text) : Edit K :=
  { state := s, error := some { code, message } }

def edited (s : EditorState K) (event : EditorEvent) : Edit K :=
  { state := { s with dirty := true, status := .editing, lastError := none }, event := some event }

def busy : EditorError := { code := .editorBusy, message := "A save is in progress" }

def unlessSaving (s : EditorState K) (e : Edit K) : Edit K :=
  if s.status = .saving then { state := s, error := some busy } else e

def unlessSaving? (s : EditorState K) (e : Outcome (Edit K)) : Outcome (Edit K) :=
  if s.status = .saving then .ok { state := s, error := some busy } else e

def notFound (s : EditorState K) (id : Value) : Outcome (Edit K) := do
  return s.refuse .blockNotFound ("Block '" ++ (← id.written) ++ "' not found")

def startEditing (s : EditorState K) : Edit K :=
  { state := { s with status := .editing, lastError := none }, event := some .editingStarted }

def setFlowName (s : EditorState K) (name : Value) : Edit K :=
  s.unlessSaving (edited { s with flowName := name } .nameChanged)

/-- Takes the numbers that are known. A number that is not the owner's gives way to the first that is. -/
def setNumbers (s : EditorState K) (numbers : List NumberOption) : Edit K :=
  let owned := ownedNumbers numbers
  let selected := (s.selectedNumber.filter owned.contains).or owned.head?
  { state := { s with numbers, selectedNumber := selected }, event := some .numbersLoaded }

def selectNumber (s : EditorState K) (number : Value) : Outcome (Edit K) :=
  s.unlessSaving? do
    let normal ← Fault.unlessOversized (PhoneNumber.normalizeValue? number)
    return edited { s with selectedNumber := normal.asText? } .numberSelected

/-- Sets whether calls are recorded and, if one is given, what callers are told. -/
def setRecording (s : EditorState K) (enabled disclaimer : Value) : Edit K :=
  s.unlessSaving (edited { s with
    recordingEnabled := enabled
    recordingDisclaimer := if disclaimer.isNull then s.recordingDisclaimer else disclaimer }
    .recordingChanged)

def among (blocks : List (Block K)) (id : Option Text) : Option Text :=
  id.filter fun id => blocks.any fun b => b.id == id

/-- Replaces the blocks. What was selected stays selected if it is still there. -/
def setBlocks (s : EditorState K) (blocks : List (Block K)) : Edit K :=
  s.unlessSaving (edited { s with
    blocks
    selectedBlockId := among blocks s.selectedBlockId
    connectingFrom := among blocks s.connectingFrom
    entryBlockId := among blocks s.entryBlockId } .blocksReplaced)

def source? (s : EditorState K) : Option (Block K) :=
  (s.connectingFrom.filter (· != ("" : Text))).bind s.block?

/-- Adds a block in the first free cell, or below the block that a connection has been begun from and
connected with it. -/
def placeBlock [Coordinate K] (s : EditorState K) (b : Block K) : Outcome (Edit K) :=
  match s.source? with
  | some source =>
    match Layout.positionBelow source s.blocks with
    | none => .error .endless
    | some position => do
      let placed := { b with position }
      let blocks ← Edge.changeAt s.blocks source.id fun b => Edge.add b placed.id none
      return edited { s with
        blocks := blocks ++ [placed]
        connectingFrom := none
        connectionMode := false } .blockAddedAndConnected
  | none =>
    let placed := { b with position := Layout.nextFreePosition s.blocks }
    .ok (edited { s with blocks := s.blocks ++ [placed] } .blockAdded)

def addBlock [Coordinate K] (s : EditorState K) (b : Block K) : Outcome (Edit K) :=
  s.unlessSaving? <|
    if (s.block? b.id).isSome then
      .ok (s.refuse .duplicateBlockId ("Block '" ++ b.id ++ "' already exists"))
    else s.placeBlock b

/-- A configuration with new settings: those of an object are added, anything else replaces it. -/
def updatedConfig (config : Entries) : Value → Reading Entries
  | .obj updates => .done (config.putAll updates)
  | v => Block.readConfig v

def updatedBlock (b : Block) (updates : Entries) : Reading Block :=
  Block.mk b.id <$> Reading.fieldOr updates "type" b.type BlockType.read
    <*> Reading.fieldOr updates "config" b.config (updatedConfig b.config)
    <*> Reading.fieldOr updates "position" b.position Position.read
    <*> Reading.fieldOr updates "next" b.next Block.readNext

def firstMessage (issues : List Issue) : String :=
  (issues.head?.map fun i => i.problem.message).getD ""

def changesId (updates : Entries) (id : Text) : Bool :=
  match updates.get? "id" with
  | some v => !v.alike (.str id)
  | none => false

def updatesOf : Value → Outcome Entries
  | .obj updates => .ok updates
  | .str t => .error (if Text.holds "id" t then .notKeyed .str else .noPart .str "items")
  | .arr items => .error (if items.any (·.alike (.str "id")) then .notKeyed .arr else .noPart .arr "items")
  | v => .error (.notIterable v.kind)

def applyUpdates (s : EditorState) (b : Block) (updates : Entries) : Edit :=
  if changesId updates b.id then s.refuse .invalidUpdate "Block ids cannot be changed"
  else
    match updatedBlock b updates with
    | .refused issues =>
      s.refuse .invalidUpdate ("Invalid update for '" ++ b.id ++ "': " ++ firstMessage issues)
    | .done updated =>
      edited { s with blocks := s.blocks.map fun old => if old.id = b.id then updated else old }
        .blockUpdated

def updateBlock (s : EditorState) (id updates : Value) : Outcome Edit :=
  s.unlessSaving? <|
    match s.blockAt? id with
    | none => s.notFound id
    | some b => (updatesOf updates).map (s.applyUpdates b)

def otherThan (gone : Text) (id : Option Text) : Option Text :=
  id.filter (· != gone)

/-- The outcome of removing a block and every edge to it. -/
def withoutBlock (s : EditorState K) (id : Text) : Outcome (Edit K) := do
  let blocks ← (s.blocks.filter fun b => b.id != id).mapM fun b => Edge.strip b (.str id)
  return edited { s with
    blocks
    selectedBlockId := otherThan id s.selectedBlockId
    connectingFrom := otherThan id s.connectingFrom
    connectionMode := s.connectionMode && s.connectingFrom != some id
    entryBlockId := otherThan id s.entryBlockId } .blockDeleted

def deleteBlock (s : EditorState K) (id : Value) : Outcome (Edit K) :=
  s.unlessSaving? <|
    match s.blockAt? id with
    | none => s.notFound id
    | some b => s.withoutBlock b.id

def selectBlock (s : EditorState K) (id : Value) : Outcome (Edit K) :=
  if id.isNull then .ok { state := { s with selectedBlockId := none }, event := some .blockSelected }
  else
    match s.blockAt? id with
    | none => s.notFound id
    | some b => .ok { state := { s with selectedBlockId := some b.id }, event := some .blockSelected }

def beginConnection (s : EditorState K) (id : Value) : Outcome (Edit K) :=
  match s.blockAt? id with
  | none => s.notFound id
  | some b => .ok { state := { s with connectingFrom := some b.id, connectionMode := true }
                    event := some .connectionStarted }

def unconnecting (s : EditorState K) : EditorState K :=
  { s with connectingFrom := none, connectionMode := false }

def cancelConnection (s : EditorState K) : Edit K :=
  { state := s.unconnecting, event := some .connectionCancelled }

def withEdge (s : EditorState K) (source : Block K) (target : Text) (digit : Value) :
    Outcome (Edit K) :=
  if source.next.contains target ∧ digit.isNull = true then
    .ok { state := s.unconnecting, event := some .alreadyConnected }
  else do
    let blocks ← Edge.changeAt s.blocks source.id fun b => Edge.addAt b target digit
    return edited { s.unconnecting with blocks } .blocksConnected

/-- Connects two blocks, on a menu by the text of the given digits. -/
def connectBlocks (s : EditorState K) (source target digit : Value) : Outcome (Edit K) :=
  s.unlessSaving? <|
    match s.blockAt? source, s.blockAt? target with
    | none, _ => s.notFound source
    | some _, none => s.notFound target
    | some b, some t => s.withEdge b t.id digit

def disconnectBlocks (s : EditorState K) (source target : Value) : Outcome (Edit K) :=
  s.unlessSaving? <|
    match s.blockAt? source with
    | none => .ok { state := s }
    | some b => do
      let edges ← b.edges
      if edges.any (·.alike target) then
        let blocks ← Edge.changeAt s.blocks b.id fun b => Edge.strip b target
        return edited { s with blocks } .blocksDisconnected
      else return { state := s }

def loadFlow (s : EditorState K) (flow : CallFlow K) : Edit K where
  state := { s with
    status := .editing
    flowName := .str flow.name
    selectedNumber := some flow.phoneNumber
    blocks := flow.blocks
    entryBlockId := flow.entryBlockId
    recordingEnabled := .bool flow.recordingEnabled
    recordingDisclaimer := .ofText? flow.recordingDisclaimer
    currentFlow := some flow
    selectedBlockId := none
    connectingFrom := none
    connectionMode := false
    dirty := false
    lastError := none }
  event := some .flowLoaded

/-- Empties the editor; the stored flows and the numbers stay known. -/
def reset (s : EditorState K) : Edit K :=
  { state := { flows := s.flows, numbers := s.numbers }, event := some .editorReset }

end EditorState
end Switchboard
