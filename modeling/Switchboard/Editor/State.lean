import Switchboard.Flow.CallFlow
import Switchboard.Flow.Finding
/-! # The state of the editor

An editor works on the blocks of one flow. It is idle, editing or saving; it knows the numbers its owner
may use and the flows that are stored, and it may be in the middle of connecting two blocks.
-/
namespace Switchboard

inductive EditorStatus where
  | idle
  | editing
  | saving
deriving DecidableEq, Repr

namespace EditorStatus

def all : List EditorStatus := [idle, editing, saving]

def name : EditorStatus → String
  | idle => "idle"
  | editing => "editing"
  | saving => "saving"

def read : Value → Reading EditorStatus :=
  Reading.oneOf (all.map name) fun s => all.find? fun e => e.name == s

end EditorStatus

inductive EditorErrorCode where
  | editorBusy
  | blockNotFound
  | duplicateBlockId
  | invalidUpdate
  | nameRequired
  | numberRequired
  | numberNotOwned
  | noBlocks
  | numberInUse
  | invalidGraph
  | saveFailed
  | loadFailed
  | deleteFailed
deriving DecidableEq, Repr

namespace EditorErrorCode

def all : List EditorErrorCode :=
  [editorBusy, blockNotFound, duplicateBlockId, invalidUpdate, nameRequired, numberRequired,
    numberNotOwned, noBlocks, numberInUse, invalidGraph, saveFailed, loadFailed, deleteFailed]

def name : EditorErrorCode → String
  | editorBusy => "editor_busy"
  | blockNotFound => "block_not_found"
  | duplicateBlockId => "duplicate_block_id"
  | invalidUpdate => "invalid_update"
  | nameRequired => "name_required"
  | numberRequired => "number_required"
  | numberNotOwned => "number_not_owned"
  | noBlocks => "no_blocks"
  | numberInUse => "number_in_use"
  | invalidGraph => "invalid_graph"
  | saveFailed => "save_failed"
  | loadFailed => "load_failed"
  | deleteFailed => "delete_failed"

def read : Value → Reading EditorErrorCode :=
  Reading.oneOf (all.map name) fun s => all.find? fun c => c.name == s

end EditorErrorCode

structure EditorError where
  code : EditorErrorCode
  message : Text
  details : List Finding := []
deriving DecidableEq, Repr

namespace EditorError

def readEntries (entries : Entries) : Reading EditorError :=
  EditorError.mk <$> Reading.field entries "code" EditorErrorCode.read
    <*> Reading.field entries "message" Reading.text
    <*> Reading.fieldOr entries "details" [] (Reading.list Finding.read)

def read : Value → Reading EditorError :=
  Reading.record "EditorError" readEntries

def toValue (e : EditorError) : Value :=
  .obj [("code", .str e.code.name), ("message", .str e.message),
    ("details", .arr (e.details.map Finding.toValue))]

end EditorError

/-- A number that an owner may know of. -/
structure NumberOption where
  phoneNumber : Text
  owned : Bool := true
deriving DecidableEq, Repr

namespace NumberOption

def readEntries (entries : Entries) : Reading NumberOption :=
  NumberOption.mk <$> Reading.field entries "phone_number" CallFlow.readNumber
    <*> Reading.fieldOr entries "owned" true Reading.bool

def read : Value → Reading NumberOption :=
  Reading.record "PhoneNumberOption" readEntries

def toValue (n : NumberOption) : Value :=
  .obj [("phone_number", .str n.phoneNumber), ("owned", .bool n.owned)]

end NumberOption

/-- The state of an editor. The title and what is said about recording are kept as they were given; they
are examined when the flow is saved. -/
structure EditorState (K : Type := Binary64) where
  status : EditorStatus := .idle
  flowName : Value := .str ""
  selectedNumber : Option Text := none
  numbers : List NumberOption := []
  blocks : List (Block K) := []
  entryBlockId : Option Text := none
  selectedBlockId : Option Text := none
  connectingFrom : Option Text := none
  connectionMode : Bool := false
  flows : List (CallFlow K) := []
  currentFlow : Option (CallFlow K) := none
  recordingEnabled : Value := .bool true
  recordingDisclaimer : Value := .null
  dirty : Bool := false
  lastError : Option EditorError := none
deriving Repr

namespace EditorState

def readEntries (entries : Entries) : Reading EditorState :=
  let text? (name : Text) := Reading.fieldOr entries name none (Reading.nullable Reading.text)
  let bool (name : Text) (absent : Bool) := Reading.fieldOr entries name absent Reading.bool
  EditorState.mk <$> Reading.fieldOr entries "status" .idle EditorStatus.read
    <*> (Value.str <$> Reading.fieldOr entries "flow_name" "" Reading.text)
    <*> text? "selected_number"
    <*> Reading.fieldOr entries "numbers" [] (Reading.list NumberOption.read)
    <*> Reading.fieldOr entries "blocks" [] (Reading.list Block.read)
    <*> text? "entry_block_id" <*> text? "selected_block_id" <*> text? "connecting_from"
    <*> bool "connection_mode" false
    <*> Reading.fieldOr entries "flows" [] (Reading.list CallFlow.read)
    <*> Reading.fieldOr entries "current_flow" none (Reading.nullable CallFlow.read)
    <*> (Value.bool <$> bool "recording_enabled" true)
    <*> (Value.ofText? <$> text? "recording_disclaimer")
    <*> bool "dirty" false
    <*> Reading.fieldOr entries "last_error" none (Reading.nullable EditorError.read)

def read : Value → Reading EditorState :=
  Reading.record "EditorState" readEntries

def toValue (s : EditorState) : Value :=
  .obj [("status", .str s.status.name), ("flow_name", s.flowName),
    ("selected_number", .ofText? s.selectedNumber),
    ("numbers", .arr (s.numbers.map NumberOption.toValue)),
    ("blocks", .arr (s.blocks.map Block.toValue)), ("entry_block_id", .ofText? s.entryBlockId),
    ("selected_block_id", .ofText? s.selectedBlockId), ("connecting_from", .ofText? s.connectingFrom),
    ("connection_mode", .bool s.connectionMode), ("flows", .arr (s.flows.map CallFlow.toValue)),
    ("current_flow", (s.currentFlow.map CallFlow.toValue).getD .null),
    ("recording_enabled", s.recordingEnabled),
    ("recording_disclaimer", s.recordingDisclaimer), ("dirty", .bool s.dirty),
    ("last_error", (s.lastError.map EditorError.toValue).getD .null)]

variable {K : Type}

def block? (s : EditorState K) (id : Text) : Option (Block K) :=
  s.blocks.find? fun b => b.id == id

def blockAt? (s : EditorState K) (id : Value) : Option (Block K) :=
  id.asText?.bind s.block?

def selectedBlock? (s : EditorState K) : Option (Block K) :=
  s.selectedBlockId.bind s.block?

def ownedNumbers (numbers : List NumberOption) : List Text :=
  (numbers.filter NumberOption.owned).map NumberOption.phoneNumber

end EditorState
end Switchboard
