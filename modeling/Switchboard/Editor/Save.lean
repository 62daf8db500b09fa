import Switchboard.Editor.Transition
import Switchboard.Flow.Validation
/-! # Saving from the editor

A save is checked, sent and answered. What is sent is a flow made of the state; the answer is the flow as
it is stored, or the reason why it is not. The state after the answer is built on the state when the flow
was sent.
-/
namespace Switchboard

namespace EditorState

variable {K : Type}

def numberToSave (s : EditorState K) (number : Value) : Outcome (Option Text) :=
  (Fault.unlessOversized (PhoneNumber.normalizeValue? (number.orElse (.ofText? s.selectedNumber)))).map
    Value.asText?

def title (s : EditorState K) : Outcome Text :=
  match s.flowName with
  | .str name => .ok (Text.trim name)
  | v => .error (.noPart v.kind "strip")

/-- Whether the number may be used: it is the owner's, or no numbers are known. -/
def mayUse (s : EditorState K) (number : Text) : Bool :=
  s.numbers.isEmpty || (ownedNumbers s.numbers).contains number

def currentId (s : EditorState K) : Option Text :=
  s.currentFlow.bind CallFlow.id

def rival? (s : EditorState K) (number : Text) : Option (CallFlow K) :=
  s.flows.find? fun f => f.phoneNumber == number && f.id != s.currentId

def checkNumber (s : EditorState K) (number : Text) (replace : Bool) :
    Outcome (Option EditorError) := do
  if !s.mayUse number then
    return some { code := .numberNotOwned, message := number ++ " is not one of your numbers" }
  if s.blocks.isEmpty then
    return some { code := .noBlocks, message := "Add at least one block before saving" }
  match (s.rival? number).filter fun _ => !replace with
  | some f =>
    return some { code := .numberInUse,
                  message := number ++ " already has the flow '" ++ f.name ++ "'" }
  | none =>
    let report ← Validation.validate s.blocks s.entryBlockId
    if report.ok then return none
    return some { code := .invalidGraph, message := report.summary, details := report.errors }

def checkSave (s : EditorState K) (number : Value) (replace : Bool) : Outcome (Option EditorError) := do
  if s.status = .saving then return some busy
  if (← s.title) = ("" : Text) then
    return some { code := .nameRequired, message := "Please enter a flow name" }
  match (← s.numberToSave number).filter (· != ("" : Text)) with
  | none => return some { code := .numberRequired, message := "Please select a phone number" }
  | some number => s.checkNumber number replace

def asFlow (s : EditorState K) (title owner number : Text) (recordingEnabled : Bool)
    (recordingDisclaimer : Option Text) : CallFlow K where
  id := s.currentId
  owner := owner
  phoneNumber := number
  name := title
  description := (s.currentFlow.map CallFlow.description).getD ""
  blocks := s.blocks
  entryBlockId := s.entryBlockId
  recordingEnabled := recordingEnabled
  recordingDisclaimer := recordingDisclaimer
  createdAt := s.currentFlow.bind CallFlow.createdAt

/-- The flow that the state is saved as; what is given for it has to fit. -/
def record (s : EditorState K) (owner number recordingEnabled : Value) : Outcome (CallFlow K) := do
  let title ← s.title
  let given : Entries := [("owner", owner), ("phone_number", number),
    ("recording_enabled", recordingEnabled), ("recording_disclaimer", s.recordingDisclaimer)]
  (s.asFlow title <$> Reading.field given "owner" Reading.text
    <*> Reading.field given "phone_number" CallFlow.readNumber
    <*> Reading.field given "recording_enabled" Reading.bool
    <*> Reading.field given "recording_disclaimer" (Reading.nullable Reading.text)).outcome

def withError (s : EditorState K) (error : EditorError) : EditorState K :=
  { s with lastError := some error }

end EditorState

structure SaveRequest (K : Type := Binary64) where
  snapshot : EditorState K
  record : CallFlow K
  warnings : List Finding
deriving Repr

structure SaveOutcome (K : Type := Binary64) where
  flow : Option (CallFlow K) := none
  error : Option EditorError := none
  warnings : List Finding := []
deriving Repr

namespace SaveOutcome

def ok {K : Type} (o : SaveOutcome K) : Bool :=
  o.error.isNone

end SaveOutcome

namespace SaveRequest

variable {K : Type}

def errorOf (fault : Fault) : EditorError :=
  match fault with
  | .conflict .. => { code := .numberInUse, message := fault.message }
  | _ => { code := .saveFailed, message := fault.message }

def stateAfter (request : SaveRequest K) : Outcome (CallFlow K) → EditorState K
  | .error fault => request.snapshot.withError (errorOf fault)
  | .ok saved => { request.snapshot with
      status := .editing
      currentFlow := some saved
      blocks := saved.blocks
      entryBlockId := saved.entryBlockId
      selectedNumber := some saved.phoneNumber
      recordingEnabled := .bool saved.recordingEnabled
      dirty := false
      lastError := none }

def outcome (request : SaveRequest K) : Outcome (CallFlow K) → SaveOutcome K
  | .error fault => { error := some (errorOf fault) }
  | .ok saved => { flow := some saved, warnings := request.warnings }

end SaveRequest

namespace EditorState

variable {K : Type}

/-- Sends the flow to be stored: the state while it is under way and what was sent, or the reason why it is
not sent. -/
def sendSave (s : EditorState K) (owner number recordingEnabled : Value) (replace : Bool) :
    Outcome (Except EditorError (SaveRequest K × EditorState K)) := do
  match ← s.checkSave number replace with
  | some error => return .error error
  | none =>
    let recording := if recordingEnabled.isNull then s.recordingEnabled else recordingEnabled
    let number ← s.numberToSave number
    let record ← s.record owner (.ofText? number) recording
    let report ← Validation.validate s.blocks s.entryBlockId
    return .ok ({ snapshot := s, record, warnings := report.warnings },
      { s with status := .saving, lastError := none })

def receiveFlows (s : EditorState K) : Outcome (List (CallFlow K)) → Bool × EditorState K
  | .ok flows => (true, { s with flows })
  | .error fault => (false, s.withError { code := .loadFailed, message := fault.message })

def keepError (e : Edit K) : Edit K :=
  match e.error with
  | some error => { e with state := e.state.withError error }
  | none => e

def receiveFlow (selected : Edit K) : Outcome (Option (CallFlow K)) → Edit K
  | .ok (some flow) => selected.state.loadFlow flow
  | .ok none => selected
  | .error fault => keepError (selected.state.refuse .loadFailed fault.message)

/-- The state after a flow has been removed: when it is the one being edited, its edits are unsaved. -/
def forget (s : EditorState K) (id : Value) : EditorState K :=
  if (s.currentId.any fun current => (Value.str current).alike id) then { s with currentFlow := none, dirty := true } else s

end EditorState
end Switchboard
