import Switchboard.Editor.Save
import Switchboard.Store.Argument
/-! # Editing sessions

A session is an editor together with the database that it loads from and saves to. The database may fail
in the middle of an operation; a failure becomes an error of the editor and changes nothing else.
-/
namespace Switchboard

/-- The texts with which operations of the database fail, where they do. -/
structure Outage where
  list : Option Text := none
  load : Option Text := none
  save : Option Text := none
  delete : Option Text := none
deriving DecidableEq, Repr

def Outage.orElse {α : Type} (failing : Option Text) (answer : Outcome α) : Outcome α :=
  match failing with
  | some text => .error (.reported text)
  | none => answer

theorem Outage.eq_ok_of_orElse {α : Type} {failing : Option Text} {answer : Outcome α} {a : α}
    (h : Outage.orElse failing answer = .ok a) : answer = .ok a := by
  cases failing with
  | none => exact h
  | some text => cases h

/-- An editor and its database. -/
structure Session where
  editor : EditorState := {}
  database : Store.Database := {}
deriving Repr

namespace Session

def apply (s : Session) (e : Edit) : Session :=
  { s with editor := (EditorState.keepError e).state }

def loadFlows (s : Session) (owner : Value) (outage : Outage) : Bool × Session :=
  let answer := Outage.orElse outage.list (s.database.flowsOf owner)
  let (ok, editor) := s.editor.receiveFlows answer
  (ok, { s with editor })

/-- Selects a number and edits the flow that is stored for it. -/
def openNumber (s : Session) (owner number : Value) (outage : Outage) : Outcome (Edit × Session) := do
  let selected ← s.editor.selectNumber number
  if selected.ok then
    let normal ← Fault.unlessOversized (PhoneNumber.normalizeValue? number)
    let e := EditorState.receiveFlow selected (Outage.orElse outage.load (s.database.flowOf owner normal))
    return (e, { s with editor := e.state })
  else return (selected, s.apply selected)

def store (database : Store.Database) (flow : CallFlow) (replace : Bool) (now : Text)
    (outage : Outage) : Outcome CallFlow × Store.Database :=
  match outage.save with
  | some text => (.error (.reported text), database)
  | none => database.saveFlow flow replace now

def saveFlow (s : Session) (owner number recordingEnabled : Value) (replace : Bool) (now : Text)
    (outage : Outage) : Outcome (SaveOutcome × Session) := do
  match ← s.editor.sendSave owner number recordingEnabled replace with
  | .error error => return ({ error := some error }, { s with editor := s.editor.withError error })
  | .ok (request, _) =>
    let (answer, database) := store s.database request.record replace now outage
    let after : Session := { editor := request.stateAfter answer, database }
    match answer with
    | .ok _ => return (request.outcome answer, (after.loadFlows owner outage).2)
    | .error _ => return (request.outcome answer, after)

def deleteFlow (s : Session) (id owner : Value) (outage : Outage) : Bool × Session :=
  match Outage.orElse outage.delete (s.database.removeFlow id owner) with
  | .error fault =>
    (false, { s with
      editor := s.editor.withError { code := .deleteFailed, message := fault.message } })
  | .ok (false, _) => (false, s)
  | .ok (true, database) =>
    let after : Session := { editor := s.editor.forget id, database }
    (true, (after.loadFlows owner outage).2)

end Session
end Switchboard
