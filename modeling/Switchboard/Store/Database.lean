import Switchboard.Store.CallLog
import Switchboard.Store.FlowTable
/-! # The database

The table of flows, the call log, and the supply of fresh identifiers. Either table may be out of reach;
then whatever asks for it fails and changes nothing.
-/
namespace Switchboard.Store

/-- What the service stores. -/
structure Database where
  flows : FlowTable := []
  calls : CallLog := []
  supply : Supply := ⟨0⟩
  hasFlows : Bool := true
  hasCalls : Bool := true
deriving Repr

namespace Database

def flows? (db : Database) : Outcome FlowTable :=
  if db.hasFlows then .ok db.flows else .error .unavailable

def calls? (db : Database) : Outcome CallLog :=
  if db.hasCalls then .ok db.calls else .error .unavailable

def saveFlow (db : Database) (flow : CallFlow) (replace : Bool) (now : Text) :
    Outcome CallFlow × Database :=
  if db.hasFlows then
    match db.flows.save flow replace now db.supply with
    | (.ok (saved, flows), supply) => (.ok saved, { db with flows, supply })
    | (.error fault, supply) => (.error fault, { db with supply })
  else
    (.error .unavailable,
      if (filled flow.id).isSome then db else { db with supply := db.supply.advance })

def deleteFlow (db : Database) (id : Text) (owner : Option Text) : Outcome (Bool × Database) := do
  let flows ← db.flows?
  let (found, flows) ← flows.delete id owner
  return (found, { db with flows })

def insertRow (db : Database) (entries : Entries) : Outcome Database := do
  let recording ← FlowRow.recordingFlag entries
  let flows ← db.flows?
  let row ← FlowRow.ofEntries entries recording
  let flows ← flows.insert row
  return { db with flows }

def startCall (db : Database) (call : NewCall) (now : String) : Outcome (CallRow × Database) := do
  let calls ← db.calls?
  let (row, calls) := calls.start call now
  return (row, { db with calls })

def progressCall (db : Database) (sid : String) (block : Option String) : Outcome Database := do
  let calls ← db.calls?
  return { db with calls := calls.progress sid block }

def updateCall (db : Database) (sid : String) (status duration : Value) (now : String) :
    Outcome (Bool × Database) := do
  let calls ← db.calls?
  let (known, calls) ← calls.update sid status duration now
  return (known, { db with calls })

end Database
end Switchboard.Store
