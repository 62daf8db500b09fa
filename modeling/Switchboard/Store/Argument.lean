import Switchboard.Store.Database
/-! # Requests with free-form arguments

The operations of the database for arguments of any kind. A column of texts is compared with the text that
it would hold of the argument, and null equals nothing. What cannot be decided without the tables is decided
after they have been found in reach.
-/
namespace Switchboard.Store.Database

/-- The text of a value, unless it is null. -/
def nullOr : Value → Outcome (Option Text)
  | .null => .ok none
  | v => v.written.map some

def flowOf (db : Database) (owner number : Value) : Outcome (Option CallFlow) := do
  let number ← nullOr number
  let table ← db.flows?
  let owner ← columnText 1 owner
  match owner, number with
  | some owner, some number => table.load owner number
  | _, _ => return none

def flowWithId (db : Database) (id : Value) : Outcome (Option CallFlow) := do
  let table ← db.flows?
  match ← columnText 1 id with
  | some id => table.get id
  | none => return none

def requireFlow (db : Database) (id : Value) : Outcome CallFlow := do
  match ← db.flowWithId id with
  | some flow => return flow
  | none => throw (.flowNotFound (← id.written))

def flowGoverning (db : Database) (number : Value) : Outcome (Option CallFlow) := do
  let number ← nullOr number
  let table ← db.flows?
  match number with
  | some number => table.forNumber number
  | none => return none

def flowsOf (db : Database) (owner : Value) : Outcome (List CallFlow) := do
  let table ← db.flows?
  match owner.truthy? with
  | none => table.list none
  | some owner => match ← columnText 1 owner with
    | some owner => table.list (some owner)
    | none => return []

def removeFlow (db : Database) (id owner : Value) : Outcome (Bool × Database) := do
  let _ ← db.flows?
  let idText ← columnText 1 id
  let ownerText ← columnText (if isParameter id then 2 else 1) (owner.orElse .null)
  match idText, owner.truthy, ownerText with
  | some id, true, some owner => db.deleteFlow id (some owner)
  | some id, false, _ => db.deleteFlow id none
  | _, _, _ => return (false, db)

def entriesOf : Value → Outcome Entries
  | .obj entries => .ok entries
  | v => .error (.notKeyed v.kind)

def addRow (db : Database) (row : Value) : Outcome Database := do
  let entries ← entriesOf row
  db.insertRow entries

def beginCall (db : Database) (entry : Value) (now : String) : Outcome (CallRow × Database) := do
  let entries ← entriesOf entry
  let name ← NewCall.nameOf entries
  let number ← NewCall.numberOf entries
  let _ ← db.calls?
  let call ← NewCall.ofEntries name number entries
  db.startCall call now

def moveCall (db : Database) (sid block : Value) : Outcome Database := do
  let _ ← db.calls?
  let blockText ← columnText 1 block
  match ← columnText 2 sid with
  | some sid => db.progressCall sid blockText
  | none => return db

def reportCall (db : Database) (sid status duration : Value) (now : String) :
    Outcome (Bool × Database) := do
  let _ ← db.calls?
  match ← columnText 1 sid with
  | some sid => db.updateCall sid status duration now
  | none => return (false, db)

def callsOf (db : Database) (owner number limit : Value) : Outcome (List CallRow) := do
  let number ← number.truthy?.mapM Value.written
  let limit ← match limit with
    | .null => pure (-1)
    | v => v.toInteger
  let calls ← db.calls?
  let owner ← columnText 1 (owner.orElse .null)
  calls.query (owner.map Text.plain) number limit

end Switchboard.Store.Database
