import Switchboard.Flow.Document
import Switchboard.Identifier
import Switchboard.Store.Cell
import Switchboard.Store.Order
import Switchboard.Value.Written
/-! # The table of flows

The table holds one row for each owner and number, and every row has an id of its own. A row keeps the
stored document of its flow, in whatever shape it was stored. Saving a flow overwrites the row of its
owner and number or adds one; a flow that is known under another number leaves it, and an id that belongs
to another owner is not used. What fails leaves the table as it was.
-/
namespace Switchboard.Store

/-- A row of the table. -/
structure FlowRow where
  id : Text
  owner : Text
  phoneNumber : Text
  name : Text
  description : Option Text := none
  status : Option Text := none
  /-- The stored document; nothing if what is stored is no document. -/
  document : Option Value
  entryBlockId : Option Text := none
  recordingEnabled : Bool
  recordingDisclaimer : Option Text := none
  createdAt : Option Text := none
  updatedAt : Option Text := none
deriving Repr

abbrev FlowTable := List FlowRow

namespace FlowRow

def toFlow (row : FlowRow) : Outcome CallFlow := do
  let stored ← StoredGraph.ofDocument? row.document
  return {
    id := some row.id
    owner := row.owner
    phoneNumber := PhoneNumber.normalize row.phoneNumber
    name := if row.name = "" then "Untitled Flow" else row.name
    description := row.description.getD ""
    status := (filled row.status).getD "active"
    blocks := stored.blocks
    entryBlockId := (filled row.entryBlockId).or stored.entryBlockId
    recordingEnabled := row.recordingEnabled
    recordingDisclaimer := row.recordingDisclaimer
    createdAt := row.createdAt
    updatedAt := row.updatedAt }

def ofFlow (flow : CallFlow) (id createdAt now : Text) : FlowRow where
  id := id
  owner := flow.owner
  phoneNumber := flow.phoneNumber
  name := if flow.name = "" then "Untitled Flow" else flow.name
  description := some flow.description
  status := some (if flow.status = "" then "active" else flow.status)
  document := some flow.document.reread
  entryBlockId := flow.entryBlockId
  recordingEnabled := flow.recordingEnabled
  recordingDisclaimer := flow.recordingDisclaimer
  createdAt := some createdAt
  updatedAt := some now

def texts (row : FlowRow) : List Text :=
  [row.id, row.owner, row.phoneNumber, row.name] ++ row.description.toList ++ row.status.toList ++
    row.entryBlockId.toList ++ row.recordingDisclaimer.toList ++ row.createdAt.toList ++ row.updatedAt.toList

/-- The row with the contents of another; it keeps its id, owner, number and first time. -/
def overwrite (row new : FlowRow) : FlowRow :=
  { new with id := row.id, owner := row.owner, phoneNumber := row.phoneNumber, createdAt := row.createdAt }

def governs (row : FlowRow) (owner number : Text) : Bool :=
  row.owner == owner && row.phoneNumber == number

def columns : List String :=
  ["id", "owner", "phone_number", "name", "description", "status", "flow_json", "entry_block_id",
    "recording_enabled", "recording_disclaimer", "created_at", "updated_at"]

def qualified (column : String) : String :=
  "call_flows." ++ column

def required {α : Type} (column : String) : Option α → Outcome α
  | some a => .ok a
  | none => .error (.emptyColumn (qualified column))

def recordingFlag (entries : Entries) : Outcome (Option Bool) :=
  match entries.find? fun entry => !(columns.map Text.plain).contains entry.1 with
  | some entry => .error (.unknownColumn entry.1)
  | none => columnFlag (entries.get "recording_enabled")

def ofEntries (entries : Entries) (recording : Option Bool) : Outcome FlowRow := do
  let text (name : String) : Outcome (Option Text) := do
    return (← columnText (columns.idxOf name + 1) (entries.get name)).map Text.plain
  let id ← text "id"
  let owner ← text "owner"
  let phoneNumber ← text "phone_number"
  let name ← text "name"
  let description ← text "description"
  let status ← text "status"
  let document ← text "flow_json"
  let entryBlockId ← text "entry_block_id"
  let recordingDisclaimer ← text "recording_disclaimer"
  let createdAt ← text "created_at"
  let updatedAt ← text "updated_at"
  return {
    id := ← required "id" id
    owner := ← required "owner" owner
    phoneNumber := ← required "phone_number" phoneNumber
    name := ← required "name" name
    description, status
    document := Json.read? (← required "flow_json" document)
    entryBlockId
    recordingEnabled := ← required "recording_enabled" recording
    recordingDisclaimer, createdAt, updatedAt }

end FlowRow

namespace FlowTable

def row? (table : FlowTable) (id : Text) : Option FlowRow :=
  table.find? fun row => row.id == id

def rowFor? (table : FlowTable) (owner number : Text) : Option FlowRow :=
  table.find? fun row => row.governs owner number

def insert (table : FlowTable) (row : FlowRow) : Outcome FlowTable :=
  if (rowFor? table row.owner row.phoneNumber).isSome then
    .error (.repeatedColumns (["owner", "phone_number"].map FlowRow.qualified))
  else if (row? table row.id).isSome then .error (.repeatedColumns [FlowRow.qualified "id"])
  else .ok (table ++ [row])

/-- Overwrites the row of the owner and number, or adds the row. Without `replace` a row is only
overwritten when it has the same id. -/
def upsert (table : FlowTable) (row : FlowRow) (replace : Bool) : Outcome FlowTable :=
  if (rowFor? table row.owner row.phoneNumber).isSome then
    .ok (table.map fun old =>
      if old.governs row.owner row.phoneNumber && (replace || old.id == row.id) then old.overwrite row
      else old)
  else insert table row

/-- The id under which a flow is saved: its own, unless it has none or the id belongs to another owner. -/
def ownId? (table : FlowTable) (flow : CallFlow) : Option Text :=
  (filled flow.id).filter fun id => (row? table id).all fun row => row.owner == flow.owner

/-- The table without the row that the flow leaves when it goes to another number. -/
def retire (table : FlowTable) (flow : CallFlow) (id : Text) : FlowTable :=
  table.filter fun row => !(row.id == id && row.owner == flow.owner && row.phoneNumber != flow.phoneNumber)

def storable (flow : CallFlow) (row : FlowRow) : Outcome Unit := do
  bound [row.id]
  if !flow.document.isWritable then throw .oversized
  bound row.texts

def saveAs (table : FlowTable) (flow : CallFlow) (replace : Bool) (now id : Text) (known : Bool) :
    Outcome (CallFlow × FlowTable) := do
  let createdAt := ((if known then filled flow.createdAt else none).getD now)
  let kept := if known then retire table flow id else table
  let new := FlowRow.ofFlow flow id createdAt now
  storable flow new
  let table ← upsert kept new replace
  match rowFor? table flow.owner flow.phoneNumber with
  | none => throw .unavailable
  | some row =>
    let saved ← row.toFlow
    if !replace && row.id != id then throw (.conflict flow.phoneNumber row.id)
    return (saved, table)

/-- Saves a flow, under a fresh id when it has none of its own. Gives the flow as it is stored, the table,
and the supply that is left. -/
def save (table : FlowTable) (flow : CallFlow) (replace : Bool) (now : Text) (supply : Supply) :
    Outcome (CallFlow × FlowTable) × Supply :=
  match ownId? table flow with
  | some id => (saveAs table flow replace now id true, supply)
  | none => (saveAs table flow replace now supply.next false, supply.advance)

def load (table : FlowTable) (owner number : Text) : Outcome (Option CallFlow) := do
  bound [owner, PhoneNumber.normalize number]
  (rowFor? table owner (PhoneNumber.normalize number)).mapM FlowRow.toFlow

def get (table : FlowTable) (id : Text) : Outcome (Option CallFlow) := do
  bound [id]
  (row? table id).mapM FlowRow.toFlow

def require (table : FlowTable) (id : Text) : Outcome CallFlow := do
  match ← get table id with
  | some flow => return flow
  | none => throw (.flowNotFound id)

/-- The flow that governs the calls to a number: of those in use the one that was stored last. -/
def forNumber (table : FlowTable) (number : Text) : Outcome (Option CallFlow) := do
  bound [PhoneNumber.normalize number]
  let rows := table.filter fun row =>
    row.phoneNumber == PhoneNumber.normalize number && row.status == some ("active" : Text)
  (newestFirst FlowRow.updatedAt rows).head?.mapM FlowRow.toFlow

def list (table : FlowTable) (owner : Option Text) : Outcome (List CallFlow) := do
  bound (filled owner).toList
  let rows := table.filter fun row => (filled owner).all fun o => row.owner == o
  (newestFirst FlowRow.createdAt rows).mapM FlowRow.toFlow

def matchesOwned (id : Text) (owner : Option Text) (row : FlowRow) : Bool :=
  row.id == id && (filled owner).all fun o => row.owner == o

/-- The table without the flow with an id, and whether there was one. With an owner only a flow of the owner
is removed. -/
def delete (table : FlowTable) (id : Text) (owner : Option Text) : Outcome (Bool × FlowTable) := do
  bound (id :: (filled owner).toList)
  return (table.any (matchesOwned id owner), table.filter fun row => !matchesOwned id owner row)

end FlowTable
end Switchboard.Store
