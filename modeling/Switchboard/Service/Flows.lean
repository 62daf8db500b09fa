import Switchboard.Flow.Validation
import Switchboard.Service.Answer
import Switchboard.Store.Database
/-! # The flows of the service

Owners store flows, list and look them up, and remove them. A flow is only stored when no error is found in
it; it may come in any of the shapes in which flows are stored.
-/
namespace Switchboard.Service

open Http (Request Response)
open Store (Database filled)

/-- A flow as it is sent. -/
structure FlowUpload where
  id : Option Text
  owner : Text
  phoneNumber : Text
  name : Option Text
  description : Option Text
  status : Option Text
  blocks : Value
  entryBlockId : Option Text
  recordingEnabled : Bool
  recordingDisclaimer : Option Text
deriving Repr

def readText? (entries : Entries) (name : Text) (absent : Option Text) : Reading (Option Text) :=
  Reading.fieldOr entries name absent (Reading.nullable Reading.text)

def readGraph (entries : Entries) : Reading Value :=
  Reading.fieldOr entries "blocks" (.arr []) Reading.done

namespace FlowUpload

def readEntries (entries : Entries) : Reading FlowUpload :=
  FlowUpload.mk <$> readText? entries "id" none
    <*> Reading.field entries "owner" Reading.text
    <*> Reading.field entries "phone_number" Reading.text
    <*> readText? entries "name" none
    <*> readText? entries "description" (some "")
    <*> readText? entries "status" (some "active")
    <*> readGraph entries
    <*> readText? entries "entry_block_id" none
    <*> Reading.fieldOr entries "recording_enabled" true Reading.bool
    <*> readText? entries "recording_disclaimer" none

/-- The flow that is sent, with blocks and entry read from their stored form. -/
def toFlow (upload : FlowUpload) : Outcome CallFlow := do
  let stored ← StoredGraph.decode upload.blocks
  return {
    id := upload.id
    owner := upload.owner
    phoneNumber := PhoneNumber.normalize upload.phoneNumber
    name := (filled upload.name).getD "Untitled Flow"
    description := upload.description.getD ""
    status := (filled upload.status).getD "active"
    blocks := stored.blocks
    entryBlockId := (filled upload.entryBlockId).or stored.entryBlockId
    recordingEnabled := upload.recordingEnabled
    recordingDisclaimer := upload.recordingDisclaimer }

end FlowUpload

def storeFlow (db : Database) (flow : CallFlow) (replace : Bool) (now : Text)
    (warnings : List Finding) : Response × Database :=
  match db.saveFlow flow replace now with
  | (.ok saved, db) =>
    (success (.obj [("flow", saved.toValue), ("warnings", findingsValue warnings)]), db)
  | (.error (.conflict number existing), db) =>
    (problem 409 (.str (Fault.conflict number existing).message), db)
  | (.error _, db) => (failure, db)

def examine (upload : FlowUpload) : Outcome (CallFlow × Report) := do
  let flow ← upload.toFlow
  let report ← Validation.validate flow.blocks flow.entryBlockId
  return (flow, report)

def acceptUpload (db : Database) (upload : FlowUpload) (replace : Bool) (now : Text) :
    Response × Database :=
  match examine upload with
  | .error _ => (failure, db)
  | .ok (flow, report) =>
    if report.ok then storeFlow db flow replace now report.warnings
    else (problem 422 (findingsValue report.errors), db)

/-- Whether another flow of the number may be overwritten, and the flow that is sent. -/
def readUpload (request : Request) : Reading (Bool × FlowUpload) :=
  Prod.mk
    <$> Reading.under (.field "query")
      (Reading.fieldOr request.queryParameters.toEntries "replace" false Reading.bool)
    <*> request.payload.read FlowUpload.readEntries

def takeFlow (db : Database) (now : Text) (request : Request) : Response × Database :=
  answeringBody db request.payload (readUpload request) fun (replace, upload) =>
    acceptUpload db upload replace now

def examineGraph (blocks : Value) (entry : Option Text) : Outcome Report := do
  let stored ← StoredGraph.decode blocks
  Validation.validate stored.blocks ((filled entry).or stored.entryBlockId)

def reportValue (report : Report) : Value :=
  .obj [("ok", .bool report.ok), ("entry_block_id", .ofText? report.entryBlockId),
    ("errors", findingsValue report.errors), ("warnings", findingsValue report.warnings)]

def readBlocks (entries : Entries) : Reading (Value × Option Text) :=
  Prod.mk <$> readGraph entries <*> readText? entries "entry_block_id" none

def checkFlow (db : Database) (request : Request) : Response × Database :=
  answeringBody db request.payload (request.payload.read readBlocks) fun (blocks, entry) =>
    (respondWith ((examineGraph blocks entry).map fun report => success (reportValue report)), db)

def readQueryText (request : Request) (name : Text) : Reading Text :=
  Reading.under (.field "query") (Reading.field request.queryParameters.toEntries name Reading.text)

def flowValue (flow : Option CallFlow) : Value :=
  (flow.map CallFlow.toValue).getD .null

def listFlows (db : Database) (request : Request) : Response × Database :=
  answering db (readQueryText request "owner") fun owner =>
    (respondWith do
      let table ← db.flows?
      let flows ← table.list (some owner)
      return success (.obj [("flows", .arr (flows.map CallFlow.toValue))]), db)

def lookUpFlow (db : Database) (request : Request) : Response × Database :=
  answering db (Prod.mk <$> readQueryText request "owner" <*> readQueryText request "phone_number")
    fun (owner, number) =>
      (respondWith do
        let table ← db.flows?
        let flow ← table.load owner number
        return success (.obj [("flow", flowValue flow)]), db)

def showFlow (db : Database) (id : Text) : Response × Database :=
  match db.flows? with
  | .error _ => (failure, db)
  | .ok table =>
    match table.require id with
    | .ok flow => (success flow.toValue, db)
    | .error (.flowNotFound id) => (problem 404 (.str (Fault.flowNotFound id).message), db)
    | .error _ => (failure, db)

/-- Removes the flow with an id; with an owner only if it is one of the owner. -/
def removeFlow (db : Database) (request : Request) (id : Text) : Response × Database :=
  match db.deleteFlow id (request.queryParameters.texts.lookup ("owner" : Text)) with
  | .ok (true, db) => (success (.obj [("success", .bool true)]), db)
  | .ok (false, db) => (problem 404 (.str "flow not found"), db)
  | .error _ => (failure, db)

end Switchboard.Service
