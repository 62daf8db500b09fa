import Switchboard.PhoneNumber
import Switchboard.Store.Cell
import Switchboard.Store.Order
import Switchboard.Text.Lowercase
/-! # The call log

The log holds one row for each call. A row is added with the first callback, follows the progress of the
call, and takes the status that the provider reports; with a final status comes the time of the end.
-/
namespace Switchboard.Store

structure CallRow where
  callSid : String
  owner : Option String := none
  flowId : Option String := none
  fromNumber : Option String := none
  toNumber : Option String := none
  direction : String
  status : String
  duration : Cell := .empty
  lastBlockId : Option String := none
  startedAt : String
  endedAt : Option String := none
deriving DecidableEq, Repr

abbrev CallLog := List CallRow

structure NewCall where
  callSid : String
  owner : Option String := none
  flowId : Option String := none
  fromNumber : Option String := none
  toNumber : Option String := none
  direction : Option String := none
  status : Option String := none
  lastBlockId : Option String := none
  startedAt : Option String := none
deriving DecidableEq, Repr

namespace NewCall

def nameOf (entries : Entries) : Outcome Value :=
  match entries.get? "call_sid" with
  | some name => .ok name
  | none => .error (.noEntry "call_sid")

def numberOf (entries : Entries) : Outcome Value :=
  Fault.unlessOversized (PhoneNumber.normalizeValue? (entries.get "to_number"))

def ofEntries (name number : Value) (entries : Entries) : Outcome NewCall := do
  let filledOnly (name : Text) := (entries.get name).orElse .null
  let sid ← columnText 1 name
  let owner ← columnText 2 (entries.get "owner")
  let flowId ← columnText 3 (entries.get "flow_id")
  let fromNumber ← columnText 4 (entries.get "from_number")
  let toNumber ← columnText 5 number
  let direction ← columnText 6 (filledOnly "direction")
  let status ← columnText 7 (filledOnly "status")
  let lastBlockId ← columnText 8 (entries.get "last_block_id")
  let startedAt ← columnText 9 (filledOnly "started_at")
  match sid with
  | some callSid => return {
      callSid, owner, flowId, fromNumber, toNumber, direction, status, lastBlockId, startedAt }
  | none => throw (.emptyColumn "call_logs.call_sid")

def toRow (call : NewCall) (now : String) : CallRow where
  callSid := call.callSid
  owner := call.owner
  flowId := call.flowId
  fromNumber := call.fromNumber
  toNumber := call.toNumber.map PhoneNumber.normalizeString
  direction := (call.direction.filter (· != "")).getD "inbound"
  status := (call.status.filter (· != "")).getD "in-progress"
  lastBlockId := call.lastBlockId
  startedAt := (call.startedAt.filter (· != "")).getD now

end NewCall

def CallRow.toValue (row : CallRow) : Value :=
  let text? (s : Option String) := Value.ofText? (s.map Text.plain)
  .obj [("call_sid", .str row.callSid), ("owner", text? row.owner), ("flow_id", text? row.flowId),
    ("from_number", text? row.fromNumber), ("to_number", text? row.toNumber),
    ("direction", .str row.direction), ("status", .str row.status),
    ("duration", row.duration.toValue), ("last_block_id", text? row.lastBlockId),
    ("started_at", .str row.startedAt), ("ended_at", text? row.endedAt)]

namespace CallLog

def finalStatuses : List String := ["completed", "busy", "failed", "no-answer", "canceled"]

def row? (log : CallLog) (sid : String) : Option CallRow :=
  log.find? fun row => row.callSid == sid

def modify (log : CallLog) (sid : String) (change : CallRow → CallRow) : CallLog :=
  log.map fun row => if row.callSid == sid then change row else row

def progress (log : CallLog) (sid : String) (block : Option String) : CallLog :=
  modify log sid fun row => { row with lastBlockId := block }

/-- The row of a call that begins, and the log with it. A call that has begun before only takes the block
it is at. -/
def start (log : CallLog) (call : NewCall) (now : String) : CallRow × CallLog :=
  match row? log call.callSid with
  | some row => ({ row with lastBlockId := call.lastBlockId }, progress log call.callSid call.lastBlockId)
  | none => (call.toRow now, log ++ [call.toRow now])

def withStatus (status : String) (duration : Cell) (now : String) (row : CallRow) : CallRow :=
  { row with
    status
    duration := if duration = .empty then row.duration else duration
    endedAt := if finalStatuses.contains status then some now else row.endedAt }

def statusOf (v : Value) : Outcome String :=
  match v.orElse (.str "") with
  | .str t => t.encoded.map Text.lowercase
  | v => .error (.noPart v.kind "lower")

/-- Takes the status of a call that the provider reports. Gives whether the call is known, and the log. -/
def update (log : CallLog) (sid : String) (status duration : Value) (now : String) :
    Outcome (Bool × CallLog) :=
  if (row? log sid).isNone then .ok (false, log)
  else do
    let status ← statusOf status
    let duration ← Cell.ofValue 2 duration
    return (true, modify log sid (withStatus status duration.toIntegerColumn now))

/-- The calls of an owner to a number, newest first, at most as many as the limit; a limit below zero is
none. -/
def query (log : CallLog) (owner number : Option Text) (limit : Int) : Outcome (List CallRow) := do
  let owner ← (filled owner).mapM Text.encoded
  let number ← (filled number).mapM fun n => (PhoneNumber.normalize n).encoded
  let rows := log.filter fun row =>
    (owner.all fun o => row.owner == some o) && number.all fun n => row.toNumber == some n
  let sorted := newestFirst (fun row => some (row.startedAt : Text)) rows
  if fits limit then return if limit < 0 then sorted else sorted.take limit.toNat
  else throw .tooLargeForCell

end CallLog
end Switchboard.Store
