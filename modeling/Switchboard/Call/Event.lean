import Switchboard.Call.Directive
import Switchboard.Fault
import Switchboard.Number.Numeral
import Switchboard.PhoneNumber
import Switchboard.Text.Blank
/-! # Events

An event is one callback of the telephony provider about a call. It names the two parties and, unless the
call is new, the place that the last script handed out.
-/
namespace Switchboard

/-- A callback about a call. -/
structure CallEvent where
  calledNumber : Option Text := none
  callerNumber : Option Text := none
  callSid : Option Text := none
  direction : Text := "inbound"
  flowId : Option Text := none
  currentBlockId : Option Text := none
  lastInput : Option Text := none
  attempt : Int := 0
  hops : Int := 0
  dialStatus : Option Text := none
deriving DecidableEq, Repr

namespace CallEvent

def isResume (e : CallEvent) : Bool :=
  e.currentBlockId.isSome

def readEntries (entries : Entries) : Reading CallEvent :=
  let text? (name : Text) := Reading.fieldOr entries name none (Reading.nullable Reading.text)
  CallEvent.mk <$> text? "called_number" <*> text? "caller_number" <*> text? "call_sid"
    <*> Reading.fieldOr entries "direction" "inbound" Reading.text
    <*> text? "flow_id" <*> text? "current_block_id" <*> text? "last_input"
    <*> Reading.fieldOr entries "attempt" 0 Reading.integer
    <*> Reading.fieldOr entries "hops" 0 Reading.integer
    <*> text? "dial_status"

def read : Value → Reading CallEvent :=
  Reading.record "CallEvent" readEntries

def toValue (e : CallEvent) : Value :=
  .obj [("called_number", .ofText? e.calledNumber), ("caller_number", .ofText? e.callerNumber),
    ("call_sid", .ofText? e.callSid), ("direction", .str e.direction),
    ("flow_id", .ofText? e.flowId), ("current_block_id", .ofText? e.currentBlockId),
    ("last_input", .ofText? e.lastInput), ("attempt", .int e.attempt), ("hops", .int e.hops),
    ("dial_status", .ofText? e.dialStatus)]

def returned (c : Continuation) : Entries :=
  [("flow_id", .ofText? c.flowId), ("current_block_id", .str c.blockId), ("attempt", .int c.attempt),
    ("hops", .int c.hops)]

/-- The number that a parameter holds; zero when it is missing or holds none. -/
def countOf (parameter : Option Text) : Int :=
  (parameter.bind fun t => t.plain?.bind Numeral.readInteger?).getD 0

def ofParameters (parameters : List (Text × Text)) : CallEvent :=
  let get (name : Text) := parameters.lookup name
  let filled (name : Text) := (get name).filter (· != ("" : Text))
  { calledNumber := (filled "To").map PhoneNumber.normalize
    callerNumber := get "From"
    callSid := get "CallSid"
    direction := (filled "Direction").getD "inbound"
    flowId := get "flow"
    currentBlockId := filled "node"
    lastInput := (get "Digits").map Text.trim
    attempt := countOf (get "attempt")
    hops := countOf (get "hops")
    dialStatus := get "DialCallStatus" }

/-- The number that a value holds by the free rule; zero when it counts as nothing or is no number. -/
def countAt (v : Value) : Outcome Int :=
  if !v.truthy then .ok 0
  else
    match v.toInteger with
    | .error (.unreadable _) | .error .nanToInteger => .ok 0
    | read => read

def ofEntries (parameters : Entries) : Outcome CallEvent := do
  let lastInput ← match parameters.get "Digits" with
    | .null => pure .null
    | .str t => pure (.str t.trim)
    | v => throw (.noPart v.kind "strip")
  let attempt ← countAt (parameters.get "attempt")
  let hops ← countAt (parameters.get "hops")
  let called ← Fault.unlessOversized (PhoneNumber.normalizeValue? ((parameters.get "To").orElse .null))
  (readEntries [("called_number", called),
    ("caller_number", parameters.get "From"), ("call_sid", parameters.get "CallSid"),
    ("direction", (parameters.get "Direction").orElse (.str "inbound")),
    ("flow_id", parameters.get "flow"), ("current_block_id", (parameters.get "node").orElse .null),
    ("last_input", lastInput), ("attempt", .int attempt), ("hops", .int hops),
    ("dial_status", parameters.get "DialCallStatus")]).outcome

end CallEvent
end Switchboard
