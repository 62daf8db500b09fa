import Switchboard.Call.Interpreter
import Switchboard.Http.Url
import Switchboard.Markup.Script
import Switchboard.Service.Answer
import Switchboard.Settings
import Switchboard.Signature
import Switchboard.Store.Database
/-! # Callbacks of the provider

The provider calls back about calls that come in, calls that go out, and the status of calls. A callback
has to be signed when there is a secret. A call that comes in is answered with a script whatever fails, and
the call log never decides about it.
-/
namespace Switchboard.Service

open Http (FormFault Parameters Request Response)
open Store (Database filled)

/-- The address under which the provider made the request: without line ends and a fragment. -/
def publicUrl (settings : Settings) (request : Request) : Text :=
  let target := ({ path := request.path, query := request.query } : Http.Url).target
  Text.dropTrailing '/' settings.publicBaseUrl ++
    (Http.Url.splitPath (Http.Url.withoutLineEnds target.toList)).target

def sendsForm (request : Request) : Bool :=
  request.method = .post && Text.holds "form" request.contentType

def formParameters (request : Request) : Except FormFault Parameters :=
  if sendsForm request then request.form else .ok []

def isAuthentic (settings : Settings) (request : Request) (form : Parameters) : Outcome Bool :=
  match filled settings.authToken with
  | none => .ok true
  | some token => Signature.verify token (publicUrl settings request) form
      (request.header? "x-twilio-signature")

/-- Whether a form has to be read to see whether a callback is signed: there is a secret. -/
def formToVerify (settings : Settings) (request : Request) : Except FormFault Parameters :=
  if (filled settings.authToken).isSome then formParameters request else .ok []

def authenticated (settings : Settings) (db : Database) (request : Request)
    (answer : Response × Database) : Response × Database :=
  match formToVerify settings request with
  | .error fault => (formFailure fault, db)
  | .ok form =>
    match isAuthentic settings request form with
    | .ok true => answer
    | .ok false => (problem 403 (.str "Invalid webhook signature"), db)
    | .error _ => (failure, db)

/-- Whether the body was read as a form to see whether the callback is signed. A form that has been read
can be read again, but not as a document. -/
def isSpent (settings : Settings) (request : Request) : Bool :=
  (filled settings.authToken).isSome && sendsForm request && request.isForm

def bodyParameters (settings : Settings) (request : Request) : Except FormFault (List (Text × Text)) :=
  if request.method ≠ .post then .ok []
  else if Text.holds "application/json" request.contentType then
    if isSpent settings request then .error .spent
    else
      match Request.documentOf request.body with
      | .document value =>
        match Parameters.ofValue? value with
        | some parameters => .ok parameters
        | none => .error .oversized
      | _ => .ok []
  else (formParameters request).map Parameters.texts

/-- The parameters of a callback: those of the body are on top of those of the query. -/
def callbackParameters (settings : Settings) (request : Request) : Except FormFault (List (Text × Text)) :=
  (bodyParameters settings request).map fun parameters => Parameters.above parameters request.queryParameters

def eventOf (settings : Settings) (request : Request) : Except FormFault CallEvent :=
  (callbackParameters settings request).map CallEvent.ofParameters

def scriptResponse (settings : Settings) (script : CallScript) : Response :=
  respondWith do
    let document ← Markup.render settings.publicBaseUrl Markup.voicePath script.directives
    return { status := 200, content := .markup document }

/-- The flow that governs a call: the one that the event names, or the one of the number. -/
def governingFlow (db : Database) (event : CallEvent) : Outcome (Option CallFlow) :=
  match filled event.flowId, filled event.calledNumber with
  | some id, _ => db.flows?.bind fun table => table.get id
  | none, some number => db.flows?.bind fun table => table.forNumber number
  | none, none => .ok none

def newCall (event : CallEvent) (sid : Text) (flow : Option CallFlow) (last : Option Text) :
    Outcome Store.NewCall := do
  return {
    callSid := ← sid.encoded
    owner := ← (flow.map CallFlow.owner).mapM Text.encoded
    flowId := ← (flow.bind CallFlow.id).mapM Text.encoded
    fromNumber := ← event.callerNumber.mapM Text.encoded
    toNumber := ← event.calledNumber.mapM Text.encoded
    direction := some "inbound"
    lastBlockId := ← last.mapM Text.encoded }

def logCall? (db : Database) (event : CallEvent) (sid : Text) (flow : Option CallFlow)
    (last : Option Text) (now : String) : Outcome Database := do
  if event.isResume then
    match filled last with
    | some block => db.progressCall (← sid.encoded) (some (← block.encoded))
    | none => return db
  else
    let call ← newCall event sid flow last
    let (_, db) ← db.startCall call now
    return db

/-- The database with a callback in the log, or as it was if that fails. -/
def logCall (db : Database) (event : CallEvent) (flow : Option CallFlow) (script : CallScript)
    (now : String) : Database :=
  match filled event.callSid with
  | none => db
  | some sid => ((logCall? db event sid flow script.visited.getLast? now).toOption).getD db

def apologyResponse (settings : Settings) : Response :=
  scriptResponse settings (Interpreter.apology settings settings.errorMessage)

def answerEvent (settings : Settings) (db : Database) (now : String) (event : CallEvent) :
    Response × Database :=
  match governingFlow db event with
  | .error _ => (apologyResponse settings, db)
  | .ok flow =>
    let script := Interpreter.handle settings flow event
    (scriptResponse settings script, logCall db event flow script now)

def answerCall (settings : Settings) (db : Database) (now : String) (request : Request) :
    Response × Database :=
  match eventOf settings request with
  | .error _ => (apologyResponse settings, db)
  | .ok event => answerEvent settings db now event

def answerOutbound (settings : Settings) (request : Request) : Response :=
  match eventOf settings request with
  | .error _ => apologyResponse settings
  | .ok event =>
    scriptResponse settings (Interpreter.outboundLeg settings { event with direction := "outbound" })

def takeReport (db : Database) (now : String) (parameters : List (Text × Text)) : Response × Database :=
  match Parameters.filled? parameters "CallSid", Parameters.filled? parameters "CallStatus" with
  | some sid, some status =>
    let duration : Value := match Parameters.filled? parameters "CallDuration" with
      | some text => .int (CallEvent.countOf (some text))
      | none => .null
    match sid.encoded.bind fun sid => db.updateCall sid (.str status) duration now with
    | .ok (known, db) => (success (.obj [("status", .str "ok"), ("updated", .bool known)]), db)
    | .error _ => (failure, db)
  | _, _ => (problem 400 (.str "CallSid and CallStatus are required"), db)

def takeStatus (settings : Settings) (db : Database) (now : String) (request : Request) :
    Response × Database :=
  match callbackParameters settings request with
  | .error fault => (formFailure fault, db)
  | .ok parameters => takeReport db now parameters

end Switchboard.Service
