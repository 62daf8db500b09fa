import Switchboard.Service.Flows
import Switchboard.Service.Voice
/-! # What the service answers

A path names one resource or more, and each resource knows some methods. A request goes to the first
resource of its path that knows its method. A path that would name a resource with one slash more or less
at its end is referred to that.
-/
namespace Switchboard.Service

open Http (Method Request Response)
open Store (Database)

inductive Resource where
  | home
  | health
  | flows
  | lookup
  | check
  | flow (id : String)
  | calls
  | voice
  | outbound
  | status
deriving DecidableEq, Repr

namespace Resource

def fixed : List (String × Resource) :=
  [("/", home), ("/health", health), ("/api/call-flows/", flows), ("/api/call-flows/lookup", lookup),
    ("/api/call-flows/validate", check), ("/api/call-logs/", calls), ("/webhook/voice", voice),
    ("/webhook/voice/outbound", outbound), ("/webhook/voice/status", status)]

def flowId? (path : String) : Option String :=
  let start := "/api/call-flows/".toList
  let id := path.toList.drop start.length
  if start.isPrefixOf path.toList && !id.isEmpty && !id.contains '/' then some (String.ofList id) else none

def withoutLineEnd (path : String) : String :=
  match path.toList.reverse with
  | '\n' :: rest => String.ofList rest.reverse
  | _ => path

/-- The resources that a path names, in the order in which they are asked. -/
def ofPath (path : String) : List Resource :=
  (fixed.lookup (withoutLineEnd path)).toList ++ (flowId? path).toList.map flow

def methods : Resource → List Method
  | home | health | lookup | calls => [.get]
  | flows | voice | outbound => [.get, .post]
  | check | status => [.post]
  | flow _ => [.get, .delete]

end Resource

/-- The path with one slash more at its end, or without those that are there. -/
def withOtherEnd (path : String) : String :=
  if path.toList.getLast? == some '/' then Text.dropTrailingString '/' path else path ++ "/"

def readLimit (v : Value) : Reading Int :=
  match Reading.integer v with
  | .done n => if n < 1 then .fail (.below 1) else if 1000 < n then .fail (.above 1000) else .done n
  | .refused issues => .refused issues

def entryValue (row : Store.CallRow) : Outcome Value := do
  match row.duration with
  | .empty => return row.toValue
  | cell =>
    let seconds ← (Reading.integer cell.toValue).outcome
    return .obj (Entries.put "duration" (.int seconds) (row.toValue.asEntries?.getD []))

def listCalls (db : Database) (request : Request) : Response × Database :=
  let query := request.queryParameters
  answering db (Reading.under (.field "query") (Reading.fieldOr query.toEntries "limit" 50 readLimit))
    fun limit =>
      (respondWith do
        let log ← db.calls?
        let rows ← log.query (query.texts.lookup ("owner" : Text)) (query.texts.lookup ("phone_number" : Text)) limit
        let calls ← rows.mapM entryValue
        return success (.obj [("calls", .arr calls)]), db)

def answerAt (settings : Settings) (db : Database) (now : String) (request : Request) :
    Resource → Response × Database
  | .home => (success (.obj [("status", .str "ok"), ("service", .str "callflow"),
      ("env", .str settings.environment)]), db)
  | .health => (success (.obj [("status", .str "ok"), ("db", .bool true)]), db)
  | .flows => if request.method = .post then takeFlow db now request else listFlows db request
  | .lookup => lookUpFlow db request
  | .check => checkFlow db request
  | .flow id => if request.method = .delete then removeFlow db request id else showFlow db id
  | .calls => listCalls db request
  | .voice => authenticated settings db request (answerCall settings db now request)
  | .outbound => authenticated settings db request (answerOutbound settings request, db)
  | .status => authenticated settings db request (takeStatus settings db now request)

def respond (settings : Settings) (db : Database) (now : String) (request : Request) :
    Response × Database :=
  let named := Resource.ofPath request.path
  match named.find? fun resource => resource.methods.contains request.method with
  | some resource => answerAt settings db now request resource
  | none =>
    if !named.isEmpty then (problem 405 (.str "Method Not Allowed"), db)
    else if !(Resource.ofPath (withOtherEnd request.path)).isEmpty then
      ({ status := 307, content := .nothing }, db)
    else (problem 404 (.str "Not Found"), db)

end Switchboard.Service
