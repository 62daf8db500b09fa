import Switchboard.Fault
import Switchboard.Flow.Finding
import Switchboard.Http.Body
import Switchboard.Value.Written
/-! # Answers of the service

Each kind of outcome has one form of response: what was asked for, a problem with a detail, all that is
wrong with a request, or a text for a failure of the service itself.
-/
namespace Switchboard.Service

open Http (Response)

def failure : Response :=
  { status := 500, content := .plain "Internal Server Error" }

def responseWith (status : Nat) (value : Value) : Response :=
  if value.isEncodable then { status, content := .json value } else failure

def success (value : Value) : Response :=
  responseWith 200 value.finiteOnly

def problem (status : Nat) (detail : Value) : Response :=
  responseWith status (.obj [("detail", detail)])

def stepValue : Step → Value
  | .field name => .str name
  | .item index => .int index

def issueValue (issue : Issue) : Value :=
  .obj [("loc", .arr (issue.path.map stepValue)), ("msg", .str issue.problem.message),
    ("type", .str issue.problem.code)]

def unreadable (issues : List Issue) : Response :=
  problem 422 (.arr (issues.map issueValue))

def findingsValue (findings : List Finding) : Value :=
  .arr (findings.map Finding.toValue)

def formFailure (fault : Http.FormFault) : Response :=
  match fault.message? with
  | some message => problem 400 (.str message)
  | none => failure

def respondWith : Outcome Response → Response
  | .ok response => response
  | .error _ => failure

/-- The value that an issue is about: what stands at its place, or what has no such part. -/
def subject (v : Value) : List Step → Value
  | [] => v
  | .field name :: rest =>
    match v with
    | .obj entries => match Entries.get? entries name with
      | some w => subject w rest
      | none => v
    | v => v
  | .item index :: rest =>
    match v with
    | .arr items => match items[index]? with
      | some w => subject w rest
      | none => v
    | v => v

def isFinite (v : Value) : Bool :=
  v.finiteOnly.alike v

/-- The response to a document in which something is wrong. What is wrong cannot be told when it holds a
number that is not finite or something that cannot be written. -/
def unreadableDocument (document : Value) (issues : List Issue) : Response :=
  let canBeTold (issue : Issue) : Bool :=
    match issue.path with
    | .field (.plain "body") :: path =>
      isFinite (subject document path) && (subject document path).isEncodable
    | _ => true
  if issues.all canBeTold then unreadable issues else failure

def answering {α σ : Type} (state : σ) (reading : Reading α) (answer : α → Response × σ) : Response × σ :=
  match reading with
  | .done a => answer a
  | .refused issues => (unreadable issues, state)

/-- Reads a request with a body and answers it, unless it cannot be read. Of a body that is no document at
all nothing else is told. -/
def answeringBody {α σ : Type} (state : σ) (payload : Http.Payload) (reading : Reading α)
    (answer : α → Response × σ) : Response × σ :=
  match payload with
  | .document v =>
    match reading with
    | .done a => answer a
    | .refused issues => (unreadableDocument v issues, state)
  | .garbled => (problem 400 (.str "There was an error parsing the body"), state)
  | .malformed place => answering state (Http.Payload.read (fun _ => reading) (.malformed place)) answer
  | _ => answering state reading answer

end Switchboard.Service
