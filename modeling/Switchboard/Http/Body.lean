import Switchboard.Http.Multipart
import Switchboard.Json.Reader
import Switchboard.Reading
import Switchboard.Text.Blank
import Switchboard.Text.Part
/-! # Bodies of requests

What the body of a request is depends on the type that a header tells: a document, a form, or bytes without
a meaning.
-/
namespace Switchboard.Http

def isDocumentType (type : String) : Bool :=
  let bare := (HeaderValue.parse type).value.toList
  let subtype := String.ofList ((bare.dropWhile (· != '/')).drop 1)
  bare.count '/' == 1 && String.ofList (bare.takeWhile (· != '/')) == "application" &&
    (subtype == "json" || subtype.toList.reverse.take 5 == "+json".toList.reverse)

inductive Payload where
  | absent
  | bytes
  | document (value : Value)
  | malformed (place : Nat)
  /-- A document that holds a number too long to be read, or bytes that are no text. -/
  | garbled
deriving Repr

namespace Request

def contentType (request : Request) : String :=
  (request.header? "content-type").getD ""

def documentOf (body : List UInt8) : Payload :=
  match Text.decodeDocument? body with
  | none => .garbled
  | some s =>
    match Json.readSymbols s with
    | .ok value => .document value
    | .error (.malformed left) => .malformed (s.length - left)
    | .error .oversized => .garbled

def payload (request : Request) : Payload :=
  if request.body.isEmpty then .absent
  else if isDocumentType request.contentType then documentOf request.body
  else .bytes

/-- The parameters of the body as a form; a body of another type has none. -/
def form (request : Request) : Except FormFault Parameters :=
  let type := HeaderValue.parse request.contentType
  if type.value == "application/x-www-form-urlencoded" then Parameters.ofForm request.body
  else if type.value == "multipart/form-data" then Multipart.parameters type request.body
  else .ok []

def isForm (request : Request) : Bool :=
  ["application/x-www-form-urlencoded", "multipart/form-data"].contains
    (HeaderValue.parse request.contentType).value

def queryParameters (request : Request) : Parameters :=
  Parameters.ofQuery request.query

end Request

def Payload.read {α : Type} (read : Entries → Reading α) (payload : Payload) : Reading α :=
  Reading.under (.field "body") (match payload with
    | .document (.obj entries) => read entries
    | .absent => .fail .missing
    | .malformed place => Reading.under (.item place) (.fail .malformed)
    | _ => .fail .notBody)

end Switchboard.Http
