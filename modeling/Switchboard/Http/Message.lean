import Switchboard.Json.Printer
import Switchboard.Text.Utf8
/-! # Requests and responses

A request names a path by a method and carries a query, headers and a body. Its path is read, its query is
kept as it is written, because callbacks are signed in that form. A response has a status and a content,
which decides about the headers.
-/
namespace Switchboard.Http

inductive Method where
  | get
  | post
  | delete
  | other (name : String)
deriving DecidableEq, Repr

def Method.ofName (name : String) : Method :=
  match name with
  | "GET" => .get
  | "POST" => .post
  | "DELETE" => .delete
  | name => .other name

structure Request where
  method : Method
  path : String
  query : String := ""
  headers : List (String × String) := []
  body : List UInt8 := []
deriving DecidableEq, Repr

def headerName (name : String) : String :=
  String.ofList (name.toList.map Char.toLower)

/-- The first header with a name; the case of a name does not matter. -/
def Request.header? (request : Request) (name : String) : Option String :=
  (request.headers.find? fun header => headerName header.1 == name).map Prod.snd

inductive Content where
  | nothing
  | json (value : Value)
  | markup (document : String)
  | plain (text : String)
deriving Repr

namespace Content

def type? : Content → Option String
  | nothing => none
  | json _ => some "application/json"
  | markup _ => some "text/xml; charset=utf-8"
  | plain _ => some "text/plain; charset=utf-8"

/-- The header that tells whether a content may be kept: every call script is made anew. -/
def cacheControl? : Content → Option String
  | markup _ => some "no-store"
  | _ => none

def text : Content → String
  | nothing => ""
  | json value => (Json.print? value).getD ""
  | markup document => document
  | plain text => text

end Content

structure Response where
  status : Nat
  content : Content
deriving Repr

def Response.failed (response : Response) : Bool :=
  400 ≤ response.status

end Switchboard.Http
