import Switchboard.Fault
import Switchboard.Http.HostName
import Switchboard.Http.Message
import Switchboard.Text.Percent
/-! # Addresses of requests

An address is a scheme, a host, a path, a query and a fragment, each of which may be missing. Control
characters and spaces at the front and line ends and tabs anywhere do not count.
-/
namespace Switchboard.Http

structure Url where
  path : String
  query : String
deriving DecidableEq, Repr

namespace Url

def isSchemeChar (c : Char) : Bool :=
  c.isAlphanum || c = '+' || c = '-' || c = '.'

def dropScheme (s : List Char) : List Char :=
  let scheme := s.takeWhile (· != ':')
  match s.drop scheme.length with
  | _ :: rest => if scheme.head?.any Char.isAlpha && scheme.all isSchemeChar then rest else s
  | [] => s

def endsHost (c : Char) : Bool :=
  c = '/' || c = '?' || c = '#'

def splitHost (s : List Char) : List Char × List Char :=
  match s with
  | '/' :: '/' :: rest => (rest.takeWhile (!endsHost ·), rest.dropWhile (!endsHost ·))
  | _ => ([], s)

def splitPath (s : List Char) : Url :=
  let s := s.takeWhile (· != '#')
  { path := String.ofList (s.takeWhile (· != '?'))
    query := String.ofList ((s.dropWhile (· != '?')).drop 1) }

def withoutLineEnds (s : List Char) : List Char :=
  s.filter fun c => c != '\t' && c != '\n' && c != '\r'

/-- The path and the query as a request line has them; a fragment is not told apart. -/
def ofTarget (s : String) : Url where
  path := String.ofList (s.toList.takeWhile (· != '?'))
  query := String.ofList ((s.toList.dropWhile (· != '?')).drop 1)

def parse (url : String) : Outcome Url :=
  let shown := withoutLineEnds (url.toList.dropWhile fun c => c.toNat ≤ 0x20)
  let (host, rest) := splitHost (dropScheme shown)
  if HostName.isAccepted host then .ok (splitPath rest)
  else .error (.badAddress url)

/-- The path and the query as they are written, without a question mark when there is no query. -/
def target (url : Url) : String :=
  if url.query = "" then url.path else url.path ++ "?" ++ url.query

end Url

def Request.deliveredTo (url : Url) (method : Method) (headers : List (String × String))
    (body : List UInt8) : Request :=
  { method, path := Text.decodePath url.path, query := url.query, headers, body }

end Switchboard.Http
