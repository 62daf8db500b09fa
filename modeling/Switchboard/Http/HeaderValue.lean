import Switchboard.Http.Message
import Switchboard.Text.Blank
/-! # Header values with options

Some headers give a value and options after it, separated by semicolons. Capitals do not matter in the
value and in the names of options. An option may stand in double quotes; there a semicolon separates
nothing, and a backslash goes in front of a quote or another backslash.
-/
namespace Switchboard.Http

structure HeaderValue where
  value : String
  options : List (String × String)
deriving DecidableEq, Repr

namespace HeaderValue

def unescape : List Char → List Char
  | '\\' :: c :: rest => if c = '"' || c = '\\' then c :: unescape rest else '\\' :: unescape (c :: rest)
  | c :: rest => c :: unescape rest
  | [] => []

def unquote (s : List Char) : List Char :=
  if 2 ≤ s.length && s.head? == some '"' && s.getLast? == some '"' then unescape (s.drop 1).dropLast else s

/-- The pieces between semicolons; none separates inside quotes. -/
def pieces (quoted : Bool) : List Char → List (List Char)
  | [] => [[]]
  | '\\' :: c :: rest =>
    match pieces (if !quoted && c = '"' then true else quoted) rest with
    | piece :: more => ('\\' :: c :: piece) :: more
    | [] => [['\\', c]]
  | c :: rest =>
    if c = ';' && !quoted then [] :: pieces false rest
    else
      match pieces (if c = '"' then !quoted else quoted) rest with
      | piece :: more => (c :: piece) :: more
      | [] => [[c]]

def bare (s : List Char) : List Char :=
  Text.trimBy Text.isAsciiBlank s

def option? (piece : List Char) : Option (String × String) :=
  if piece.contains '=' then
    let name := bare (piece.takeWhile (· != '='))
    let value := bare ((piece.dropWhile (· != '=')).drop 1)
    some (headerName (String.ofList name), String.ofList (unquote value))
  else none

def parse (s : String) : HeaderValue :=
  let value := s.toList.takeWhile (· != ';')
  { value := headerName (String.ofList (bare value))
    options := (pieces false (s.toList.drop (value.length + 1))).filterMap option? }

def get? (h : HeaderValue) (name : String) : Option String :=
  h.options.reverse.lookup name

end HeaderValue
end Switchboard.Http
