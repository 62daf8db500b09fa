import Switchboard.Fault
import Switchboard.Text.Part
/-! # Addresses of databases

A database in a file is opened in two ways, each with an address of its own form. From either form both
are made; any other address serves for both ways.
-/
namespace Switchboard.Store

open Text (beginsWith holds replaceAll)

def directScheme : Text := "sqlite:///"

def backgroundScheme : Text := "sqlite+aiosqlite:///"

def addresses (url : Text) : Text × Text :=
  if beginsWith directScheme url && !holds "+aiosqlite" url then
    (replaceAll directScheme backgroundScheme url, url)
  else if beginsWith backgroundScheme url then (url, replaceAll "+aiosqlite" "" url)
  else (url, url)

/-- The addresses for a value, or for the default if the value counts as nothing. -/
def addressesAt (default url : Value) : Outcome (Text × Text) :=
  match url.orElse default with
  | .str url => .ok (addresses url)
  | v => .error (.noPart v.kind "startswith")

end Switchboard.Store
