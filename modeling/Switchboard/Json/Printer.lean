import Switchboard.Number.Shortest
import Switchboard.Value.Display
/-! # Writing JSON

A value is written without blanks and in ASCII: a character outside of it is written by its units of two
bytes, and so is a half. A value with an integer that has too many digits is not written.
-/
namespace Switchboard.Json

def escapeUnit (unit : Nat) : String :=
  "\\u" ++ Text.hexText 4 unit

def charText (c : Char) : String :=
  let n := c.toNat
  if c = '"' then "\\\""
  else if c = '\\' then "\\\\"
  else if 0x20 ≤ n && n < 0x7f then String.ofList [c]
  else if n < 0x10000 then escapeUnit n
  else escapeUnit (0xd800 + (n - 0x10000) / 0x400) ++ escapeUnit (0xdc00 + (n - 0x10000) % 0x400)

def symbolText : Symbol → String
  | .char c => charText c
  | symbol => escapeUnit symbol.place

def stringText (t : Text) : String :=
  "\"" ++ String.join (t.symbols.map symbolText) ++ "\""

/-- A number; those that are not finite are written as words. -/
def numberText : Binary64 → String
  | .nan => "NaN"
  | .infinite negative => if negative then "-Infinity" else "Infinity"
  | x => x.text

mutual

def print? : Value → Option String
  | .null => some "null"
  | .bool b => some (if b then "true" else "false")
  | .int n => Numeral.text? n
  | .float x => some (numberText x)
  | .str t => some (stringText t)
  | .arr items => (printItems? items).map fun texts => "[" ++ String.intercalate "," texts ++ "]"
  | .obj entries => (printEntries? entries).map fun texts => "\x7b" ++ String.intercalate "," texts ++ "\x7d"

def printItems? : List Value → Option (List String)
  | [] => some []
  | v :: rest => do return (← print? v) :: (← printItems? rest)

def printEntries? : List (Text × Value) → Option (List String)
  | [] => some []
  | (key, v) :: rest => do return (stringText key ++ ":" ++ (← print? v)) :: (← printEntries? rest)

end

end Switchboard.Json
