import Switchboard.Number.Shortest
import Switchboard.Number.Numeral
import Switchboard.Text.Printable
import Switchboard.Value.Basic
/-! # The text of a value

A text stands for itself; any other value is written out. Inside lists and objects texts are quoted:
in single quotes, unless the text holds a single quote and no double one. The backslash, the quote and
everything that is not printable are escaped. An integer with too many digits is not written, nor is
anything that holds one.
-/
namespace Switchboard

namespace Text

/-- The lower-case hexadecimal digits of a number, filled up with zeros to a width. -/
def hexText (width n : Nat) : String :=
  let digits := Nat.toDigits 16 n
  String.ofList (List.replicate (width - digits.length) '0' ++ digits)

def quotedChar (quote c : Char) : String :=
  if c = quote || c = '\\' then String.ofList ['\\', c]
  else if c = '\n' then "\\n"
  else if c = '\r' then "\\r"
  else if c = '\t' then "\\t"
  else if isPrintable c then String.ofList [c]
  else if c.toNat < 0x100 then "\\x" ++ hexText 2 c.toNat
  else if c.toNat < 0x10000 then "\\u" ++ hexText 4 c.toNat
  else "\\U" ++ hexText 8 c.toNat

def quotedSymbol (quote : Char) : Symbol → String
  | .char c => quotedChar quote c
  | symbol => "\\u" ++ hexText 4 symbol.place

def quoted (t : Text) : String :=
  let quote := if t.chars.contains '\'' && !t.chars.contains '"' then '"' else '\''
  String.ofList [quote] ++ String.join (t.symbols.map (quotedSymbol quote)) ++ String.ofList [quote]

end Text

namespace Value

mutual

def quoted? : Value → Option String
  | null => some "None"
  | bool b => some (if b then "True" else "False")
  | int n => Numeral.text? n
  | float x => some x.text
  | str t => some t.quoted
  | arr items => (quotedItems? items).map fun texts => "[" ++ String.intercalate ", " texts ++ "]"
  | obj entries => (quotedEntries? entries).map fun texts => "\x7b" ++ String.intercalate ", " texts ++ "\x7d"

def quotedItems? : List Value → Option (List String)
  | [] => some []
  | v :: rest => do return (← quoted? v) :: (← quotedItems? rest)

def quotedEntries? : List (Text × Value) → Option (List String)
  | [] => some []
  | (key, v) :: rest => do return (key.quoted ++ ": " ++ (← quoted? v)) :: (← quotedEntries? rest)

end

def text? : Value → Option Text
  | str t => some t
  | v => v.quoted?.map Text.plain

end Value
end Switchboard
