import Switchboard.Fault
import Switchboard.Number.Rounded
/-! # Cells of the tables

A cell is empty or holds an integer of a word, a number or a text. A column of texts takes every number by
its text, and a column of integers takes whatever is written like a number as one. A column of truth values
takes nothing else.
-/
namespace Switchboard.Store

open Text (trimBy isAsciiBlank)

def cellBound : Int := 0x8000000000000000

def fits (n : Int) : Bool :=
  -cellBound ≤ n && n < cellBound

inductive Cell where
  | empty
  | integer (n : Int)
  | real (x : Binary64)
  | text (s : String)
deriving DecidableEq, Repr

/-- The text of a number in a cell: fifteen digits, and always a point. -/
def realText : Binary64 → String
  | .nan => ""
  | .infinite s => if s then "-Inf" else "Inf"
  | .finite s m e =>
    if m = 0 then "0.0"
    else (if s then "-" else "") ++ (Binary64.rounded 15 m e).text { wholeDigits := 15, loneFraction := ".0" }

namespace Cell

def ofValue (position : Nat) : Value → Outcome Cell
  | .null => .ok empty
  | .bool b => .ok (integer (if b then 1 else 0))
  | .int n => if fits n then .ok (integer n) else .error .tooLargeForCell
  | .float x => .ok (if x = .nan then empty else real x)
  | .str t => t.encoded.map text
  | v => .error (.noCell position v.kind)

def text? : Cell → Option String
  | empty => none
  | integer n => some (toString n)
  | real x => some (realText x)
  | text s => some s

/-- A number as a column of integers holds it. An integer at the very end of the range stays a number. -/
def ofReal (x : Binary64) : Cell :=
  match x.truncate? with
  | some n => if x.isInteger && -cellBound < n && n < cellBound - 1 then integer n else real x
  | none => real x

/-- A text as a column of integers holds it: blanks around a number do not matter. -/
def ofText (s : String) : Cell :=
  let trimmed := trimBy isAsciiBlank s.toList
  let begun := (Numeral.splitSign trimmed).2.head?.any fun c => Numeral.isDigit c || c == '.'
  match (Numeral.integer? trimmed).filter fits with
  | some n => integer n
  | none =>
    match if begun then Numeral.decimal? trimmed else none with
    | some x => ofReal x
    | none => text s

def toIntegerColumn : Cell → Cell
  | real x => ofReal x
  | text s => ofText s
  | cell => cell

def toValue : Cell → Value
  | empty => .null
  | integer n => .int n
  | real x => .float x
  | text s => .str s

end Cell

def columnText (position : Nat) (v : Value) : Outcome (Option String) :=
  (Cell.ofValue position v).map Cell.text?

def bound (texts : List Text) : Outcome Unit :=
  match texts.find? fun t => !t.isPlain with
  | some t => .error (.unencodable t)
  | none => .ok ()

def isParameter : Value → Bool
  | .null => false
  | .bool _ => false
  | _ => true

def columnFlag : Value → Outcome (Option Bool)
  | .null => .ok none
  | .bool b => .ok (some b)
  | .int n =>
    if n = 0 then .ok (some false)
    else if n = 1 then .ok (some true)
    else .error (if (Numeral.text? n).isSome then .noFlag n else .oversized)
  | .float x =>
    if x.isInt 0 then .ok (some false) else if x.isInt 1 then .ok (some true) else .error (.notFlag .float)
  | v => .error (.notFlag v.kind)

end Switchboard.Store
