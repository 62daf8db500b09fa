import Switchboard.Reading
import Switchboard.Value.Display
/-! # Faults

The causes for which an operation fails. Each has one text; which of them can arise is told by the type
of the operation.
-/
namespace Switchboard

/-- Why an operation failed. -/
inductive Fault where
  | refused (issues : List Issue)
  | conflict (number existing : Text)
  | flowNotFound (id : Text)
  | notIterable (kind : Value.Kind)
  | notKey (kind : Value.Kind)
  | notKeyed (kind : Value.Kind)
  | notPair
  | notNumeric (kind : Value.Kind)
  | notText (kind : Value.Kind)
  | noItem (index : Int)
  | noPart (kind : Value.Kind) (name : String)
  | noEntry (key : Text)
  | unreadable (text : Text)
  | nanToInteger
  | tooLarge
  | oversized
  | unencodable (text : Text)
  | endless
  | unknownBlockType (name : String)
  | unknownSetting (name : Text)
  | unknownDirective (text : Text)
  | emptyColumn (column : String)
  | repeatedColumns (columns : List String)
  | unknownColumn (column : Text)
  | tooLargeForCell
  /-- A value of this kind has no cell; it is the parameter at this position of a statement. -/
  | noCell (position : Nat) (kind : Value.Kind)
  | noFlag (n : Int)
  | notFlag (kind : Value.Kind)
  | unavailable
  | malformedDocument
  | badAddress (text : Text)
  | requestFailed
  | foreignSignature
  | reported (text : Text)
deriving Repr

def Text.encodingProblem (t : Text) : String :=
  let start := (t.symbols.takeWhile fun symbol => !symbol.isHalf).length
  let place := match (t.symbols.drop start).takeWhile Symbol.isHalf with
    | [symbol] => "character '" ++ Text.quotedSymbol '\'' symbol ++ "' in position " ++ toString start
    | halves => "characters in position " ++ toString start ++ "-" ++ toString (start + halves.length - 1)
  "'utf-8' codec can't encode " ++ place ++ ": surrogates not allowed"

def Fault.message : Fault → Text
  | .refused issues => Issue.summary issues
  | .conflict number existing => "a flow already exists for " ++ number ++ " (id=" ++ existing ++ ")"
  | .flowNotFound id => "flow " ++ id ++ " not found"
  | .notIterable kind => "'" ++ kind.name ++ "' object is not iterable"
  | .notKey kind => "unhashable type: '" ++ kind.name ++ "'"
  | .notKeyed kind => "'" ++ kind.name ++ "' object has no keys"
  | .notPair => "dictionary update sequence element has a wrong length; 2 is required"
  | .notNumeric kind => "float() argument must be a string or a real number, not '" ++ kind.name ++ "'"
  | .notText kind => "expected str, got " ++ kind.name
  | .noItem _ => "list index out of range"
  | .noPart kind name => "'" ++ kind.name ++ "' object has no attribute '" ++ name ++ "'"
  | .noEntry key => key.quoted
  | .unreadable text => "could not convert string to float: " ++ text.quoted
  | .nanToInteger => "cannot convert float NaN to integer"
  | .tooLarge => "int too large to convert to float"
  | .oversized => oversizedMessage
  | .unencodable text => text.encodingProblem
  | .endless => ""
  | .unknownBlockType name => name ++ " is not a valid BlockType"
  | .unknownSetting name => "there is no setting " ++ name.quoted
  | .unknownDirective text => "unknown directive " ++ text.quoted
  | .emptyColumn column => "NOT NULL constraint failed: " ++ column
  | .repeatedColumns columns => "UNIQUE constraint failed: " ++ String.intercalate ", " columns
  | .unknownColumn column => "Unconsumed column names: " ++ column
  | .tooLargeForCell => "Python int too large to convert to SQLite INTEGER"
  | .noCell position kind =>
    "Error binding parameter " ++ toString position ++ ": type '" ++ kind.name ++ "' is not supported"
  | .noFlag n => "Value " ++ toString n ++ " is not None, True, or False"
  | .notFlag kind => "Not a boolean value: " ++ kind.name
  | .unavailable => "no such table"
  | .malformedDocument => "not well-formed"
  | .badAddress text => "invalid address " ++ text.quoted
  | .requestFailed => "request failed"
  | .foreignSignature => "comparing strings with non-ASCII characters is not supported"
  | .reported text => text

abbrev Outcome (α : Type) := Except Fault α

/-- The result of a reading, or a fault with all that is wrong. -/
def Reading.outcome {α : Type} : Reading α → Outcome α
  | .done a => .ok a
  | .refused issues => .error (.refused issues)

/-- What is made by writing integers, which must not have too many digits. -/
def Fault.unlessOversized {α : Type} : Option α → Outcome α
  | some a => .ok a
  | none => .error .oversized

def Text.encoded : Text → Outcome String
  | .plain s => .ok s
  | t => .error (.unencodable t)

namespace Value

def written (v : Value) : Outcome Text :=
  Fault.unlessOversized v.text?

/-- The items of a value that is gone through: those of a list, the keys of an object, the characters of a
text. -/
def items : Value → Outcome (List Value)
  | arr items => .ok items
  | obj entries => .ok (entries.map fun entry => str entry.1)
  | str t => .ok (t.symbols.map fun symbol => str (.ofSymbols [symbol]))
  | v => .error (.notIterable v.kind)

/-- The text under which a value is looked up; scalars other than texts are under none. -/
def key? : Value → Outcome (Option Text)
  | str t => .ok (some t)
  | arr _ => .error (.notKey .arr)
  | obj _ => .error (.notKey .obj)
  | _ => .ok none

def toNumber : Value → Outcome Binary64
  | float x => .ok x
  | str t =>
    match t.plain?.bind Numeral.readDecimal? with
    | some x => .ok x
    | none => .error (.unreadable t)
  | v =>
    match v.asInt? with
    | none => .error (.notNumeric v.kind)
    | some n =>
      match Binary64.ofInt? n with
      | some x => .ok x
      | none => .error .tooLarge

end Value

def Binary64.toIntegerBy (round : Binary64 → Option Int) (x : Binary64) : Outcome Int :=
  match round x with
  | some n => .ok n
  | none => .error (if x = .nan then .nanToInteger else .tooLarge)

/-- The integer that a value stands for; a number loses its fraction and a text is read by the free
rule. -/
def Value.toInteger : Value → Outcome Int
  | .float x => x.toIntegerBy Binary64.truncate?
  | .str t =>
    match t.plain?.bind Numeral.readInteger? with
    | some n => .ok n
    | none => .error (.unreadable t)
  | v =>
    match v.asInt? with
    | some n => .ok n
    | none => .error (.notNumeric v.kind)

end Switchboard
