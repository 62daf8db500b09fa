import Switchboard.Number.Numeral
import Switchboard.Text.Wide
import Switchboard.Value.Written
/-! # Reading JSON

Documents are read by the usual grammar, with three words more: the numbers that are not finite. A document
that goes wrong fails with the number of characters that were left at that place, and an integer with too
many digits fails on its own.
-/
namespace Switchboard.Json

open Switchboard.Numeral (isDigit valueOf)

inductive Failure where
  | malformed (left : Nat)
  | oversized
deriving DecidableEq, Repr

def isSpace (c : Char) : Bool :=
  c = ' ' || c = '\t' || c = '\n' || c = '\r'

def skip (s : List Symbol) : List Symbol :=
  s.dropWhile fun symbol => symbol.char?.any isSpace

def escaped? : Char → Option Char
  | '"' => some '"'
  | '\\' => some '\\'
  | '/' => some '/'
  | 'b' => some '\x08'
  | 'f' => some '\x0c'
  | 'n' => some '\n'
  | 'r' => some '\r'
  | 't' => some '\t'
  | _ => none

def hexDigit? (c : Char) : Option Nat :=
  if isDigit c then some (c.toNat - 48)
  else if 'a' ≤ c && c ≤ 'f' then some (c.toNat - 87)
  else if 'A' ≤ c && c ≤ 'F' then some (c.toNat - 55)
  else none

def unit? (a b c d : Char) : Option Nat := do
  return (((← hexDigit? a) * 16 + (← hexDigit? b)) * 16 + (← hexDigit? c)) * 16 + (← hexDigit? d)

/-- The rest of a text after its opening quote, as symbols after those in `before`, which come last first,
each with whether it was an escape of a unit. It fails with the number of symbols that were left where it
goes wrong; there is none for a text that does not end. -/
def scanText (before : List (Symbol × Bool)) :
    List Symbol → Except (Option Nat) (List (Symbol × Bool) × List Symbol)
  | [] => .error none
  | .char '"' :: rest => .ok (before.reverse, rest)
  | .char '\\' :: .char 'u' :: .char a :: .char b :: .char c :: .char d :: rest =>
    match unit? a b c d with
    | some unit =>
      if rest.isEmpty then .error (some (rest.length + 5)) else scanText ((.ofPlace unit, true) :: before) rest
    | none => .error (some (rest.length + 5))
  | .char '\\' :: .char 'u' :: rest => .error (some (rest.length + 1))
  | [.char '\\'] => .error none
  | .char '\\' :: symbol :: rest =>
    match symbol.char?.bind escaped? with
    | some e => scanText ((.char e, false) :: before) rest
    | none => .error (some (rest.length + 2))
  | symbol :: rest =>
    if symbol.place < 0x20 then .error (some (rest.length + 1)) else scanText ((symbol, false) :: before) rest

/-- The text after an opening quote. One that does not end goes wrong at that quote. -/
def scanString (rest : List Symbol) : Except Failure (Text × List Symbol) :=
  match scanText [] rest with
  | .ok (symbols, rest) => .ok (Text.ofSymbols (Symbol.join symbols), rest)
  | .error left? => .error (.malformed (left?.getD (rest.length + 1)))

def fraction? : List Char → Option (List Char × List Char)
  | '.' :: rest =>
    let digits := rest.takeWhile isDigit
    if digits.isEmpty then none else some (digits, rest.dropWhile isDigit)
  | _ => none

def exponentPart? : List Char → Option (Int × List Char)
  | c :: rest =>
    if c = 'e' || c = 'E' then
      let (negative, rest) := Numeral.splitSign rest
      let digits := rest.takeWhile isDigit
      if digits.isEmpty then none
      else some (Binary64.signed negative (valueOf digits), rest.dropWhile isDigit)
    else none
  | [] => none

/-- The whole digits at the front: a zero, or digits of which the first is no zero. -/
def whole? : List Char → Option (List Char × List Char)
  | [] => none
  | c :: rest =>
    if c = '0' then some ([c], rest)
    else if isDigit c then some (c :: rest.takeWhile isDigit, rest.dropWhile isDigit)
    else none

def number? (s : List Char) : Option (Value × List Char) := do
  let negative := s.head? == some '-'
  let (whole, rest) ← whole? (if negative then s.drop 1 else s)
  let (fraction, rest) := (fraction? rest).getD ([], rest)
  match exponentPart? rest with
  | some (exponent, rest) =>
    return (.float (.ofDecimal negative (valueOf (whole ++ fraction)) (exponent - fraction.length)), rest)
  | none =>
    if fraction.isEmpty then return (.int (Binary64.signed negative (valueOf whole)), rest)
    return (.float (.ofDecimal negative (valueOf (whole ++ fraction)) (-fraction.length)), rest)

def words : List (List Char × Value) :=
  [("null".toList, .null), ("true".toList, .bool true), ("false".toList, .bool false),
    ("NaN".toList, .float .nan), ("Infinity".toList, .float (.infinite false)),
    ("-Infinity".toList, .float (.infinite true))]

def scalar (s : List Symbol) : Except Failure (Value × List Symbol) :=
  let front := (s.takeWhile fun symbol => !symbol.isHalf).filterMap Symbol.char?
  match words.find? fun word => word.1.isPrefixOf front with
  | some word => .ok (word.2, s.drop word.1.length)
  | none =>
    match number? front with
    | some (v, rest) => if v.fits then .ok (v, s.drop (front.length - rest.length)) else .error .oversized
    | none => .error (.malformed s.length)

mutual

def scanValue : Nat → List Symbol → Except Failure (Value × List Symbol)
  | 0, s => .error (.malformed s.length)
  | fuel + 1, s =>
    match s with
    | .char '"' :: rest => do
      let (text, rest) ← scanString rest
      return (.str text, rest)
    | .char '[' :: rest =>
      match skip rest with
      | .char ']' :: rest => .ok (.arr [], rest)
      | rest => scanItems fuel [] rest
    | .char '\x7b' :: rest =>
      match skip rest with
      | .char '\x7d' :: rest => .ok (.obj [], rest)
      | rest => scanEntries fuel [] rest
    | s => scalar s

/-- The items up to the end of a list, after those in `before`, which come last first. -/
def scanItems : Nat → List Value → List Symbol → Except Failure (Value × List Symbol)
  | 0, _, s => .error (.malformed s.length)
  | fuel + 1, before, s => do
    let (item, rest) ← scanValue fuel s
    match skip rest with
    | .char ']' :: rest => return (.arr (item :: before).reverse, rest)
    | .char ',' :: rest => scanItems fuel (item :: before) (skip rest)
    | rest => throw (.malformed rest.length)

def scanEntries : Nat → List (Text × Value) → List Symbol → Except Failure (Value × List Symbol)
  | 0, _, s => .error (.malformed s.length)
  | fuel + 1, before, s => do
    match s with
    | .char '"' :: rest =>
      let (key, rest) ← scanString rest
      match skip rest with
      | .char ':' :: rest =>
        let (value, rest) ← scanValue fuel (skip rest)
        match skip rest with
        | .char '\x7d' :: rest => return (.obj (Entries.ofList ((key, value) :: before).reverse), rest)
        | .char ',' :: rest => scanEntries fuel ((key, value) :: before) (skip rest)
        | rest => throw (.malformed rest.length)
      | rest => throw (.malformed rest.length)
    | s => throw (.malformed s.length)

end

def readSymbols (s : List Symbol) : Except Failure Value :=
  match scanValue (2 * s.length + 2) (skip s) with
  | .error failure => .error failure
  | .ok (value, rest) =>
    if (skip rest).isEmpty then .ok value else .error (.malformed (skip rest).length)

def read? (t : Text) : Option Value :=
  (readSymbols t.symbols).toOption

def readBytes? (bytes : List UInt8) : Option Value :=
  (Text.decodeDocument? bytes).bind fun s => (readSymbols s).toOption

end Switchboard.Json
