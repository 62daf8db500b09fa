import Switchboard.Markup.Character
/-! # References

Text and the values of attributes hold characters and references to characters. A reference gives the
number of a character or the name of an entity; five entities have a character of their own.
-/
namespace Switchboard.Markup

inductive Piece where
  | char (c : Char)
  | numbered (c : Char)
  | entity (name : String)
deriving DecidableEq, Repr

def digitOf? (base : Nat) (c : Char) : Option Nat :=
  if c.isDigit then some (c.toNat - 48)
  else if base = 16 && 'a' ≤ c && c ≤ 'f' then some (c.toNat - 87)
  else if base = 16 && 'A' ≤ c && c ≤ 'F' then some (c.toNat - 55)
  else none

def numberOf? (base : Nat) (digits : List Char) : Option Nat :=
  if digits.isEmpty then none
  else digits.foldl (fun n? c => do
    let n := (← n?) * base + (← digitOf? base c)
    if n < 0x110000 then some n else none) (some 0)

def legalChar? (n : Nat) : Option Char :=
  let c := Char.ofNat n
  if c.toNat = n && isLegal c then some c else none

def Piece.ofReference? : List Char → Option Piece
  | '#' :: 'x' :: digits => ((numberOf? 16 digits).bind legalChar?).map numbered
  | '#' :: digits => ((numberOf? 10 digits).bind legalChar?).map numbered
  | word => if isName word then some (entity (String.ofList word)) else none

def reference? (s : List Char) : Option (Piece × List Char) := do
  let (word, rest) ← upTo? [';'] s
  return (← Piece.ofReference? word, rest)

def predefined? : String → Option Char
  | "amp" => some '&'
  | "lt" => some '<'
  | "gt" => some '>'
  | "quot" => some '"'
  | "apos" => some '\''
  | _ => none

/-- The pieces of a text without tags, with a bound on their number. A line end of one or two characters is
one line feed. -/
def piecesWithin? : Nat → List Char → Option (List Piece)
  | _, [] => some []
  | 0, _ => none
  | bound + 1, c :: rest =>
    if c = '&' then do
      let (piece, rest) ← reference? rest
      return piece :: (← piecesWithin? bound rest)
    else if c = '\r' then do
      let rest := if rest.head? == some '\n' then rest.drop 1 else rest
      return .char '\n' :: (← piecesWithin? bound rest)
    else do
      return .char c :: (← piecesWithin? bound rest)

def pieces? (s : List Char) : Option (List Piece) :=
  piecesWithin? s.length s

/-- A piece of the value of an entity: references to entities stay as they are until the entity is used. -/
def Piece.unused : Piece → List Char
  | char c => [c]
  | numbered c => [c]
  | entity name => '&' :: name.toList ++ [';']

def entityText? (value : List Char) : Option (List Char) :=
  if value.contains '%' then none else (pieces? value).map fun pieces => pieces.flatMap Piece.unused

end Switchboard.Markup
