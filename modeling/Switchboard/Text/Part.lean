import Switchboard.Text.Basic
/-! # Parts of texts

A text may begin with another text or hold it anywhere; occurrences that do not overlap can be replaced,
from left to right. A separator divides a text into pieces.
-/
namespace Switchboard.Text

def pieces {α : Type} [DecidableEq α] (separator : α) : List α → List (List α)
  | [] => [[]]
  | a :: rest =>
    if a = separator then [] :: pieces separator rest
    else
      match pieces separator rest with
      | piece :: more => (a :: piece) :: more
      | [] => [[a]]

/-- The text with every occurrence of a part replaced, from left to right. `skip` symbols at the front
belong to an occurrence that has been replaced. -/
def replaceFrom {α : Type} [BEq α] (part replacement : List α) : Nat → List α → List α
  | _, [] => []
  | skip + 1, _ :: rest => replaceFrom part replacement skip rest
  | 0, c :: rest =>
    if part.isPrefixOf (c :: rest) then
      replacement ++ replaceFrom part replacement (part.length - 1) rest
    else c :: replaceFrom part replacement 0 rest

def replaceAll (part replacement t : Text) : Text :=
  ofSymbols (replaceFrom part.symbols replacement.symbols 0 t.symbols)

def beginsWith (start t : Text) : Bool :=
  start.symbols.isPrefixOf t.symbols

def holdsPart {α : Type} [BEq α] (part : List α) : List α → Bool
  | [] => part.isEmpty
  | c :: rest => part.isPrefixOf (c :: rest) || holdsPart part rest

def holds (part t : Text) : Bool :=
  holdsPart part.symbols t.symbols

end Switchboard.Text
