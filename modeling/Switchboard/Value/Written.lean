import Switchboard.Number.Numeral
import Switchboard.Value.Basic
/-! # Values that are written

A value is written as a document and read back. Integers with too many digits cannot be written, and a text
that is loose has no bytes. In a document every half is an escape of its own, so halves that stand side by
side are read back as one character.
-/
namespace Switchboard.Value

mutual

/-- Whether something holds of every scalar in a value; a key counts as a text. -/
def all (p : Value → Bool) : Value → Bool
  | arr items => allItems p items
  | obj entries => allEntries p entries
  | v => p v

def allItems (p : Value → Bool) : List Value → Bool
  | [] => true
  | v :: rest => all p v && allItems p rest

def allEntries (p : Value → Bool) : List (Text × Value) → Bool
  | [] => true
  | (key, v) :: rest => p (str key) && all p v && allEntries p rest

end

def fits : Value → Bool
  | int n => (Numeral.text? n).isSome
  | _ => true

def isWritable (v : Value) : Bool :=
  v.all fits

def isEncodable (v : Value) : Bool :=
  v.all fun w => w.fits && w.asText?.all Text.isPlain

mutual

/-- The value that is read back from the document of a value. Keys that have become equal come together. -/
def reread : Value → Value
  | str t => str t.joined
  | arr items => arr (rereadItems items)
  | obj entries => obj (if entries.all fun entry => entry.1.joined == entry.1 then rereadEntries entries
      else Entries.ofList (rereadEntries entries))
  | v => v

def rereadItems : List Value → List Value
  | [] => []
  | v :: rest => reread v :: rereadItems rest

def rereadEntries : List (Text × Value) → List (Text × Value)
  | [] => []
  | (key, v) :: rest => (key.joined, reread v) :: rereadEntries rest

end

end Switchboard.Value
