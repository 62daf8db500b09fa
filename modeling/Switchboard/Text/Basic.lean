/-! # Texts

A text is a row of symbols: characters, and halves of surrogate pairs that stand alone. A text without such
a half is a string. Any other text is loose: it can be kept, compared and taken apart, but no encoding has
bytes for it.
-/
namespace Switchboard

/-- What texts are made of. A half is told by its distance from the first one. -/
inductive Symbol where
  | char (c : Char)
  | half (distance : Fin 0x800)
deriving DecidableEq, Repr

namespace Symbol

def isHalf : Symbol → Bool
  | char _ => false
  | half _ => true

def char? : Symbol → Option Char
  | char c => some c
  | half _ => none

def place : Symbol → Nat
  | char c => c.toNat
  | half d => 0xd800 + d

def ofPlace (n : Nat) : Symbol :=
  if h : 0xd800 ≤ n ∧ n < 0xe000 then half ⟨n - 0xd800, by omega⟩ else char (Char.ofNat n)

def pair? (high low : Fin 0x800) : Option Char :=
  if high < 0x400 ∧ 0x400 ≤ low then
    some (Char.ofNat (0x10000 + high.val * 0x400 + (low.val - 0x400)))
  else none

/-- The symbols with the character of every pair of halves in its place. Only those that are told to be
units of an encoding are joined. -/
def join : List (Symbol × Bool) → List Symbol
  | [] => []
  | [s] => [s.1]
  | s :: t :: rest =>
    match s, t with
    | (half high, true), (half low, true) =>
      match pair? high low with
      | some c => char c :: join rest
      | none => half high :: join (t :: rest)
    | _, _ => s.1 :: join (t :: rest)

end Symbol

/-- A text. -/
inductive Text where
  | plain (s : String)
  | loose (symbols : List Symbol) (hasHalf : symbols.any Symbol.isHalf = true)
deriving DecidableEq, Repr

namespace Text

instance : Coe String Text := ⟨plain⟩

instance : Inhabited Text := ⟨plain ""⟩

def plain? : Text → Option String
  | plain s => some s
  | loose _ _ => none

def isPlain (t : Text) : Bool :=
  t.plain?.isSome

def symbols : Text → List Symbol
  | plain s => s.toList.map Symbol.char
  | loose symbols _ => symbols

def ofSymbols (symbols : List Symbol) : Text :=
  if h : symbols.any Symbol.isHalf = true then loose symbols h
  else plain (String.ofList (symbols.filterMap Symbol.char?))

def chars : Text → List Char
  | plain s => s.toList
  | loose symbols _ => symbols.filterMap Symbol.char?

def length : Text → Nat
  | plain s => s.length
  | loose symbols _ => symbols.length

def append : Text → Text → Text
  | plain s, plain t => plain (s ++ t)
  | s, t => ofSymbols (s.symbols ++ t.symbols)

instance : Append Text := ⟨append⟩

@[simp] theorem plain_append (s t : String) : plain s ++ plain t = plain (s ++ t) := rfl

@[simp] theorem plain_beq_plain (s t : String) : (plain s == plain t) = (s == t) := by
  rw [Bool.eq_iff_iff, beq_iff_eq, beq_iff_eq, plain.injEq]

/-- The text that is read back when all of its symbols have been written in units of two bytes: halves that
stand side by side may be a pair then. -/
def joined : Text → Text
  | plain s => s
  | loose symbols _ => ofSymbols (Symbol.join (symbols.map fun symbol => (symbol, true)))

def intercalate (separator : Text) : List Text → Text
  | [] => plain ""
  | [t] => t
  | t :: rest => t ++ separator ++ intercalate separator rest

instance : LT Text := ⟨fun s t => s.symbols.map Symbol.place < t.symbols.map Symbol.place⟩

instance : DecidableLT Text :=
  fun s t => inferInstanceAs (Decidable (s.symbols.map Symbol.place < t.symbols.map Symbol.place))

end Text
end Switchboard
