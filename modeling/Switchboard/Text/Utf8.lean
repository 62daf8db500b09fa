import Switchboard.Text.Basic
/-! # Bytes of a text

A text is written as bytes in UTF-8. Reading goes through the bytes sequence by sequence; a sequence that
breaks off or is not allowed is one mistake, and it ends before the first byte that does not fit. A text
is read strictly, where a mistake refuses it, with a replacement for every mistake, or as a document is:
strictly but for halves of pairs, which may be written like characters of three bytes.
-/
namespace Switchboard.Text

def bytesOf (s : List Char) : List UInt8 :=
  s.flatMap String.utf8EncodeChar

/-- What the first byte of a sequence tells: how many bytes follow, the range of the next one, and the
bits of the first. -/
structure Lead where
  more : Nat
  low : Nat
  high : Nat
  bits : Nat

def Lead.ofByte? (b : Nat) : Option Lead :=
  if b < 0x80 then some ⟨0, 0x80, 0xbf, b⟩
  else if 0xc2 ≤ b && b ≤ 0xdf then some ⟨1, 0x80, 0xbf, b - 0xc0⟩
  else if b = 0xe0 then some ⟨2, 0xa0, 0xbf, 0⟩
  else if b = 0xed then some ⟨2, 0x80, 0x9f, 0xd⟩
  else if 0xe1 ≤ b && b ≤ 0xef then some ⟨2, 0x80, 0xbf, b - 0xe0⟩
  else if b = 0xf0 then some ⟨3, 0x90, 0xbf, 0⟩
  else if 0xf1 ≤ b && b ≤ 0xf3 then some ⟨3, 0x80, 0xbf, b - 0xf0⟩
  else if b = 0xf4 then some ⟨3, 0x80, 0x8f, 4⟩
  else none

def continueSequence : Nat → Nat → Nat → Nat → List UInt8 → Option Nat × List UInt8
  | 0, _, _, bits, rest => (some bits, rest)
  | _ + 1, _, _, _, [] => (none, [])
  | more + 1, low, high, bits, b :: rest =>
    if low ≤ b.toNat ∧ b.toNat ≤ high then
      continueSequence more 0x80 0xbf (bits * 64 + b.toNat % 64) rest
    else (none, b :: rest)

/-- The first character, if the bytes begin with one, and the bytes after it or after the mistake. -/
def decodeFirst (b : UInt8) (rest : List UInt8) : Option Char × List UInt8 :=
  match Lead.ofByte? b.toNat with
  | none => (none, rest)
  | some lead =>
    let read := continueSequence lead.more lead.low lead.high lead.bits rest
    (read.1.map Char.ofNat, read.2)

/-- The characters of bytes, with nothing for every mistake; at most `fuel` of them. -/
def decodeSequences : Nat → List UInt8 → List (Option Char)
  | 0, _ => []
  | _, [] => []
  | fuel + 1, b :: rest =>
    let first := decodeFirst b rest
    first.1 :: decodeSequences fuel first.2

def decode? (bytes : List UInt8) : Option (List Char) :=
  (decodeSequences bytes.length bytes).mapM fun c => c

def decodeLossy (bytes : List UInt8) : List Char :=
  (decodeSequences bytes.length bytes).map fun c => c.getD '\ufffd'

def halfAt? : List UInt8 → Option (Symbol × List UInt8)
  | a :: b :: c :: rest =>
    if h : a = 0xed ∧ (0xa0 ≤ b.toNat ∧ b.toNat ≤ 0xbf) ∧ 0x80 ≤ c.toNat ∧ c.toNat ≤ 0xbf then
      some (.half ⟨(b.toNat - 0xa0) * 64 + (c.toNat - 0x80), by omega⟩, rest)
    else none
  | _ => none

def decodeWithin? : Nat → List UInt8 → Option (List Symbol)
  | 0, _ => some []
  | _, [] => some []
  | fuel + 1, b :: rest =>
    match halfAt? (b :: rest) with
    | some (half, rest) => (decodeWithin? fuel rest).map (half :: ·)
    | none =>
      let first := decodeFirst b rest
      first.1.bind fun c => (decodeWithin? fuel first.2).map (.char c :: ·)

def decodeHalves? (bytes : List UInt8) : Option (List Symbol) :=
  decodeWithin? bytes.length bytes

end Switchboard.Text
