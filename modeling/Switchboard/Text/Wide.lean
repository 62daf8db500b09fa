import Switchboard.Text.Utf8
/-! # Texts in wide units

Bytes of a document may hold a text in units of one, two or four bytes. Which units are used, and in
which order their bytes come, is told by a mark at the front or by where the first bytes are zero.
-/
namespace Switchboard.Text

inductive Encoding where
  | utf8
  | utf16 (bigEndian : Bool)
  | utf32 (bigEndian : Bool)
deriving DecidableEq, Repr

def unit16 (bigEndian : Bool) (a b : UInt8) : Nat :=
  if bigEndian then a.toNat * 256 + b.toNat else b.toNat * 256 + a.toNat

def units16? (bigEndian : Bool) : List UInt8 → Option (List Nat)
  | [] => some []
  | a :: b :: rest => (units16? bigEndian rest).map (unit16 bigEndian a b :: ·)
  | _ => none

def units32? (bigEndian : Bool) : List UInt8 → Option (List Nat)
  | [] => some []
  | a :: b :: c :: d :: rest =>
    let first := unit16 bigEndian a b
    let second := unit16 bigEndian c d
    let unit := if bigEndian then first * 65536 + second else second * 65536 + first
    (units32? bigEndian rest).map (unit :: ·)
  | _ => none

def symbolsAt? (places : List Nat) : Option (List Symbol) :=
  if places.all (· < 0x110000) then some (places.map Symbol.ofPlace) else none

def detect (bytes : List UInt8) : Encoding × List UInt8 :=
  match bytes with
  | 0x00 :: 0x00 :: 0xfe :: 0xff :: rest => (.utf32 true, rest)
  | 0xff :: 0xfe :: 0x00 :: 0x00 :: rest => (.utf32 false, rest)
  | 0xfe :: 0xff :: rest => (.utf16 true, rest)
  | 0xff :: 0xfe :: rest => (.utf16 false, rest)
  | 0xef :: 0xbb :: 0xbf :: rest => (.utf8, rest)
  | a :: b :: c :: d :: _ =>
    if a = 0 then (if b = 0 then .utf32 true else .utf16 true, bytes)
    else if b = 0 then (if c = 0 && d = 0 then .utf32 false else .utf16 false, bytes)
    else (.utf8, bytes)
  | [a, b] =>
    if a = 0 then (.utf16 true, bytes) else if b = 0 then (.utf16 false, bytes) else (.utf8, bytes)
  | _ => (.utf8, bytes)

/-- The symbols of bytes that are written in a certain way. Halves may stand alone. -/
def Encoding.decode? : Encoding → List UInt8 → Option (List Symbol)
  | .utf8, bytes => decodeHalves? bytes
  | .utf16 bigEndian, bytes => (units16? bigEndian bytes).map fun units =>
      Symbol.join (units.map fun unit => (.ofPlace unit, true))
  | .utf32 bigEndian, bytes => (units32? bigEndian bytes).bind symbolsAt?

def decodeDocument? (bytes : List UInt8) : Option (List Symbol) :=
  let (encoding, bytes) := detect bytes
  encoding.decode? bytes

end Switchboard.Text
