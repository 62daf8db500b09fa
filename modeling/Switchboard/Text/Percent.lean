import Switchboard.Text.Utf8
/-! # Percent-encoded texts

In the query of an address letters, digits and four marks stand for themselves, a space is written as a
plus sign, and every other byte of the text as a percent sign with two hexadecimal digits. Reading leaves
a percent sign alone that no such digits follow.
-/
namespace Switchboard.Text

def isUnreserved (b : UInt8) : Bool :=
  let n := b.toNat
  (0x30 ≤ n && n ≤ 0x39) || (0x41 ≤ n && n ≤ 0x5a) || (0x61 ≤ n && n ≤ 0x7a) ||
    n = 0x5f || n = 0x2e || n = 0x2d || n = 0x7e

def hexDigit (n : Nat) : Char :=
  if n < 10 then Char.ofNat (48 + n) else Char.ofNat (55 + n)

def hexValue? (n : Nat) : Option Nat :=
  if 48 ≤ n && n ≤ 57 then some (n - 48)
  else if 65 ≤ n && n ≤ 70 then some (n - 55)
  else if 97 ≤ n && n ≤ 102 then some (n - 87)
  else none

def encodeByte (b : UInt8) : List Char :=
  if isUnreserved b then [Char.ofNat b.toNat]
  else if b = 0x20 then ['+']
  else ['%', hexDigit (b.toNat / 16), hexDigit (b.toNat % 16)]

def encodeQuery (s : String) : String :=
  String.ofList ((bytesOf s.toList).flatMap encodeByte)

def percentDecode : List UInt8 → List UInt8
  | [] => []
  | [a] => [a]
  | [a, b] => [a, b]
  | p :: a :: b :: rest =>
    match p == 0x25, hexValue? a.toNat, hexValue? b.toNat with
    | true, some high, some low => UInt8.ofNat (high * 16 + low) :: percentDecode rest
    | _, _, _ => p :: percentDecode (a :: b :: rest)

def decodeQueryBytes (bytes : List UInt8) : String :=
  String.ofList (decodeLossy (percentDecode (bytes.map fun b => if b = 0x2b then 0x20 else b)))

def decodeQuery (s : String) : String :=
  decodeQueryBytes (bytesOf s.toList)

/-- The path that a percent-encoded path stands for; a plus sign is one. -/
def decodePath (s : String) : String :=
  String.ofList (decodeLossy (percentDecode (bytesOf s.toList)))

def encodePairs (pairs : List (String × String)) : String :=
  String.intercalate "&" (pairs.map fun pair => encodeQuery pair.1 ++ "=" ++ encodeQuery pair.2)

end Switchboard.Text
