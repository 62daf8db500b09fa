/-! # The digest of bytes in 160 bits

The bytes are filled up to blocks of 64 and each block is mixed into five words. The digest is the words
after the last block, as 20 bytes.
-/
namespace Switchboard.Digest

structure Words where
  a : UInt32
  b : UInt32
  c : UInt32
  d : UInt32
  e : UInt32
deriving DecidableEq, Repr

def Words.first : Words :=
  ⟨0x67452301, 0xefcdab89, 0x98badcfe, 0x10325476, 0xc3d2e1f0⟩

def rotate (w : UInt32) (n : UInt32) : UInt32 :=
  (w <<< n) ||| (w >>> (32 - n))

def bytesOfNat : Nat → Nat → List UInt8
  | 0, _ => []
  | count + 1, n => bytesOfNat count (n / 256) ++ [UInt8.ofNat (n % 256)]

/-- The bytes filled up to whole blocks: a mark, zeros, and the number of bits. -/
def padded (bytes : List UInt8) : List UInt8 :=
  let zeros := (119 - bytes.length % 64) % 64
  bytes ++ [0x80] ++ List.replicate zeros 0 ++ bytesOfNat 8 (bytes.length * 8)

def wordsOf : List UInt8 → List UInt32
  | a :: b :: c :: d :: rest =>
    ((a.toUInt32 <<< 24) ||| (b.toUInt32 <<< 16) ||| (c.toUInt32 <<< 8) ||| d.toUInt32) :: wordsOf rest
  | _ => []

def schedule (block : List UInt32) : Array UInt32 :=
  (List.range 64).foldl (fun w i =>
    w.push (rotate (w.getD (i + 13) 0 ^^^ w.getD (i + 8) 0 ^^^ w.getD (i + 2) 0 ^^^ w.getD i 0) 1))
    block.toArray

def round (s : Words) (t : Nat) (word : UInt32) : Words :=
  let f : UInt32 × UInt32 :=
    if t < 20 then ((s.b &&& s.c) ||| ((s.b ^^^ 0xffffffff) &&& s.d), 0x5a827999)
    else if t < 40 then (s.b ^^^ s.c ^^^ s.d, 0x6ed9eba1)
    else if t < 60 then ((s.b &&& s.c) ||| (s.b &&& s.d) ||| (s.c &&& s.d), 0x8f1bbcdc)
    else (s.b ^^^ s.c ^^^ s.d, 0xca62c1d6)
  ⟨rotate s.a 5 + f.1 + s.e + f.2 + word, s.a, rotate s.b 30, s.c, s.d⟩

def mix (s : Words) (block : List UInt32) : Words :=
  let w := schedule block
  let r := (List.range 80).foldl (fun s t => round s t (w.getD t 0)) s
  ⟨s.a + r.a, s.b + r.b, s.c + r.c, s.d + r.d, s.e + r.e⟩

def mixBlocks : Nat → Words → List UInt32 → Words
  | 0, s, _ => s
  | count + 1, s, words => mixBlocks count (mix s (words.take 16)) (words.drop 16)

def sha1 (bytes : List UInt8) : List UInt8 :=
  let words := wordsOf (padded bytes)
  let s := mixBlocks (words.length / 16) .first words
  [s.a, s.b, s.c, s.d, s.e].flatMap fun w => bytesOfNat 4 w.toNat

end Switchboard.Digest
