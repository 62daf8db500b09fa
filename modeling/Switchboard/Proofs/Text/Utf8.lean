import Switchboard.Text.Utf8
import Mathlib.Tactic.Common

/-! # Texts that are read back from their bytes

The bytes of a character are a first byte, which tells how many follow, and bytes of six bits each. The range that
is allowed for the next byte leaves out what has a shorter form, the surrogates and what is beyond the last character,
and no character is any of these. So a text is read back from its bytes as it was.
-/
namespace Switchboard.Text

variable {n b : Nat} {c : Char} {s : List Char} {rest : List UInt8}

namespace Lead

theorem ofByte?_one (h : b < 0x80) : ofByte? b = some ⟨0, 0x80, 0xbf, b⟩ := by
  rw [ofByte?, if_pos h]

theorem ofByte?_two (hlow : 0xc2 ≤ b) (hhigh : b ≤ 0xdf) : ofByte? b = some ⟨1, 0x80, 0xbf, b - 0xc0⟩ := by
  have hmore : ¬ b < 0x80 := by omega
  simp [ofByte?, hmore, hlow, hhigh]

theorem ofByte?_three (hlow : 0xe1 ≤ b) (hhigh : b ≤ 0xef) (hother : b ≠ 0xed) :
    ofByte? b = some ⟨2, 0x80, 0xbf, b - 0xe0⟩ := by
  have hmore : ¬ b < 0x80 ∧ ¬ b ≤ 0xdf ∧ b ≠ 0xe0 := by omega
  simp [ofByte?, hmore, hlow, hhigh, hother]

theorem ofByte?_four (hlow : 0xf1 ≤ b) (hhigh : b ≤ 0xf3) : ofByte? b = some ⟨3, 0x80, 0xbf, b - 0xf0⟩ := by
  have hmore : ¬ b < 0x80 ∧ ¬ b ≤ 0xdf ∧ b ≠ 0xe0 ∧ b ≠ 0xed ∧ ¬ b ≤ 0xef ∧ b ≠ 0xf0 := by omega
  simp [ofByte?, hmore, hlow, hhigh]

/-- What the first of three bytes tells of a character that needs them: its first bits, and a range that the second
byte is in. -/
theorem exists_three (hlow : 0x800 ≤ n) (hhigh : n ≤ 0xffff) (hsurrogate : n < 0xd800 ∨ 0xdfff < n) :
    ∃ low high, ofByte? (n / 4096 % 16 + 224) = some ⟨2, low, high, n / 4096⟩ ∧
      low ≤ n / 64 % 64 + 128 ∧ n / 64 % 64 + 128 ≤ high := by
  by_cases hshort : n < 0x1000
  · have hbits : n / 4096 = 0 := by omega
    rw [hbits]
    exact ⟨0xa0, 0xbf, rfl, by omega, by omega⟩
  · by_cases hnear : n / 4096 = 0xd
    · rw [hnear]
      exact ⟨0x80, 0x9f, rfl, by omega, by omega⟩
    · have hbits : n / 4096 % 16 + 224 - 0xe0 = n / 4096 := by omega
      refine ⟨0x80, 0xbf, ?_, by omega, by omega⟩
      rw [ofByte?_three (by omega) (by omega) (by omega), hbits]

theorem exists_four (hlow : 0x10000 ≤ n) (hhigh : n ≤ 0x10ffff) :
    ∃ low high, ofByte? (n / 262144 % 8 + 240) = some ⟨3, low, high, n / 262144⟩ ∧
      low ≤ n / 4096 % 64 + 128 ∧ n / 4096 % 64 + 128 ≤ high := by
  by_cases hshort : n < 0x40000
  · have hbits : n / 262144 = 0 := by omega
    rw [hbits]
    exact ⟨0x90, 0xbf, rfl, by omega, by omega⟩
  · by_cases hlast : n / 262144 = 4
    · rw [hlast]
      exact ⟨0x80, 0x8f, rfl, by omega, by omega⟩
    · have hbits : n / 262144 % 8 + 240 - 0xf0 = n / 262144 := by omega
      refine ⟨0x80, 0xbf, ?_, by omega, by omega⟩
      rw [ofByte?_four (by omega) (by omega), hbits]

end Lead

theorem toNat_ofNat_of_lt (h : n < 256) : (UInt8.ofNat n).toNat = n := by
  rw [UInt8.toNat_ofNat', Nat.mod_eq_of_lt h]

theorem continueSequence_cons {more low high bits : Nat} (hlow : low ≤ b) (hhigh : b ≤ high) (hb : b < 256) :
    continueSequence (more + 1) low high bits (UInt8.ofNat b :: rest) =
      continueSequence more 0x80 0xbf (bits * 64 + b % 64) rest := by
  rw [continueSequence, toNat_ofNat_of_lt hb, if_pos ⟨hlow, hhigh⟩]

/-- A byte of six bits that comes after the second one. -/
theorem continueSequence_six (more bits m : Nat) (rest : List UInt8) :
    continueSequence (more + 1) 0x80 0xbf bits (UInt8.ofNat (m % 64 + 128) :: rest) =
      continueSequence more 0x80 0xbf (bits * 64 + m % 64) rest := by
  have hbits : (m % 64 + 128) % 64 = m % 64 := by omega
  rw [continueSequence_cons (by omega) (by omega) (by omega), hbits]

theorem decodeFirst_of_lead {first : List UInt8} {more low high bits : Nat} (hb : b < 256)
    (hlead : Lead.ofByte? b = some ⟨more, low, high, bits⟩)
    (hread : continueSequence more low high bits first = (some c.toNat, rest)) :
    decodeFirst (UInt8.ofNat b) first = (some c, rest) := by
  rw [decodeFirst, toNat_ofNat_of_lt hb, hlead]
  simp only [hread, Option.map_some, Char.ofNat_toNat]

theorem decodeFirst_utf8EncodeChar (c : Char) (rest : List UInt8) :
    ∃ b tail, String.utf8EncodeChar c = b :: tail ∧ decodeFirst b (tail ++ rest) = (some c, rest) := by
  have hvalid : c.toNat < 0xd800 ∨ 0xdfff < c.toNat ∧ c.toNat < 0x110000 := c.valid
  unfold String.utf8EncodeChar
  rw [← Char.toNat]
  generalize hn : c.toNat = n at hvalid
  dsimp only
  -- one to four bytes, by the size of the number
  split
  · rename_i hone
    exact ⟨_, _, rfl, decodeFirst_of_lead (by omega) (Lead.ofByte?_one (by omega)) (hn ▸ rfl)⟩
  · rename_i hone
    split
    · rename_i htwo
      refine ⟨_, _, rfl, decodeFirst_of_lead (by omega) (Lead.ofByte?_two (by omega) (by omega)) ?_⟩
      rw [List.singleton_append, continueSequence_six, continueSequence, hn]
      congr 2
      omega
    · rename_i htwo
      split
      · rename_i hthree
        obtain ⟨low, high, hlead, hlow, hhigh⟩ := Lead.exists_three (n := n) (by omega) (by omega) (by omega)
        refine ⟨_, _, rfl, decodeFirst_of_lead (by omega) hlead ?_⟩
        rw [List.cons_append, continueSequence_cons hlow hhigh (by omega), List.singleton_append, continueSequence_six,
          continueSequence, hn]
        congr 2
        omega
      · rename_i hthree
        obtain ⟨low, high, hlead, hlow, hhigh⟩ := Lead.exists_four (n := n) (by omega) (by omega)
        refine ⟨_, _, rfl, decodeFirst_of_lead (by omega) hlead ?_⟩
        rw [List.cons_append, continueSequence_cons hlow hhigh (by omega), List.cons_append, continueSequence_six,
          List.singleton_append, continueSequence_six, continueSequence, hn]
        congr 2
        omega

theorem bytesOf_cons (c : Char) (s : List Char) : bytesOf (c :: s) = String.utf8EncodeChar c ++ bytesOf s := rfl

theorem bytesOf_append (s t : List Char) : bytesOf (s ++ t) = bytesOf s ++ bytesOf t := List.flatMap_append

theorem length_le_bytesOf (s : List Char) : s.length ≤ (bytesOf s).length := by
  induction s with
  | nil => exact Nat.zero_le _
  | cons c s ih =>
    obtain ⟨b, tail, hbytes, -⟩ := decodeFirst_utf8EncodeChar c []
    rw [bytesOf_cons, hbytes]
    simp only [List.length_cons, List.length_append]
    omega

theorem decodeSequences_bytesOf {fuel : Nat} (h : s.length ≤ fuel) : decodeSequences fuel (bytesOf s) = s.map some := by
  induction s generalizing fuel with
  | nil => cases fuel <;> rfl
  | cons c s ih =>
    cases fuel with
    | zero => cases h
    | succ fuel =>
      obtain ⟨b, tail, hbytes, hfirst⟩ := decodeFirst_utf8EncodeChar c (bytesOf s)
      rw [bytesOf_cons, hbytes, List.cons_append, decodeSequences]
      simp only [hfirst, List.map_cons, ih (Nat.le_of_succ_le_succ h)]

theorem decodeLossy_bytesOf (s : List Char) : decodeLossy (bytesOf s) = s := by
  rw [decodeLossy, decodeSequences_bytesOf (length_le_bytesOf s), List.map_map]
  exact List.map_id s

theorem bytesOf_ascii (h : ∀ c ∈ s, c.toNat < 0x80) : bytesOf s = s.map fun c => UInt8.ofNat c.toNat := by
  induction s with
  | nil => rfl
  | cons c s ih =>
    obtain ⟨hc, hs⟩ := List.forall_mem_cons.mp h
    have hbyte : String.utf8EncodeChar c = [UInt8.ofNat c.toNat] := by
      rw [String.utf8EncodeChar, ← Char.toNat]
      exact if_pos (Nat.le_of_lt_succ hc)
    rw [bytesOf_cons, hbyte, ih hs]
    rfl

end Switchboard.Text
