import Switchboard.Proofs.Text.Utf8
import Switchboard.Text.Percent

/-! # Percent-encoded texts that are read back

Every byte is encoded by itself, as characters that neither separate the parts of an address nor those of a query. An
encoded byte is read as the byte, whatever follows it, and so an encoded text is read as the text.
-/
namespace Switchboard.Text

variable {b p : UInt8} {rest : List UInt8}

/-- Whether a character is shown and of ASCII, and separates neither parts of an address nor parts of a query. -/
def isQueryChar (c : Char) : Bool :=
  0x20 < c.toNat && c.toNat < 0x80 && c ∉ ['&', '=', '?', '#']

theorem forall_byte {P : UInt8 → Prop} (h : ∀ n < 256, P (UInt8.ofNat n)) (b : UInt8) : P b := by
  have hb := h b.toNat b.toNat_lt
  rwa [UInt8.ofNat_toNat] at hb

theorem isQueryChar_encodeByte (b : UInt8) : (encodeByte b).all isQueryChar = true :=
  forall_byte (P := fun b => (encodeByte b).all isQueryChar = true) (by decide +kernel) b

theorem toNat_lt_of_isQueryChar {c : Char} (h : isQueryChar c = true) : c.toNat < 0x80 := by
  simp only [isQueryChar, Bool.and_eq_true, decide_eq_true_eq] at h
  exact h.1.2

theorem isQueryChar_encodeQuery (s : String) : (encodeQuery s).toList.all isQueryChar = true := by
  rw [encodeQuery, String.toList_ofList, List.all_flatMap, List.all_eq_true]
  exact fun b _ => isQueryChar_encodeByte b

theorem percentDecode_cons_of_ne (h : p ≠ 0x25) (rest : List UInt8) :
    percentDecode (p :: rest) = p :: percentDecode rest := by
  have hp : (p == 0x25) = false := beq_eq_false_iff_ne.mpr h
  match rest with
  | [] => rfl
  | [_] => rfl
  | _ :: _ :: _ =>
    rw [percentDecode, hp]

theorem percentDecode_escape {x y : UInt8} {high low : Nat} (hx : hexValue? x.toNat = some high)
    (hy : hexValue? y.toNat = some low) (rest : List UInt8) :
    percentDecode (0x25 :: x :: y :: rest) = UInt8.ofNat (high * 16 + low) :: percentDecode rest := by
  rw [percentDecode, hx, hy]
  rfl

def spaced (b : UInt8) : UInt8 := if b = 0x2b then 0x20 else b

theorem hexValue?_hexDigit : ∀ d < 16, hexValue? (spaced (UInt8.ofNat (hexDigit d).toNat)).toNat = some d := by
  decide +kernel

theorem spaced_unreserved : ∀ b : UInt8, isUnreserved b = true →
    b ≠ 0x25 ∧ spaced (UInt8.ofNat (Char.ofNat b.toNat).toNat) = b :=
  forall_byte (by decide +kernel)

theorem percentDecode_encodeByte (b : UInt8) (rest : List UInt8) :
    percentDecode ((bytesOf (encodeByte b)).map spaced ++ rest) = b :: percentDecode rest := by
  have hascii : ∀ c ∈ encodeByte b, c.toNat < 0x80 := fun c hc =>
    toNat_lt_of_isQueryChar (List.all_eq_true.mp (isQueryChar_encodeByte b) c hc)
  rw [bytesOf_ascii hascii, encodeByte]
  split
  · rename_i hunreserved
    obtain ⟨hpercent, hsame⟩ := spaced_unreserved b hunreserved
    rw [List.map_singleton, List.map_singleton, hsame, List.singleton_append, percentDecode_cons_of_ne hpercent]
  · split
    · rename_i hspace
      subst hspace
      exact percentDecode_cons_of_ne (by decide) rest
    · -- the two digits of the byte
      have hhigh := hexValue?_hexDigit (b.toNat / 16) (by have := b.toNat_lt; omega)
      have hlow := hexValue?_hexDigit (b.toNat % 16) (by omega)
      have hwhole : b.toNat / 16 * 16 + b.toNat % 16 = b.toNat := by omega
      refine (percentDecode_escape hhigh hlow rest).trans ?_
      rw [hwhole, UInt8.ofNat_toNat]

theorem percentDecode_flatMap (bytes : List UInt8) :
    percentDecode ((bytesOf (bytes.flatMap encodeByte)).map spaced) = bytes := by
  induction bytes with
  | nil => rfl
  | cons b bytes ih =>
    rw [List.flatMap_cons, bytesOf_append, List.map_append, percentDecode_encodeByte, ih]

theorem decodeQuery_encodeQuery (s : String) : decodeQuery (encodeQuery s) = s := by
  have hbytes := percentDecode_flatMap (bytesOf s.toList)
  rw [decodeQuery, decodeQueryBytes, encodeQuery, String.toList_ofList]
  exact (congrArg _ (congrArg _ hbytes)).trans (by rw [decodeLossy_bytesOf, String.ofList_toList])

end Switchboard.Text
