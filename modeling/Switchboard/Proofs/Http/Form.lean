import Switchboard.Http.Form
import Switchboard.Proofs.Http.Parameters

/-! # Forms that are read back

All bytes of encoded parameters are of ASCII, and these a form reads as a query does. So a form gives the parameters
that it was made from, if their names are distinct and there are not too many.
-/
namespace Switchboard.Http

open Text

theorem runs_ascii {b : UInt8} {piece : List UInt8} (h : ∀ c ∈ b :: piece, isAscii c = true) :
    runs (b :: piece) = [b :: piece] := by
  induction piece generalizing b with
  | nil => rfl
  | cons c piece ih =>
    obtain ⟨hb, hpiece⟩ := List.forall_mem_cons.mp h
    rw [runs, ih hpiece]
    dsimp only
    rw [hb, hpiece c List.mem_cons_self, Bool.and_self, if_pos rfl]

theorem decodeFormPiece_ascii {piece : List UInt8} (h : ∀ b ∈ piece, isAscii b = true) :
    decodeFormPiece piece = decodeQueryBytes piece := by
  cases piece with
  | nil => decide +kernel
  | cons b piece =>
    rw [decodeFormPiece, runs_ascii h, List.map_singleton, decodeRun, if_pos (List.all_eq_true.mpr h)]
    simp [String.join]

theorem isAscii_encodeQuery (s : String) : ∀ b ∈ bytesOf (encodeQuery s).toList, isAscii b = true := by
  have hlow : ∀ c ∈ (encodeQuery s).toList, c.toNat < 0x80 := fun c hc =>
    toNat_lt_of_isQueryChar (List.all_eq_true.mp (isQueryChar_encodeQuery s) c hc)
  rw [bytesOf_ascii hlow]
  refine List.forall_mem_map.mpr fun c hc => ?_
  rw [isAscii, decide_eq_true_eq, UInt8.lt_iff_toNat_lt, toNat_ofNat_of_lt (by have := hlow c hc; omega)]
  exact hlow c hc

namespace Parameters

variable {pairs : Parameters}

/-- Parameters of distinct names are read from their form as they are. -/
theorem ofForm_encodePairs (hne : pairs ≠ []) (hnodup : (pairs.map Prod.fst).Nodup) (hfew : pairs.length ≤ mostFields) :
    ofForm (bytesOf (encodePairs pairs).toList) = .ok pairs := by
  have hdecode (s : String) : decodeFormPiece (bytesOf (encodeQuery s).toList) = s :=
    (decodeFormPiece_ascii (isAscii_encodeQuery s)).trans (decodeQuery_encodeQuery s)
  rw [ofForm, pieces_encodePairs hne]
  rw [List.length_map, if_neg (Nat.not_lt.mpr hfew), map_ofPiece hdecode, settle_eq_self hnodup]

end Parameters
end Switchboard.Http
