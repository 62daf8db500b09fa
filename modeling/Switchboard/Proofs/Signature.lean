import Switchboard.Signature
import Mathlib.Data.List.Nodup

/-! # Signatures that are verified

A signature depends on the names and the values of parameters and not on their order, as it is made of them in the order
of their names. It is a text of ASCII that is not empty, so a callback that carries the one it should have is accepted.
-/
namespace Switchboard

namespace Digest

theorem length_bytesOfNat (count n : Nat) : (bytesOfNat count n).length = count := by
  induction count generalizing n with
  | zero => rfl
  | succ count ih => rw [bytesOfNat, List.length_append, ih, List.length_singleton]

theorem length_sha1 (bytes : List UInt8) : (sha1 bytes).length = 20 := by
  simp [sha1, length_bytesOfNat]

theorem base64Char_ascii (n : Nat) : (base64Char n).toNat < 128 := by
  have hsmall : ∀ n < 62, (base64Char n).toNat < 128 := by decide
  by_cases hn : n < 62
  · exact hsmall n hn
  · rw [base64Char, if_neg (by omega), if_neg (by omega), if_neg hn]
    split <;> decide

theorem encodeBase64_ascii (bytes : List UInt8) : ∀ c ∈ encodeBase64 bytes, c.toNat < 128 := by
  fun_induction encodeBase64 bytes with
  | case1 => exact List.forall_mem_nil _
  | case2 a n => simp [base64Char_ascii]
  | case3 a b n => simp [base64Char_ascii]
  | case4 a b c rest n ih => simpa [base64Char_ascii] using ih

theorem encodeBase64_ne_nil {bytes : List UInt8} (h : bytes ≠ []) : encodeBase64 bytes ≠ [] := by
  fun_cases encodeBase64 bytes with
  | case1 => exact absurd rfl h
  | case2 => exact List.cons_ne_nil _ _
  | case3 => exact List.cons_ne_nil _ _
  | case4 => exact List.cons_ne_nil _ _

end Digest

namespace Signature

variable {parameters others : List (String × String)}

theorem pairwise_sortedParameters (parameters : List (String × String)) :
    (sortedParameters parameters).Pairwise fun p q => p.1 ≤ q.1 := by
  refine (List.pairwise_mergeSort ?_ ?_ parameters).imp fun h => ?_
  · intro p q r hpq hqr
    simp only [Bool.not_eq_true', decide_eq_false_iff_not, String.not_lt] at hpq hqr ⊢
    exact String.le_trans hpq hqr
  · intro p q
    simp only [Bool.or_eq_true, Bool.not_eq_true', decide_eq_false_iff_not, String.not_lt]
    exact String.le_total p.1 q.1
  · exact String.not_lt.mp (by simpa using h)

/-- Parameters of distinct names come in one order only. -/
theorem sortedParameters_perm (h : parameters.Perm others) (hnodup : (parameters.map Prod.fst).Nodup) :
    sortedParameters parameters = sortedParameters others := by
  have hsorted : (sortedParameters parameters).Perm (sortedParameters others) :=
    ((List.mergeSort_perm _ _).trans h).trans (List.mergeSort_perm _ _).symm
  refine hsorted.eq_of_pairwise ?_ (pairwise_sortedParameters parameters) (pairwise_sortedParameters others)
  intro p q hp hq hpq hqp
  have hp := (List.mergeSort_perm parameters _).mem_iff.mp hp
  have hq := h.mem_iff.mpr ((List.mergeSort_perm others _).mem_iff.mp hq)
  exact List.inj_on_of_nodup_map hnodup hp hq (String.le_antisymm hpq hqp)

theorem parameterText_perm (h : parameters.Perm others) (hnodup : (parameters.map Prod.fst).Nodup) :
    parameterText parameters = parameterText others := by
  rw [parameterText, parameterText, sortedParameters_perm h hnodup]

theorem sign_perm (h : parameters.Perm others) (hnodup : (parameters.map Prod.fst).Nodup) (token url : String) :
    sign token url parameters = sign token url others := by
  rw [sign, sign, parameterText_perm h hnodup]

theorem signText_perm (h : parameters.Perm others) (hnodup : (parameters.map Prod.fst).Nodup) (token url : Text) :
    signText token url parameters = signText token url others := by
  simp only [signText, sign_perm h hnodup, parameterText_perm h hnodup]

theorem verify_perm (h : parameters.Perm others) (hnodup : (parameters.map Prod.fst).Nodup) (token url : Text)
    (signature : Option String) : verify token url parameters signature = verify token url others signature := by
  rw [verify, verify, signText_perm h hnodup]

theorem sign_ascii (token url : String) (parameters : List (String × String)) :
    ∀ c ∈ (sign token url parameters).toList, c.toNat < 128 := by
  rw [sign, String.toList_ofList]
  exact Digest.encodeBase64_ascii _

theorem sign_ne_empty (token url : String) (parameters : List (String × String)) : sign token url parameters ≠ "" := by
  intro hempty
  have hbytes : Digest.hmac (Text.bytesOf token.toList) (Text.bytesOf (url ++ parameterText parameters).toList) ≠ [] := by
    refine List.ne_nil_of_length_pos ?_
    rw [Digest.hmac, Digest.length_sha1]
    decide
  refine Digest.encodeBase64_ne_nil hbytes ?_
  have hchars := congrArg String.toList hempty
  rwa [sign, String.toList_ofList] at hchars

theorem verify_sign (token url : String) (parameters : List (String × String)) :
    verify token url parameters (some (sign token url parameters)) = .ok true := by
  have hfilled : (some (sign token url parameters)).filter (· != "") = some (sign token url parameters) := by
    rw [Option.filter_some, if_pos (bne_iff_ne.mpr (sign_ne_empty token url parameters))]
  have hascii : ((sign token url parameters).toList.all fun c => decide (c.toNat < 128)) = true :=
    List.all_eq_true.mpr fun c hc => decide_eq_true (sign_ascii token url parameters c hc)
  rw [verify, hfilled]
  simp only [signText, bind, Except.bind]
  rw [if_pos hascii, beq_self_eq_true]
  rfl

end Signature
end Switchboard
