import Switchboard.Number.Numeral
import Switchboard.Proofs.Text.Blank

/-! # Integers that are read back

An integer is written with a minus sign, if it is negative, and decimal digits. The free rule reads it back, unless
it has more digits than are taken.
-/
namespace Switchboard.Numeral

open Switchboard.Text

variable {s : List Char}

theorem isDigit_iff {c : Char} : isDigit c = true ↔ 48 ≤ c.toNat ∧ c.toNat ≤ 57 := by
  simp only [isDigit, Bool.and_eq_true, decide_eq_true_eq]
  exact Iff.rfl

theorem isDigit_of_mem_toDigits {n : Nat} {c : Char} (h : c ∈ Nat.toDigits 10 n) : isDigit c = true := by
  have hdigit := Nat.isDigit_of_mem_toDigits (by decide) (by decide) h
  simp only [Char.isDigit, Bool.and_eq_true, decide_eq_true_eq] at hdigit
  exact isDigit_iff.mpr hdigit

theorem valueOf_toDigits (n : Nat) : valueOf (Nat.toDigits 10 n) = n := by
  have hvalue := Nat.ofDigitChars_toDigits (b := 10) (n := n) (by decide) (by decide)
  rw [Nat.ofDigitChars] at hvalue
  simp only [valueOf, Nat.mul_comm _ 10]
  exact hvalue

theorem toDigits_ne_nil (n : Nat) : Nat.toDigits 10 n ≠ [] := by
  rw [Nat.toDigits_eq_if (by decide)]
  split <;> simp

def signedDigits (n : Int) : List Char :=
  (if n < 0 then ['-'] else []) ++ Nat.toDigits 10 n.natAbs

theorem toList_toString (n : Int) : (toString n).toList = signedDigits n := by
  cases n with
  | ofNat m => exact Nat.toList_repr
  | negSucc m =>
    have htext : toString (Int.negSucc m) = "-" ++ (m + 1).repr := rfl
    rw [htext, String.toList_append, Nat.toList_repr, signedDigits, if_pos (Int.negSucc_lt_zero m)]
    rfl

theorem mem_signedDigits {n : Int} {c : Char} (h : c ∈ signedDigits n) : c = '-' ∨ isDigit c = true := by
  rcases List.mem_append.mp h with hsign | hdigit
  · split at hsign
    · exact Or.inl (List.mem_singleton.mp hsign)
    · cases hsign
  · exact Or.inr (isDigit_of_mem_toDigits hdigit)

theorem isPlain_of_mem_signedDigits {n : Int} {c : Char} (h : c ∈ signedDigits n) :
    c.toNat < 128 ∧ isAsciiBlank c = false ∧ c ≠ '_' := by
  rcases mem_signedDigits h with rfl | hdigit
  · decide
  · have hrange := isDigit_iff.mp hdigit
    refine ⟨by omega, ?_, ?_⟩
    · have hspace : c ≠ ' ' := by
        rintro rfl
        exact absurd hrange (by decide)
      simp only [isAsciiBlank, hspace, decide_false, Bool.false_or, Bool.and_eq_false_iff, decide_eq_false_iff_not]
      omega
    · rintro rfl
      exact absurd hrange (by decide)

theorem dropUnderscores?_eq_self (before : Bool) (h : ∀ c ∈ s, c ≠ '_') : dropUnderscores? before s = some s := by
  induction s generalizing before with
  | nil => rfl
  | cons c s ih =>
    obtain ⟨hc, hs⟩ := List.forall_mem_cons.mp h
    rw [dropUnderscores?, if_neg hc, ih (isDigit c) hs, Option.map_some]

theorem freeForm?_toString (n : Int) : freeForm? (toString n) = some (signedDigits n) := by
  have hascii : (signedDigits n).all (fun c => decide (c.toNat < 128)) = true :=
    List.all_eq_true.mpr fun c hc => decide_eq_true (isPlain_of_mem_signedDigits hc).1
  have htrim : trimBy isAsciiBlank (signedDigits n) = signedDigits n :=
    trimBy_eq_self_of_forall fun c hc => (isPlain_of_mem_signedDigits hc).2.1
  rw [freeForm?, toList_toString, asciiForm?, if_pos hascii, Option.bind_some, htrim]
  exact dropUnderscores?_eq_self false fun c hc => (isPlain_of_mem_signedDigits hc).2.2

theorem splitSign_signedDigits (n : Int) : splitSign (signedDigits n) = (decide (n < 0), Nat.toDigits 10 n.natAbs) := by
  unfold signedDigits
  by_cases hn : n < 0
  · rw [if_pos hn, decide_eq_true hn]
    rfl
  · rw [if_neg hn, decide_eq_false hn, List.nil_append]
    have hdigits : ∀ c ∈ Nat.toDigits 10 n.natAbs, isDigit c = true := fun c hc => isDigit_of_mem_toDigits hc
    cases hfirst : Nat.toDigits 10 n.natAbs with
    | nil => rfl
    | cons c rest =>
      have hc := hdigits c (hfirst ▸ List.mem_cons_self)
      unfold splitSign
      split
      · rename_i heq
        cases heq
        exact absurd hc (by decide)
      · rename_i heq
        cases heq
        exact absurd hc (by decide)
      · rfl

theorem integer?_signedDigits (n : Int) : integer? (signedDigits n) = some n := by
  have hdigits : (Nat.toDigits 10 n.natAbs).all isDigit = true :=
    List.all_eq_true.mpr fun c hc => isDigit_of_mem_toDigits hc
  have hsome : (Nat.toDigits 10 n.natAbs).isEmpty = false := by
    rw [List.isEmpty_eq_false_iff]
    exact toDigits_ne_nil _
  rw [integer?, splitSign_signedDigits]
  simp only [hdigits, hsome, Bool.not_true, Bool.or_self, Bool.false_eq_true, if_false, valueOf_toDigits, Binary64.signed,
    decide_eq_true_eq, Option.some.injEq]
  split <;> omega

theorem length_toDigits_le_iff {k : Nat} (hk : 0 < k) (n : Nat) : (Nat.toDigits 10 n).length ≤ k ↔ n < Nat.pow 10 k :=
  Nat.length_toDigits_le_iff (by decide) hk

theorem length_filter_signedDigits (n : Int) :
    ((signedDigits n).filter isDigit).length ≤ mostDigits ↔ n.natAbs < leastOversized := by
  have hsign : (if n < 0 then ['-'] else []).filter isDigit = [] := by split <;> rfl
  have hdigits : (Nat.toDigits 10 n.natAbs).filter isDigit = Nat.toDigits 10 n.natAbs :=
    List.filter_eq_self.mpr fun c hc => isDigit_of_mem_toDigits hc
  rw [signedDigits, List.filter_append, hsign, hdigits, List.nil_append]
  unfold leastOversized
  exact length_toDigits_le_iff (k := mostDigits) (by decide) _

/-- An integer is read back if it does not have too many digits. -/
theorem readInteger?_toString {n : Int} (h : n.natAbs < leastOversized) : readInteger? (toString n) = some n := by
  rw [readInteger?, freeForm?_toString, Option.bind_some, if_pos ((length_filter_signedDigits n).mpr h),
    integer?_signedDigits]

theorem text?_eq_some {n : Int} {text : String} :
    text? n = some text ↔ n.natAbs < leastOversized ∧ text = toString n := by
  unfold text?
  split <;> simp_all [eq_comm]

theorem valueOf_lt (digits : List Char) (h : ∀ c ∈ digits, isDigit c = true) : valueOf digits < Nat.pow 10 digits.length := by
  induction digits using List.reverseRecOn with
  | nil => decide
  | append_singleton digits c ih =>
    obtain ⟨hdigits, hc⟩ := List.forall_mem_append.mp h
    have hlast := isDigit_iff.mp (hc c List.mem_cons_self)
    have hfront := ih hdigits
    have hpow : Nat.pow 10 (digits.length + 1) = Nat.pow 10 digits.length * 10 := rfl
    rw [valueOf, List.foldl_append, List.length_append, List.length_singleton, hpow]
    simp only [List.foldl_cons, List.foldl_nil]
    rw [← valueOf]
    omega

theorem valueOf_lt_of_le {digits : List Char} (h : ∀ c ∈ digits, isDigit c = true) {k : Nat} (hk : digits.length ≤ k) :
    valueOf digits < Nat.pow 10 k :=
  (valueOf_lt digits h).trans_le (Nat.pow_le_pow_right (by decide) hk)

theorem natAbs_signed (negative : Bool) (n : Nat) : (Binary64.signed negative n).natAbs = n := by
  cases negative <;> simp [Binary64.signed]

theorem natAbs_lt_of_readInteger? {text : String} {n : Int} (h : readInteger? text = some n) :
    n.natAbs < leastOversized := by
  obtain ⟨form, -, h⟩ := Option.bind_eq_some_iff.mp h
  split at h
  · next hfew =>
    unfold integer? at h
    obtain ⟨negative, digits, hsplit⟩ : ∃ negative digits, splitSign form = (negative, digits) := ⟨_, _, rfl⟩
    simp only [hsplit] at h
    split at h
    · cases h
    · next hdigits =>
      rw [Bool.or_eq_true, not_or, Bool.not_eq_true', Bool.not_eq_false, List.all_eq_true] at hdigits
      obtain rfl := Option.some.inj h
      have hsub : digits.Sublist form := by
        unfold splitSign at hsplit
        split at hsplit <;> cases hsplit
        · exact List.sublist_cons_self _ _
        · exact List.sublist_cons_self _ _
        · exact List.Sublist.refl _
      have hlength : digits.length ≤ mostDigits := by
        have hkept := (hsub.filter isDigit).length_le
        rw [List.filter_eq_self.mpr hdigits.2] at hkept
        exact hkept.trans hfew
      rw [natAbs_signed]
      unfold leastOversized
      exact valueOf_lt_of_le hdigits.2 hlength
  · cases h

end Switchboard.Numeral
