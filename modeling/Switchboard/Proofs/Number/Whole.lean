import Switchboard.Proofs.Number.Numeral
import Mathlib.Algebra.Group.Nat.Defs

/-! # Whole numbers

An integer of at most `2 ^ 53` is held exactly. A text that is read as an integer is read, as a number, as the one
nearest to it; so the two readings of a text agree where the number holds the integer.
-/
namespace Switchboard

namespace Binary64

variable {n : Int} {x : Binary64}

theorem ofInt_eq_ofRatio (n : Int) : ofInt n = ofRatio (decide (n < 0)) n.natAbs 1 := by
  have hscale : n.natAbs * power 2 0 = n.natAbs := Nat.mul_one _
  rw [ofInt, ofScaled, hscale]
  rfl

theorem signed_decide_natAbs (n : Int) : signed (decide (n < 0)) n.natAbs = n := by
  unfold signed
  by_cases hneg : n < 0
  · rw [decide_eq_true hneg, if_pos rfl]
    omega
  · rw [decide_eq_false hneg, if_neg Bool.false_ne_true]
    omega

theorem nearestQuotient_one (m : Nat) : nearestQuotient m 1 = m := by
  simp [nearestQuotient, Nat.mod_one]

section
variable {a : Nat}

def mantissaOf (a : Nat) : Nat :=
  a * 2 ^ (52 - a.log2)

theorem log2_le (hlt : a < 2 ^ 53) : a.log2 ≤ 52 := by
  by_cases hzero : a = 0
  · simp [hzero]
  · exact Nat.le_of_lt_succ ((Nat.log2_lt hzero).mpr hlt)

theorem le_mantissaOf (hpos : a ≠ 0) (hlt : a < 2 ^ 53) : 2 ^ 52 ≤ mantissaOf a := by
  calc 2 ^ 52 = 2 ^ a.log2 * 2 ^ (52 - a.log2) := by rw [← Nat.pow_add, Nat.add_sub_cancel' (log2_le hlt)]
    _ ≤ mantissaOf a := Nat.mul_le_mul_right _ (Nat.log2_self_le hpos)

theorem mantissaOf_lt (hlt : a < 2 ^ 53) : mantissaOf a < 2 ^ 53 := by
  calc mantissaOf a < 2 ^ (a.log2 + 1) * 2 ^ (52 - a.log2) :=
        Nat.mul_lt_mul_of_pos_right Nat.lt_log2_self (Nat.two_pow_pos _)
    _ = 2 ^ 53 := by
      have hle := log2_le hlt
      rw [← Nat.pow_add]
      congr 1
      omega

theorem power_up (hle : a.log2 ≤ 52) : power 2 ((a.log2 : Int) - 52) = 1 := by
  have hnat : ((a.log2 : Int) - 52).toNat = 0 := by omega
  rw [power, hnat, Nat.pow_eq, Nat.pow_zero]

theorem power_down (a : Nat) : power 2 (-((a.log2 : Int) - 52)) = 2 ^ (52 - a.log2) := by
  have hnat : (-((a.log2 : Int) - 52)).toNat = 52 - a.log2 := by omega
  rw [power, hnat, Nat.pow_eq]

theorem exponentOf_one (hpos : a ≠ 0) (hlt : a < 2 ^ 53) : exponentOf a 1 = (a.log2 : Int) - 52 := by
  have hlog : Nat.log2 1 = 0 := by decide
  have hbig : ¬ a * 2 ^ (52 - a.log2) / (1 * 1) < power 2 52 := by
    rw [Nat.mul_one, Nat.div_one]
    exact Nat.not_lt.mpr (le_mantissaOf hpos hlt)
  simp only [exponentOf, hlog, Int.natCast_zero, Int.sub_zero, power_up (log2_le hlt), power_down, hbig, if_false]
  rw [minExponent]
  omega

theorem ofRatio_one (negative : Bool) (hpos : a ≠ 0) (hlt : a < 2 ^ 53) :
    ofRatio negative a 1 = .finite negative (mantissaOf a) ((a.log2 : Int) - 52) := by
  have hle := log2_le hlt
  have hmantissa : nearestQuotient (a * 2 ^ (52 - a.log2)) (1 * 1) = mantissaOf a := nearestQuotient_one _
  have hcarry : (mantissaOf a == power 2 53) = false := by
    have hpower : power 2 53 = 2 ^ 53 := rfl
    rw [hpower, beq_eq_false_iff_ne]
    exact Nat.ne_of_lt (mantissaOf_lt hlt)
  have hrange : ¬ maxExponent < (a.log2 : Int) - 52 := by
    rw [maxExponent]
    omega
  rw [ofRatio, if_neg hpos]
  simp only [exponentOf_one hpos hlt, power_up hle, power_down, hmantissa, hcarry, Bool.false_eq_true, if_false, hrange]

end

theorem truncate?_ofInt (h : n.natAbs ≤ 2 ^ 53) : (ofInt n).truncate? = some n := by
  by_cases hzero : n = 0
  · subst hzero
    decide +kernel
  · rcases Nat.lt_or_eq_of_le h with hlt | heq
    · have hpos : n.natAbs ≠ 0 := by omega
      have hwhole : mantissaOf n.natAbs / 2 ^ (52 - n.natAbs.log2) = n.natAbs :=
        Nat.mul_div_cancel _ (Nat.two_pow_pos _)
      rw [ofInt_eq_ofRatio, ofRatio_one _ hpos hlt, truncate?, power_up (log2_le hlt), power_down, Nat.mul_one, hwhole,
        signed_decide_natAbs]
    · -- the least integer of 54 digits is held as well
      rcases Int.natAbs_eq n with hn | hn <;> rw [heq] at hn <;> rw [hn] <;> decide +kernel

theorem ofRatio_cases (negative : Bool) (num den : Nat) :
    ofRatio negative num den = .infinite negative ∨ ∃ m e, ofRatio negative num den = .finite negative m e := by
  unfold ofRatio
  split
  · exact Or.inr ⟨0, minExponent, rfl⟩
  · dsimp only
    split <;> split
    · exact Or.inl rfl
    · exact Or.inr ⟨_, _, rfl⟩
    · exact Or.inl rfl
    · exact Or.inr ⟨_, _, rfl⟩

theorem pos_iff {negative : Bool} {m : Nat} {e : Int} :
    ofInt 0 < .finite negative m e ↔ negative = false ∧ m ≠ 0 := by
  have hlt : ofInt 0 < .finite negative m e ↔
      signed false (0 * power 2 (minExponent - min minExponent e)) <
        signed negative (m * power 2 (e - min minExponent e)) := decide_eq_true_iff
  have hmantissa : m * power 2 (e - min minExponent e) = 0 ↔ m = 0 := by
    have hpower : power 2 (e - min minExponent e) ≠ 0 := Nat.ne_of_gt (Nat.two_pow_pos _)
    rw [Nat.mul_eq_zero, or_iff_left hpower]
  rw [hlt, ne_eq, ← hmantissa, Nat.zero_mul]
  generalize m * power 2 (e - min minExponent e) = k
  cases negative with
  | true => simp [signed]
  | false => simp [signed, Nat.pos_iff_ne_zero]

theorem pos_of_ofInt_pos (h : ofInt 0 < ofInt n) : 0 < n := by
  by_cases hzero : n = 0
  · subst hzero
    exact absurd h (by decide)
  · rw [ofInt_eq_ofRatio n] at h
    have hsign : decide (n < 0) = false := by
      rcases ofRatio_cases (decide (n < 0)) n.natAbs 1 with hinfinite | ⟨m, e, hfinite⟩
      · rw [hinfinite] at h
        have hnot : (!decide (n < 0)) = true := h
        simpa using hnot
      · rw [hfinite, pos_iff] at h
        exact h.1
    have hneg := of_decide_eq_false hsign
    omega

end Binary64

namespace Numeral

variable {s digits : List Char} {k : Int} {x : Binary64}

theorem toLower_of_isDigit {c : Char} (h : isDigit c = true) : c.toLower = c := by
  have hrange := isDigit_iff.mp h
  have hupper : ¬ (c.val ≥ 'A'.val ∧ c.val ≤ 'Z'.val) := by
    rintro ⟨hge, -⟩
    have hnat : 65 ≤ c.toNat := hge
    omega
  exact dif_neg hupper

theorem ofList_toLower_ne (word : String) {first : Char} {rest : List Char} (hword : word.toList = first :: rest)
    (hfirst : isDigit first = false) (hall : ∀ c ∈ digits, isDigit c = true) :
    String.ofList (digits.map Char.toLower) ≠ word := by
  intro heq
  have hlist : digits.map Char.toLower = first :: rest := by
    rw [← hword, ← heq, String.toList_ofList]
  obtain ⟨c, others, rfl, hc, -⟩ := List.map_eq_cons_iff.mp hlist
  have hdigit := hall c List.mem_cons_self
  rw [← hc, toLower_of_isDigit hdigit, hdigit] at hfirst
  cases hfirst

theorem decimal?_of_integer? (h : integer? s = some k) : ∃ negative digits,
    k = Binary64.signed negative digits ∧ decimal? s = some (Binary64.ofDecimal negative digits 0) := by
  unfold integer? at h
  rcases hsplit : splitSign s with ⟨negative, digits⟩
  rw [hsplit] at h
  dsimp only at h
  split at h
  · cases h
  · rename_i hdigits
    rw [Bool.or_eq_true, not_or, Bool.not_eq_true', Bool.not_eq_false, List.all_eq_true] at hdigits
    obtain ⟨hne, hall⟩ := hdigits
    refine ⟨negative, valueOf digits, (Option.some.inj h).symm, ?_⟩
    have hwhole : digits.takeWhile isDigit = digits := List.takeWhile_eq_self_iff.mpr hall
    have hrest : digits.dropWhile isDigit = [] := List.dropWhile_eq_nil_iff.mpr hall
    have hinf := ofList_toLower_ne "inf" rfl rfl hall
    have hinfinity := ofList_toLower_ne "infinity" rfl rfl hall
    have hnan := ofList_toLower_ne "nan" rfl rfl hall
    simp [decimal?, hsplit, hinf, hinfinity, hnan, hwhole, hrest, hne, exponent?]

/-- A decimal without a fraction that is no zero and not too large is the number nearest to the integer. -/
theorem ofDecimal_zero {negative : Bool} {n : Nat} (hpos : n ≠ 0)
    (hfinite : Binary64.ofDecimal negative n 0 ≠ .infinite negative) :
    Binary64.ofDecimal negative n 0 = Binary64.ofInt (Binary64.signed negative n) := by
  have hsign : decide (Binary64.signed negative n < 0) = negative := by
    cases negative with
    | true => simp [Binary64.signed, Nat.pos_iff_ne_zero, hpos]
    | false => simp [Binary64.signed]
  have habs : (Binary64.signed negative n).natAbs = n := by
    cases negative <;> simp [Binary64.signed]
  have hcases : Binary64.ofDecimal negative n 0 =
      if 400 < (Nat.toDigits 10 n).length then .infinite negative else .ofRatio negative n 1 := by
    have hsmall : ¬ ((Nat.toDigits 10 n).length : Int) < -400 := by omega
    have hlarge : (400 : Int) < (Nat.toDigits 10 n).length ↔ 400 < (Nat.toDigits 10 n).length := by omega
    have hpower : Binary64.power 10 0 = 1 := rfl
    simp [Binary64.ofDecimal, hpos, hsmall, hlarge, hpower]
  rw [hcases] at hfinite ⊢
  split at hfinite
  · exact absurd rfl hfinite
  · rename_i hshort
    rw [if_neg hshort, Binary64.ofInt_eq_ofRatio, hsign, habs]

/-- A text that is read as an integer is read as the number nearest to it, if this is positive and finite. -/
theorem readDecimal?_of_readInteger? {text : String} (hk : readInteger? text = some k)
    (hx : readDecimal? text = some x) (hfinite : ∀ sign, x ≠ .infinite sign) (hpos : Binary64.ofInt 0 < x) :
    x = Binary64.ofInt k := by
  unfold readInteger? at hk
  unfold readDecimal? at hx
  obtain ⟨s, hs, hk⟩ := Option.bind_eq_some_iff.mp hk
  rw [hs, Option.bind_some] at hx
  split at hk
  · obtain ⟨negative, n, rfl, hdecimal⟩ := decimal?_of_integer? hk
    obtain rfl := Option.some.inj (hx.symm.trans hdecimal)
    have hzero : n ≠ 0 := by
      rintro rfl
      have hno : Binary64.ofDecimal negative 0 0 = .finite negative 0 Binary64.minExponent := rfl
      rw [hno, Binary64.pos_iff] at hpos
      exact hpos.2 rfl
    exact ofDecimal_zero hzero (hfinite negative)
  · cases hk

end Numeral
end Switchboard
