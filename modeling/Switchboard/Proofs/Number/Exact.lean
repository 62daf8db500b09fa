import Switchboard.Proofs.Number.Whole
import Mathlib.Tactic.Ring

/-! # Arithmetic on whole numbers

What a ratio is rounded to depends on its value alone. So the sum and the product of integers of at most 53 digits are
the numbers nearest to the sum and to the product.
-/
namespace Switchboard.Binary64

variable {a b : Int} {num den : Nat}

theorem nearestQuotient_mul_right (num den : Nat) {k : Nat} (hk : 0 < k) :
    nearestQuotient (num * k) (den * k) = nearestQuotient num den := by
  have htwice : 2 * (num * k % (den * k)) = 2 * (num % den) * k := by rw [Nat.mul_mod_mul_right, Nat.mul_assoc]
  have hless : 2 * (num % den) * k < den * k ↔ 2 * (num % den) < den := Nat.mul_lt_mul_right hk
  have hsame : (2 * (num % den) * k == den * k) = (2 * (num % den) == den) := by
    rw [Bool.eq_iff_iff, beq_iff_eq, beq_iff_eq, Nat.mul_left_inj (Nat.ne_of_gt hk)]
  simp only [nearestQuotient, htwice, hless, hsame, Nat.mul_div_mul_right _ _ hk]

theorem log2_mul_two_pow (hpos : num ≠ 0) (j : Nat) : (num * 2 ^ j).log2 = num.log2 + j := by
  induction j with
  | zero => simp
  | succ j ih =>
    have hscaled : num * 2 ^ j ≠ 0 := Nat.mul_ne_zero hpos (Nat.ne_of_gt (Nat.two_pow_pos j))
    rw [Nat.pow_succ, ← Nat.mul_assoc, Nat.mul_comm _ 2, Nat.log2_two_mul hscaled, ih, Nat.add_assoc]

theorem exponentOf_scaled (hnum : num ≠ 0) (hden : den ≠ 0) (j : Nat) :
    exponentOf (num * 2 ^ j) (den * 2 ^ j) = exponentOf num den := by
  have hguess : ((num * 2 ^ j).log2 : Int) - (den * 2 ^ j).log2 - 52 = (num.log2 : Int) - den.log2 - 52 := by
    rw [log2_mul_two_pow hnum, log2_mul_two_pow hden]
    omega
  have hquotient (p q : Nat) : num * 2 ^ j * p / (den * 2 ^ j * q) = num * p / (den * q) := by
    rw [Nat.mul_right_comm num, Nat.mul_right_comm den, Nat.mul_div_mul_right _ _ (Nat.two_pow_pos j)]
  simp only [exponentOf, hguess, hquotient]

/-- The number nearest to a ratio stays when both parts are scaled by a power of two. -/
theorem ofRatio_scaled (negative : Bool) (num : Nat) (hden : den ≠ 0) (j : Nat) :
    ofRatio negative (num * 2 ^ j) (den * 2 ^ j) = ofRatio negative num den := by
  by_cases hnum : num = 0
  · simp [ofRatio, hnum]
  · have hscaled : num * 2 ^ j ≠ 0 := Nat.mul_ne_zero hnum (Nat.ne_of_gt (Nat.two_pow_pos j))
    have hmantissa (p q : Nat) : nearestQuotient (num * 2 ^ j * p) (den * 2 ^ j * q) =
        nearestQuotient (num * p) (den * q) := by
      rw [Nat.mul_right_comm num, Nat.mul_right_comm den, nearestQuotient_mul_right _ _ (Nat.two_pow_pos j)]
    simp only [ofRatio, hnum, hscaled, if_false, exponentOf_scaled hnum hden, hmantissa]

theorem power_neg (j : Nat) : power 2 (-(j : Int)) = 1 := by
  have hnat : (-(j : Int)).toNat = 0 := by omega
  rw [power, hnat, Nat.pow_eq, Nat.pow_zero]

theorem power_natCast (j : Nat) : power 2 (j : Int) = 2 ^ j := rfl

theorem signed_mul (negative : Bool) (m k : Nat) : signed negative (m * k) = signed negative m * k := by
  cases negative <;> simp [signed]

theorem ofScaled_down (c : Int) (j : Nat) : ofScaled (c * 2 ^ j) (-(j : Int)) = ofInt c := by
  have hpos : (0 : Int) < 2 ^ j := Int.pow_pos (by decide)
  have hsign : decide (c * 2 ^ j < 0) = decide (c < 0) := by
    refine decide_eq_decide.mpr ⟨fun h => ?_, fun h => Int.mul_neg_of_neg_of_pos h hpos⟩
    by_contra hle
    exact absurd (Int.mul_nonneg (Int.not_lt.mp hle) (Int.le_of_lt hpos)) (Int.not_le.mpr h)
  have habs : (c * 2 ^ j).natAbs = c.natAbs * 2 ^ j := by
    rw [Int.natAbs_mul, Int.natAbs_pow]
    rfl
  have hscaled := ofRatio_scaled (decide (c < 0)) c.natAbs Nat.one_ne_zero j
  rw [Nat.one_mul] at hscaled
  rw [ofScaled, hsign, habs, power_neg, Nat.mul_one, Int.neg_neg, power_natCast, hscaled, ofInt_eq_ofRatio]

/-- An integer of at most 53 digits is held with an exponent that is not positive. -/
theorem exists_ofInt (h : a.natAbs < 2 ^ 53) : ∃ m j : Nat, ofInt a = .finite (decide (a < 0)) m (-(j : Int)) ∧
    signed (decide (a < 0)) m = a * 2 ^ j := by
  by_cases hzero : a = 0
  · subst hzero
    exact ⟨0, 1074, rfl, (Int.zero_mul _).symm⟩
  · have hle := log2_le h
    refine ⟨mantissaOf a.natAbs, 52 - a.natAbs.log2, ?_, ?_⟩
    · rw [ofInt_eq_ofRatio, ofRatio_one _ (Int.natAbs_ne_zero.mpr hzero) h]
      congr 1
      omega
    · rw [mantissaOf, signed_mul, signed_decide_natAbs]
      push_cast
      rfl

theorem ofInt_add (ha : a.natAbs < 2 ^ 53) (hb : b.natAbs < 2 ^ 53) : ofInt a + ofInt b = ofInt (a + b) := by
  obtain ⟨m, i, hx, hm⟩ := exists_ofInt ha
  obtain ⟨n, j, hy, hn⟩ := exists_ofInt hb
  have hlow : min (-(i : Int)) (-(j : Int)) = -((max i j : Nat) : Int) := by omega
  have hfirst : power 2 (-(i : Int) - -((max i j : Nat) : Int)) = 2 ^ (max i j - i) := by
    rw [power, Nat.pow_eq]
    congr 1
    omega
  have hsecond : power 2 (-(j : Int) - -((max i j : Nat) : Int)) = 2 ^ (max i j - j) := by
    rw [power, Nat.pow_eq]
    congr 1
    omega
  have hsum : signed (decide (a < 0)) (m * 2 ^ (max i j - i)) + signed (decide (b < 0)) (n * 2 ^ (max i j - j)) =
      (a + b) * 2 ^ max i j := by
    rw [signed_mul, signed_mul, hm, hn]
    push_cast
    rw [Int.mul_assoc, Int.mul_assoc, ← pow_add, ← pow_add, Nat.add_sub_cancel' (Nat.le_max_left i j),
      Nat.add_sub_cancel' (Nat.le_max_right i j), Int.add_mul]
  have hadd : ofInt a + ofInt b = if (a + b) * 2 ^ max i j = 0 then zero (decide (a < 0) && decide (b < 0))
      else ofScaled ((a + b) * 2 ^ max i j) (-((max i j : Nat) : Int)) := by
    rw [hx, hy, ← hsum, ← hfirst, ← hsecond, ← hlow]
    rfl
  rw [hadd]
  split
  · rename_i hzero
    have hnone : a + b = 0 := (Int.mul_eq_zero.mp hzero).resolve_right (Int.ne_of_gt (Int.pow_pos (by decide)))
    have hsigns : (decide (a < 0) && decide (b < 0)) = false := by
      rw [Bool.and_eq_false_iff, decide_eq_false_iff_not, decide_eq_false_iff_not]
      omega
    rw [hsigns, hnone]
    rfl
  · exact ofScaled_down _ _

theorem ofInt_mul (ha : a.natAbs < 2 ^ 53) (hb : b.natAbs < 2 ^ 53) (ha' : 0 ≤ a) (hb' : 0 ≤ b) :
    ofInt a * ofInt b = ofInt (a * b) := by
  obtain ⟨m, i, hx, hm⟩ := exists_ofInt ha
  obtain ⟨n, j, hy, hn⟩ := exists_ofInt hb
  rw [decide_eq_false (Int.not_lt.mpr ha')] at hx hm
  rw [decide_eq_false (Int.not_lt.mpr hb')] at hy hn
  have hmul : ofInt a * ofInt b =
      if m * n = 0 then zero false else ofScaled (signed false (m * n)) (-(i : Int) + -(j : Int)) := by
    rw [hx, hy]
    rfl
  have hproduct : signed false (m * n) = a * b * 2 ^ (i + j) := by
    have hfactor : (n : Int) = b * 2 ^ j := hn
    rw [signed_mul, hm, hfactor]
    ring
  have hexponent : -(i : Int) + -(j : Int) = -((i + j : Nat) : Int) := by omega
  rw [hmul, hproduct, hexponent, ofScaled_down]
  split
  · rename_i hzero
    have hnone : a * b = 0 := by
      rw [hzero] at hproduct
      exact (Int.mul_eq_zero.mp hproduct.symm).resolve_right (Int.ne_of_gt (Int.pow_pos (by decide)))
    rw [hnone]
    rfl
  · rfl

theorem ofInt_inj (ha : a.natAbs ≤ 2 ^ 53) (hb : b.natAbs ≤ 2 ^ 53) : ofInt a = ofInt b ↔ a = b := by
  refine ⟨fun h => ?_, fun h => h ▸ rfl⟩
  have hsame := congrArg truncate? h
  rw [truncate?_ofInt ha, truncate?_ofInt hb] at hsame
  exact Option.some.inj hsame

end Switchboard.Binary64
