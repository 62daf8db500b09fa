import Switchboard.Flow.Layout
import Switchboard.Proofs.Number.Exact
import Mathlib.Algebra.Order.Ring.Rat
import Mathlib.Data.Fintype.Pigeonhole
import Mathlib.Tactic.Linarith
import Mathlib.Tactic.Ring

/-! # Free places

Over exact coordinates the cells of the grid, like the places in a row, stand further apart than twice the proximity.
So a block is in the way of at most one of them, and of one place more than there are blocks some place is free. Both
searches therefore end, at the first place that is free. Over other coordinates the search to the right ends exactly
when there is a free place on its way.
-/
namespace Switchboard

instance : Coordinate ℚ where
  decidableLt := inferInstance

namespace Layout

open Position (firstFreeRight)

section
variable {K : Type} [Coordinate K] {blocks : List (Block K)} {place found : Position K}

theorem exists_steps_of_firstFreeRight (h : firstFreeRight blocks place = some found) :
    ∃ k, found = shiftRight^[k] place ∧ isFree blocks found = true := by
  refine Position.firstFreeRight.partial_correctness blocks
    (fun place found => ∃ k, found = shiftRight^[k] place ∧ isFree blocks found = true) ?_ place found h
  intro search ih place found h
  split at h
  · cases h
    exact ⟨0, rfl, ‹_›⟩
  · obtain ⟨k, hfound, hfree⟩ := ih _ _ h
    exact ⟨k + 1, hfound, hfree⟩

theorem firstFreeRight_of_free (h : isFree blocks place = true) : firstFreeRight blocks place = some place := by
  rw [firstFreeRight, if_pos h]

theorem firstFreeRight_isSome {k : Nat} (h : isFree blocks (shiftRight^[k] place) = true) :
    (firstFreeRight blocks place).isSome = true := by
  induction k generalizing place with
  | zero =>
    have hfree : isFree blocks place = true := h
    rw [firstFreeRight_of_free hfree]
    rfl
  | succ k ih =>
    rw [firstFreeRight]
    split
    · rfl
    · exact ih h

/-- A search to the right does not end exactly when every place on its way is taken. -/
theorem firstFreeRight_eq_none_iff :
    firstFreeRight blocks place = none ↔ ∀ k, isFree blocks (shiftRight^[k] place) = false := by
  constructor
  · intro h k
    rw [Bool.eq_false_iff]
    intro hfree
    have hends := firstFreeRight_isSome hfree
    rw [h] at hends
    cases hends
  · intro htaken
    rw [Option.eq_none_iff_forall_ne_some]
    intro found h
    obtain ⟨k, rfl, hfree⟩ := exists_steps_of_firstFreeRight h
    rw [htaken k] at hfree
    cases hfree

def below (source : Block K) : Position K where
  x := source.position.x
  y := source.position.y + ((stepY : Int) : K)

theorem positionBelow_eq_none_iff {source : Block K} :
    positionBelow source blocks = none ↔ ∀ k, isFree blocks (shiftRight^[k] (below source)) = false :=
  firstFreeRight_eq_none_iff

end

variable {p q : Position ℚ} {blocks : List (Block ℚ)} {cell : Nat → Position ℚ} {i : Nat}

def Overlap (p q : Position ℚ) : Prop :=
  |p.x - q.x| < 60 ∧ |p.y - q.y| < 60

instance (p q : Position ℚ) : Decidable (Overlap p q) :=
  inferInstanceAs (Decidable (_ ∧ _))

theorem near_iff {a b t : ℚ} : near a b t = true ↔ |a - b| < t := by
  have hsame : near a b t = (decide (a - b < t) && decide (-(a - b) < t)) := rfl
  rw [hsame, Bool.and_eq_true, decide_eq_true_iff, decide_eq_true_iff, abs_lt, neg_lt, and_comm]

theorem isFree_iff : isFree blocks p = true ↔ ∀ b ∈ blocks, ¬ Overlap b.position p := by
  have hproximity : ((proximity : Int) : ℚ) = 60 := by norm_num [proximity]
  have hfree : isFree blocks p = !isOccupied p blocks ((proximity : Int) : ℚ) := rfl
  rw [hfree, hproximity, Bool.not_eq_true', isOccupied, List.any_eq_false]
  refine forall₂_congr fun b _ => ?_
  rw [Bool.and_eq_true, near_iff, near_iff]
  rfl

/-- The number of the first free place. -/
structure IsFirstFree (blocks : List (Block ℚ)) (cell : Nat → Position ℚ) (i : Nat) : Prop where
  free : isFree blocks (cell i) = true
  taken : ∀ j < i, isFree blocks (cell j) = false

/-- Whether no place overlaps with two of several places. -/
def Apart (cell : Nat → Position ℚ) : Prop :=
  ∀ p i j, Overlap p (cell i) → Overlap p (cell j) → i = j

/-- Of one place more than there are blocks one is free, as every block is in the way of at most one. -/
theorem Apart.exists_free (h : Apart cell) (blocks : List (Block ℚ)) :
    ∃ i ≤ blocks.length, isFree blocks (cell i) = true := by
  by_contra hnone
  have htaken (i : Fin (blocks.length + 1)) : ∃ k : Fin blocks.length, Overlap (blocks.get k).position (cell i) := by
    by_contra hfree
    refine hnone ⟨i, Nat.le_of_lt_succ i.isLt, isFree_iff.mpr fun b hb hover => hfree ?_⟩
    obtain ⟨k, rfl⟩ := List.mem_iff_get.mp hb
    exact ⟨k, hover⟩
  choose blocker hblocker using htaken
  obtain ⟨i, j, hne, hsame⟩ := Fintype.exists_ne_map_eq_of_card_lt blocker (by simp)
  have hover := hblocker i
  rw [hsame] at hover
  exact hne (Fin.ext (h _ i j hover (hblocker j)))

theorem Apart.exists_isFirstFree (h : Apart cell) (blocks : List (Block ℚ)) :
    ∃ i ≤ blocks.length, IsFirstFree blocks cell i := by
  obtain ⟨n, hn, hfree⟩ := h.exists_free blocks
  have hex : ∃ i, isFree blocks (cell i) = true := ⟨n, hfree⟩
  refine ⟨Nat.find hex, Nat.le_trans (Nat.find_min' hex hfree) hn, Nat.find_spec hex, fun j hj => ?_⟩
  exact Bool.eq_false_iff.mpr (Nat.find_min hex hj)

theorem gridPosition_x (i : Int) : (gridPosition i : Position ℚ).x = 120 + (i.fmod 3 : Int) * 220 := by
  have hx : (gridPosition i : Position ℚ).x = ((120 : Int) : ℚ) + ((i.fmod 3 : Int) : ℚ) * ((220 : Int) : ℚ) := rfl
  rw [hx]
  norm_num

theorem gridPosition_y (i : Int) : (gridPosition i : Position ℚ).y = 80 + (i.fdiv 3 : Int) * 160 := by
  have hy : (gridPosition i : Position ℚ).y = ((80 : Int) : ℚ) + ((i.fdiv 3 : Int) : ℚ) * ((160 : Int) : ℚ) := rfl
  rw [hy]
  norm_num

theorem eq_of_near {a c d : ℚ} {m n : Int} (hstep : 120 ≤ d) (hm : |a - (c + m * d)| < 60)
    (hn : |a - (c + n * d)| < 60) : m = n := by
  rw [abs_lt] at hm hn
  have hlt : ((m - n : Int) : ℚ) * d < 120 := by push_cast; linarith
  have hgt : -120 < ((m - n : Int) : ℚ) * d := by push_cast; linarith
  by_contra hne
  rcases lt_or_gt_of_ne hne with h | h
  · have hle : ((m - n : Int) : ℚ) ≤ -1 := by exact_mod_cast (by omega : m - n ≤ -1)
    nlinarith
  · have hge : (1 : ℚ) ≤ ((m - n : Int) : ℚ) := by exact_mod_cast (by omega : 1 ≤ m - n)
    nlinarith

theorem eq_of_cell {i j : Nat} (hcolumn : (i : Int).fmod 3 = (j : Int).fmod 3)
    (hrow : (i : Int).fdiv 3 = (j : Int).fdiv 3) : i = j := by
  have hi := Int.mul_fdiv_add_fmod (i : Int) 3
  have hj := Int.mul_fdiv_add_fmod (j : Int) 3
  rw [hrow, hcolumn] at hi
  exact_mod_cast hi.symm.trans hj

theorem apart_gridPosition : Apart fun i => gridPosition (i : Int) := by
  intro p i j hi hj
  obtain ⟨hix, hiy⟩ := hi
  obtain ⟨hjx, hjy⟩ := hj
  rw [gridPosition_x] at hix hjx
  rw [gridPosition_y] at hiy hjy
  have hcolumn : (i : Int).fmod 3 = (j : Int).fmod 3 := eq_of_near (by norm_num) hix hjx
  have hrow : (i : Int).fdiv 3 = (j : Int).fdiv 3 := eq_of_near (by norm_num) hiy hjy
  exact eq_of_cell hcolumn hrow

theorem gridPosition_injective : Function.Injective fun i : Nat => (gridPosition (i : Int) : Position ℚ) := by
  intro i j hsame
  have hover (p : Position ℚ) : Overlap p p := by simp [Overlap]
  have hother : Overlap (gridPosition (i : Int)) (gridPosition (j : Int)) := by
    dsimp only at hsame
    rw [hsame]
    exact hover _
  exact apart_gridPosition _ i j (hover _) hother

theorem column_bounds (i : Nat) : 0 ≤ (i : Int).fmod 3 ∧ (i : Int).fmod 3 < 3 :=
  ⟨Int.fmod_nonneg_of_pos _ (by decide), Int.fmod_lt_of_pos _ (by decide)⟩

theorem row_bounds {i : Nat} (h : i < 2 ^ 47) : 0 ≤ (i : Int).fdiv 3 ∧ (i : Int).fdiv 3 * 3 < 2 ^ 47 := by
  rw [Int.fdiv_eq_ediv_of_nonneg _ (by decide)]
  omega

/-- In double precision the coordinates of a cell are exact, as long as they have no more than 53 digits. -/
theorem gridPosition_exact {i : Nat} (h : i < 2 ^ 47) : (gridPosition (i : Int) : Position Binary64) =
    ⟨.ofInt (120 + (i : Int).fmod 3 * 220), .ofInt (80 + (i : Int).fdiv 3 * 160)⟩ := by
  have hcell : (gridPosition (i : Int) : Position Binary64) =
      ⟨.ofInt 120 + .ofInt ((i : Int).fmod 3) * .ofInt 220, .ofInt 80 + .ofInt ((i : Int).fdiv 3) * .ofInt 160⟩ := rfl
  obtain ⟨hcolumn, hcolumn'⟩ := column_bounds i
  obtain ⟨hrow, hrow'⟩ := row_bounds h
  rw [hcell, Binary64.ofInt_mul (by omega) (by decide) hcolumn (by decide),
    Binary64.ofInt_mul (by omega) (by decide) hrow (by decide), Binary64.ofInt_add (by decide) (by omega),
    Binary64.ofInt_add (by decide) (by omega)]

theorem gridPosition_inj {i j : Nat} (hi : i < 2 ^ 47) (hj : j < 2 ^ 47)
    (h : (gridPosition (i : Int) : Position Binary64) = gridPosition (j : Int)) : i = j := by
  obtain ⟨hcolumn, hcolumn'⟩ := column_bounds i
  obtain ⟨hother, hother'⟩ := column_bounds j
  obtain ⟨hrow, hrow'⟩ := row_bounds hi
  obtain ⟨hbelow, hbelow'⟩ := row_bounds hj
  rw [gridPosition_exact hi, gridPosition_exact hj, Position.mk.injEq, Binary64.ofInt_inj (by omega) (by omega),
    Binary64.ofInt_inj (by omega) (by omega)] at h
  exact eq_of_cell (by omega) (by omega)

theorem nextFreePosition_eq (h : IsFirstFree blocks (fun i => gridPosition (i : Int)) i)
    (hi : i ≤ blocks.length) : nextFreePosition blocks = gridPosition (i : Int) := by
  have hfound : (List.range (blocks.length + 1)).find? (fun j : Nat => isFree blocks (gridPosition (j : Int))) = some i := by
    rw [List.find?_range_eq_some]
    refine ⟨h.free, List.mem_range.mpr (Nat.lt_succ_of_le hi), fun j hj => ?_⟩
    rw [h.taken j hj]
    rfl
  rw [nextFreePosition, hfound]
  rfl

def toTheRight (p : Position ℚ) (k : Nat) : Position ℚ :=
  { p with x := p.x + k * 220 }

def rowBelow (source : Block ℚ) : Nat → Position ℚ :=
  toTheRight { x := source.position.x, y := source.position.y + 160 }

theorem toTheRight_zero (p : Position ℚ) : toTheRight p 0 = p := by
  simp [toTheRight]

theorem toTheRight_shiftRight (p : Position ℚ) (k : Nat) : toTheRight (shiftRight p) k = toTheRight p (k + 1) := by
  have hx : (shiftRight p).x = p.x + ((220 : Int) : ℚ) := rfl
  have hy : (shiftRight p).y = p.y := rfl
  unfold toTheRight
  rw [hx, hy]
  congr 1
  push_cast
  ring

theorem apart_toTheRight (p : Position ℚ) : Apart (toTheRight p) := by
  intro q i j hi hj
  have hsame : (i : Int) = j := eq_of_near (a := q.x) (c := p.x) (d := 220) (by norm_num) hi.1 hj.1
  exact_mod_cast hsame

/-- A search that goes to the right ends at the first free place. -/
theorem firstFreeRight_eq (h : IsFirstFree blocks (toTheRight p) i) :
    firstFreeRight blocks p = some (toTheRight p i) := by
  induction i generalizing p with
  | zero =>
    have hfree := h.free
    rw [toTheRight_zero] at hfree ⊢
    exact firstFreeRight_of_free hfree
  | succ i ih =>
    have htaken := h.taken 0 (Nat.succ_pos i)
    rw [toTheRight_zero] at htaken
    rw [firstFreeRight, htaken, if_neg Bool.false_ne_true, ← toTheRight_shiftRight]
    refine ih ⟨?_, fun j hj => ?_⟩
    · rw [toTheRight_shiftRight]
      exact h.free
    · rw [toTheRight_shiftRight]
      exact h.taken (j + 1) (Nat.succ_lt_succ hj)

theorem positionBelow_eq {source : Block ℚ} (h : IsFirstFree blocks (rowBelow source) i) :
    positionBelow source blocks = some (rowBelow source i) := by
  have hstart : positionBelow source blocks = firstFreeRight blocks
      { x := source.position.x, y := source.position.y + ((160 : Int) : ℚ) } := rfl
  rw [hstart, Int.cast_ofNat]
  exact firstFreeRight_eq h

/-- Both searches go over at most as many places as there are blocks, all of them taken, to the first that is free. -/
theorem exists_nextFreePosition (blocks : List (Block ℚ)) : ∃ i ≤ blocks.length,
    IsFirstFree blocks (fun i => gridPosition (i : Int)) i ∧ nextFreePosition blocks = gridPosition (i : Int) := by
  obtain ⟨i, hi, hfirst⟩ := apart_gridPosition.exists_isFirstFree blocks
  exact ⟨i, hi, hfirst, nextFreePosition_eq hfirst hi⟩

theorem exists_positionBelow (source : Block ℚ) (blocks : List (Block ℚ)) : ∃ k ≤ blocks.length,
    IsFirstFree blocks (rowBelow source) k ∧ positionBelow source blocks = some (rowBelow source k) := by
  obtain ⟨k, hk, hfirst⟩ := (apart_toTheRight _).exists_isFirstFree blocks
  exact ⟨k, hk, hfirst, positionBelow_eq hfirst⟩

end Layout
end Switchboard
