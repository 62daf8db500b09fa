import Switchboard.Text.Part
import Mathlib.Data.List.Basic

/-! # Texts with parts replaced

A part whose first character is not in a stretch of a text does not begin there, so the stretch is passed over. Each
occurrence that is replaced changes the length by the same amount: unless part and replacement have one length, only a
text without the part is left as it is.
-/
namespace Switchboard.Text

variable {α : Type} [DecidableEq α] {c : α} {part replacement s : List α}

theorem holdsPart_append_of_not_mem (h : c ∉ s) (part t : List α) :
    holdsPart (c :: part) (s ++ t) = holdsPart (c :: part) t := by
  induction s with
  | nil => rfl
  | cons d s ih =>
    rw [List.mem_cons, not_or] at h
    rw [List.cons_append, holdsPart, List.isPrefixOf_cons_cons, beq_eq_false_iff_ne.mpr h.1, ih h.2]
    rfl

theorem replaceFrom_append_of_not_mem (h : c ∉ s) (part replacement t : List α) :
    replaceFrom (c :: part) replacement 0 (s ++ t) = s ++ replaceFrom (c :: part) replacement 0 t := by
  induction s with
  | nil => rfl
  | cons d s ih =>
    rw [List.mem_cons, not_or] at h
    have hhere : (c :: part).isPrefixOf (d :: (s ++ t)) = false := by
      rw [List.isPrefixOf_cons_cons, beq_eq_false_iff_ne.mpr h.1]
      rfl
    rw [List.cons_append, replaceFrom, hhere, ih h.2]
    rfl

theorem replaceFrom_skip (part replacement s t : List α) :
    replaceFrom part replacement s.length (s ++ t) = replaceFrom part replacement 0 t := by
  induction s with
  | nil => rfl
  | cons d s ih => rw [List.cons_append, List.length_cons, replaceFrom, ih]

/-- An occurrence at the front is replaced, and what comes after it as by itself. -/
theorem replaceFrom_part_append (hpart : part ≠ []) (replacement t : List α) :
    replaceFrom part replacement 0 (part ++ t) = replacement ++ replaceFrom part replacement 0 t := by
  obtain ⟨c, rest, rfl⟩ := List.exists_cons_of_ne_nil hpart
  have hhere : (c :: rest).isPrefixOf (c :: (rest ++ t)) = true :=
    List.isPrefixOf_iff_prefix.mpr (List.prefix_append (c :: rest) t)
  rw [List.cons_append, replaceFrom, hhere, if_pos rfl, List.length_cons, Nat.add_sub_cancel, replaceFrom_skip]

theorem replaceFrom_eq_self (replacement : List α) (h : holdsPart part s = false) :
    replaceFrom part replacement 0 s = s := by
  induction s with
  | nil => rfl
  | cons d s ih =>
    rw [holdsPart, Bool.or_eq_false_iff] at h
    rw [replaceFrom, h.1, ih h.2]
    rfl

theorem holdsPart_of_isPrefixOf (h : part.isPrefixOf s = true) : holdsPart part s = true := by
  cases s with
  | nil => rwa [holdsPart, List.isEmpty_iff, ← List.prefix_nil, ← List.isPrefixOf_iff_prefix]
  | cons d s => rw [holdsPart, h, Bool.true_or]

theorem length_replaceFrom (hpart : part ≠ []) (replacement s : List α) :
    ∃ count, (count = 0 ↔ holdsPart part s = false) ∧
      (replaceFrom part replacement 0 s).length + count * part.length = s.length + count * replacement.length := by
  -- by the length of the text, as the rest of it after an occurrence is taken next
  induction hlength : s.length using Nat.strongRecOn generalizing s with
  | ind n ih =>
    by_cases hhere : part.isPrefixOf s = true
    · obtain ⟨t, rfl⟩ := List.isPrefixOf_iff_prefix.mp hhere
      have hpositive : 0 < part.length := List.length_pos_of_ne_nil hpart
      rw [List.length_append] at hlength
      obtain ⟨count, -, hcount⟩ := ih t.length (by omega) t rfl
      refine ⟨count + 1, ?_, ?_⟩
      · simp [holdsPart_of_isPrefixOf hhere]
      · rw [replaceFrom_part_append hpart, List.length_append, Nat.add_mul, Nat.add_mul]
        omega
    · rw [Bool.not_eq_true] at hhere
      cases s with
      | nil => exact ⟨0, by simpa [holdsPart] using hpart, by simpa [replaceFrom] using hlength⟩
      | cons d s =>
        rw [List.length_cons] at hlength
        obtain ⟨count, hholds, hcount⟩ := ih s.length (by omega) s rfl
        refine ⟨count, ?_, ?_⟩
        · rw [holdsPart, hhere, Bool.false_or, hholds]
        · rw [replaceFrom, hhere, if_neg Bool.false_ne_true, List.length_cons]
          omega

theorem replaceFrom_eq_self_iff (hpart : part ≠ []) (hlength : part.length ≠ replacement.length) :
    replaceFrom part replacement 0 s = s ↔ holdsPart part s = false := by
  refine ⟨fun hsame => ?_, replaceFrom_eq_self replacement⟩
  obtain ⟨count, hholds, hcount⟩ := length_replaceFrom hpart replacement s
  rw [hsame] at hcount
  refine hholds.mp ?_
  by_contra hne
  exact hlength (Nat.eq_of_mul_eq_mul_left (Nat.pos_of_ne_zero hne) (Nat.add_left_cancel hcount))

end Switchboard.Text
