import Switchboard.PhoneNumber
import Switchboard.Proofs.Text.Blank

/-! # Normal forms of phone numbers

A normal form is either a trimmed text without digits and plus signs, or it holds digits only, after at most one
plus sign. In both cases it is its own normal form. The digits are those of the text, in order, and the plus sign tells
which of the two comes first in it.
-/
namespace Switchboard.PhoneNumber

open Switchboard.Text

theorem isBlank_eq_false_of_significant {c : Char} (h : isSignificant c = true) : isBlank c = false := by
  rw [isSignificant, Bool.or_eq_true] at h
  rcases h with hdigit | hplus
  · exact isBlank_eq_false_of_digit hdigit
  · rw [beq_iff_eq.mp hplus]
    decide

theorem normalForm_of_none {s : List Char} (h : (trimBy isBlank s).filter isSignificant = []) :
    normalForm s = trimBy isBlank s := by
  simp only [normalForm, h]

theorem normalForm_of_some {s : List Char} {c : Char} {rest : List Char}
    (h : (trimBy isBlank s).filter isSignificant = c :: rest) : normalForm s = c :: rest.filter (· != '+') := by
  simp only [normalForm, h]

theorem normalForm_normalForm (s : List Char) : normalForm (normalForm s) = normalForm s := by
  cases h : (trimBy isBlank s).filter isSignificant with
  | nil =>
    have htrim := trimBy_trimBy isBlank s
    rw [normalForm_of_none h, normalForm_of_none (by rw [htrim, h]), htrim]
  | cons c rest =>
    rw [normalForm_of_some h]
    have hsignificant : ∀ d ∈ c :: rest.filter (· != '+'), isSignificant d = true := by
      intro d hd
      have hmem : d ∈ c :: rest := List.cons_subset_cons c (List.filter_subset_self rest) hd
      rw [← h] at hmem
      exact (List.mem_filter.mp hmem).2
    have htrim : trimBy isBlank (c :: rest.filter (· != '+')) = c :: rest.filter (· != '+') :=
      trimBy_eq_self_of_forall fun d hd => isBlank_eq_false_of_significant (hsignificant d hd)
    have hkept : (trimBy isBlank (c :: rest.filter (· != '+'))).filter isSignificant =
        c :: rest.filter (· != '+') := by
      rw [htrim]
      exact List.filter_eq_self.mpr hsignificant
    rw [normalForm_of_some hkept, List.filter_filter]
    simp

theorem isDecimalDigit_eq_ne_plus {c : Char} (h : isSignificant c = true) : isDecimalDigit c = (c != '+') := by
  have hplus : isDecimalDigit '+' = false := by decide
  by_cases hc : c = '+'
  · rw [hc, hplus, bne_self_eq_false]
  · rw [isSignificant, beq_eq_false_iff_ne.mpr hc, Bool.or_false] at h
    rw [h, bne_iff_ne.mpr hc]

theorem filter_isDecimalDigit (s : List Char) :
    (s.filter isSignificant).filter isDecimalDigit = s.filter isDecimalDigit := by
  rw [List.filter_filter]
  refine List.filter_congr fun c _ => ?_
  cases hdigit : isDecimalDigit c with
  | false => rfl
  | true => rw [isSignificant, hdigit, Bool.true_or, Bool.and_self]

theorem normalForm_of_find?_eq_none {s : List Char} (h : s.find? isSignificant = none) :
    normalForm s = trimBy isBlank s := by
  refine normalForm_of_none ?_
  rw [filter_trimBy fun c hc => isBlank_eq_false_of_significant hc]
  exact List.filter_eq_nil_iff.mpr (List.find?_eq_none.mp h)

theorem normalForm_of_find?_eq_some {s : List Char} {c : Char} (h : s.find? isSignificant = some c) :
    normalForm s = (if c = '+' then ['+'] else []) ++ s.filter isDecimalDigit := by
  obtain ⟨rest, hrest⟩ : ∃ rest, s.filter isSignificant = c :: rest := by
    rw [← List.head?_filter] at h
    exact ⟨_, List.eq_cons_of_mem_head? h⟩
  have hsignificant : ∀ d ∈ c :: rest, isSignificant d = true := by
    rw [← hrest]
    exact fun d hd => (List.mem_filter.mp hd).2
  have hdigits : rest.filter (· != '+') = rest.filter isDecimalDigit :=
    List.filter_congr fun d hd => (isDecimalDigit_eq_ne_plus (hsignificant d (List.mem_cons_of_mem c hd))).symm
  have hfirst := isDecimalDigit_eq_ne_plus (hsignificant c List.mem_cons_self)
  rw [normalForm_of_some (by rw [filter_trimBy fun d hd => isBlank_eq_false_of_significant hd, hrest]), hdigits,
    ← filter_isDecimalDigit s, hrest, List.filter_cons, hfirst]
  by_cases hc : c = '+' <;> simp [hc]

variable {t : Text}

theorem filter_chars_trim (t : Text) : t.trim.chars.filter isSignificant = t.chars.filter isSignificant := by
  rw [filter_chars, filter_chars, symbols_trim, filter_trimBy]
  intro symbol hsignificant
  cases symbol with
  | half d => rfl
  | char c => exact isBlank_eq_false_of_significant hsignificant

/-- The normal form of a text without digits and plus signs. -/
theorem normalize_of_find?_eq_none (h : t.chars.find? isSignificant = none) : normalize t = t.trim := by
  cases t with
  | plain s =>
    have hform : normalForm s.toList = trimBy isBlank s.toList := normalForm_of_find?_eq_none h
    rw [normalize, normalizeString, hform]
    rfl
  | loose symbols hasHalf =>
    have hnone : (loose symbols hasHalf).chars.any isSignificant = false := by
      simpa [List.find?_eq_none, List.any_eq_false] using h
    rw [normalize, if_neg (by rw [hnone]; exact Bool.false_ne_true)]

theorem normalize_of_find?_eq_some {c : Char} (h : t.chars.find? isSignificant = some c) :
    normalize t = String.ofList ((if c = '+' then ['+'] else []) ++ t.chars.filter isDecimalDigit) := by
  rw [← normalForm_of_find?_eq_some h]
  cases t with
  | plain s => rfl
  | loose symbols hasHalf =>
    have hsome : (loose symbols hasHalf).chars.any isSignificant = true :=
      List.any_eq_true.mpr ⟨c, List.mem_of_find?_eq_some h, List.find?_some h⟩
    rw [normalize, if_pos hsome]

theorem find?_chars_trim (t : Text) : t.trim.chars.find? isSignificant = t.chars.find? isSignificant := by
  rw [← List.head?_filter, filter_chars_trim, List.head?_filter]

theorem normalize_normalize (t : Text) : normalize (normalize t) = normalize t := by
  cases h : t.chars.find? isSignificant with
  | none =>
    rw [normalize_of_find?_eq_none h, normalize_of_find?_eq_none (by rw [find?_chars_trim, h]), trim_trim]
  | some c =>
    rw [normalize_of_find?_eq_some h, ← normalForm_of_find?_eq_some h, normalize, normalizeString, String.toList_ofList,
      normalForm_normalForm]

def IsNormal (number : Text) : Prop := normalize number = number

theorem IsNormal.eq {number : Text} (h : IsNormal number) : normalize number = number := h

theorem isNormal_normalize (number : Text) : IsNormal (normalize number) := normalize_normalize number

end Switchboard.PhoneNumber
