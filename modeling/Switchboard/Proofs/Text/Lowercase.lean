import Switchboard.Text.Lowercase

/-! # Texts that are in lower case

Between the ASCII capitals and the next run of capitals no character has another lower-case form. A text of such
characters, like every name that the program gives, is its own lower case.
-/
namespace Switchboard.Text

/-- Whether a character is between the ASCII capitals and the next capitals. -/
def isSmall (c : Char) : Bool := 0x5a < c.toNat && c.toNat < 0xc0

def CapitalRun.isApart (r : CapitalRun) : Bool := r.last ≤ 0x5a || 0xc0 ≤ r.first

theorem capitalRuns_isApart : capitalRuns.toList.all CapitalRun.isApart = true := by
  decide +kernel

theorem CapitalRun.has_eq_false {r : CapitalRun} (hr : r.isApart = true) {c : Char} (hc : isSmall c = true) :
    r.has c.toNat = false := by
  simp only [isSmall, Bool.and_eq_true, decide_eq_true_eq] at hc
  simp only [isApart, Bool.or_eq_true, decide_eq_true_eq] at hr
  simp only [has, Bool.and_eq_false_iff, decide_eq_false_iff_not]
  omega

theorem find?_eq_none_of_isApart {runs : Array CapitalRun} (hr : runs.toList.all CapitalRun.isApart = true)
    {c : Char} (hc : isSmall c = true) : runs.find? (fun r => r.has c.toNat) = none := by
  refine Array.find?_eq_none.mpr fun r hmem => ?_
  rw [CapitalRun.has_eq_false (List.all_eq_true.mp hr r (Array.mem_toList_iff.mpr hmem)) hc]
  exact Bool.false_ne_true

theorem lowerChar_eq_self {c : Char} (hc : isSmall c = true) : lowerChar c = c := by
  unfold lowerChar
  rw [find?_eq_none_of_isApart capitalRuns_isApart hc]

theorem lowerAfter_eq_self (before : List Char) {s : List Char} (h : s.all isSmall = true) :
    lowerAfter before s = s := by
  induction s generalizing before with
  | nil => rfl
  | cons c rest ih =>
    rw [List.all_cons, Bool.and_eq_true] at h
    obtain ⟨hc, hrest⟩ := h
    have hsigma : c ≠ '\u03a3' := by
      rintro rfl
      exact absurd hc (by decide)
    have hdotted : c ≠ '\u0130' := by
      rintro rfl
      exact absurd hc (by decide)
    rw [lowerAfter, if_neg hsigma, if_neg hdotted, lowerChar_eq_self hc, ih _ hrest, List.singleton_append]

theorem lowercase_eq_self {s : String} (h : s.toList.all isSmall = true) : lowercase s = s := by
  rw [lowercase, lowerAfter_eq_self [] h, String.ofList_toList]

end Switchboard.Text
