import Switchboard.Proofs.Text.Basic
import Switchboard.Text.Blank
import Switchboard.Text.DecimalDigit
import Mathlib.Data.List.DropRight

/-! # Texts that are trimmed

A trimmed text neither begins nor ends with a blank, so trimming it once more changes nothing. No decimal digit of
any script is a blank.
-/
namespace Switchboard.Text

variable {α : Type} {p : α → Bool} {s : List α}

theorem trimEnd_eq (p : α → Bool) (s : List α) : trimEnd p s = s.rdropWhile p := rfl

theorem trimBy_eq_self (hfirst : ∀ c, s.head? = some c → p c = false)
    (hlast : ∀ c, s.getLast? = some c → p c = false) : trimBy p s = s := by
  have hdrop : s.dropWhile p = s := by
    cases s with
    | nil => rfl
    | cons c rest => rw [List.dropWhile_cons_of_neg (by simp [hfirst c rfl])]
  rw [trimBy, hdrop, trimEnd_eq, List.rdropWhile_eq_self_iff]
  intro hne hblank
  rw [hlast _ (List.getLast?_eq_some_getLast hne)] at hblank
  cases hblank

theorem trimBy_eq_self_of_forall (h : ∀ c ∈ s, p c = false) : trimBy p s = s :=
  trimBy_eq_self (fun c hc => h c (List.mem_of_head? hc)) fun c hc => h c (List.mem_of_getLast? hc)

theorem trimBy_trimBy (p : α → Bool) (s : List α) : trimBy p (trimBy p s) = trimBy p s := by
  apply trimBy_eq_self
  · intro c hc
    obtain ⟨dropped, hdropped⟩ := List.rdropWhile_prefix p (l := s.dropWhile p)
    have hhead : (s.dropWhile p).head? = some c := by
      rw [← hdropped, List.head?_append]
      rw [trimBy, trimEnd_eq] at hc
      rw [hc]
      rfl
    have hfirst := List.head?_dropWhile_not p s
    rw [hhead] at hfirst
    simpa using hfirst
  · intro c hc
    have hlast := List.head?_dropWhile_not p (s.dropWhile p).reverse
    rw [trimBy, trimEnd, List.getLast?_reverse] at hc
    rw [hc] at hlast
    simpa using hlast

theorem filter_trimBy {kept : α → Bool} (h : ∀ c, kept c = true → p c = false) (s : List α) :
    (trimBy p s).filter kept = s.filter kept := by
  have hfront (t : List α) : (t.dropWhile p).filter kept = t.filter kept := by
    have hblank : (t.takeWhile p).filter kept = [] := by
      refine List.filter_eq_nil_iff.mpr fun c hc hkept => ?_
      have hdropped := List.mem_takeWhile_imp hc
      rw [h c hkept] at hdropped
      cases hdropped
    conv_rhs => rw [← List.takeWhile_append_dropWhile (p := p) (l := t)]
    rw [List.filter_append, hblank, List.nil_append]
  rw [trimBy, trimEnd, List.filter_reverse, hfront, ← List.filter_reverse, List.reverse_reverse, hfront]

theorem trimBy_map {β : Type} (f : β → α) (p : α → Bool) (s : List β) :
    trimBy p (s.map f) = (trimBy (p ∘ f) s).map f := by
  simp only [trimBy, trimEnd, List.dropWhile_map, ← List.map_reverse]

def isBlankSymbol (symbol : Symbol) : Bool :=
  symbol.char?.any isBlank

theorem symbols_trim (t : Text) : t.trim.symbols = trimBy isBlankSymbol t.symbols := by
  cases t with
  | plain s =>
    rw [symbols, trimBy_map, trim, trimString, symbols, String.toList_ofList]
    rfl
  | loose symbols h => exact symbols_ofSymbols _

theorem trim_trim (t : Text) : t.trim.trim = t.trim := by
  rw [← symbols_inj, symbols_trim, symbols_trim, trimBy_trimBy]

/-- No half is taken away with a character, so a text is a string without its end if it is one with it. -/
theorem isPlain_dropTrailing (d : Char) (t : Text) : (dropTrailing d t).isPlain = t.isPlain := by
  cases t with
  | plain s => rfl
  | loose symbols h =>
    have hfront (symbols : List Symbol) :
        (symbols.dropWhile (· == .char d)).any Symbol.isHalf = symbols.any Symbol.isHalf := by
      induction symbols with
      | nil => rfl
      | cons symbol rest ih =>
        rw [List.dropWhile_cons]
        split
        · next hsame =>
          rw [ih, List.any_cons, beq_iff_eq.mp hsame]
          rfl
        · rfl
    have hkept : (trimEnd (· == .char d) symbols).any Symbol.isHalf = true := by
      rw [trimEnd, List.any_reverse, hfront, List.any_reverse, h]
    rw [dropTrailing, ofSymbols, dif_pos hkept]
    rfl

/-- What a text does not end with, it is given back without however often it is put behind it. -/
theorem dropTrailingString_append_replicate {d : Char} {s : List Char} (h : ∀ c, s.getLast? = some c → c ≠ d)
    (count : Nat) :
    dropTrailingString d (String.ofList s ++ String.ofList (List.replicate count d)) = String.ofList s := by
  have hreverse : (s ++ List.replicate count d).reverse = List.replicate count d ++ s.reverse := by
    rw [List.reverse_append, List.reverse_replicate]
  have hdropped : (List.replicate count d ++ s.reverse).dropWhile (· == d) = s.reverse := by
    rw [List.dropWhile_append_of_pos fun c hc => beq_iff_eq.mpr (List.eq_of_mem_replicate hc)]
    cases hlast : s.reverse with
    | nil => rfl
    | cons c rest =>
      have hc : c ≠ d := h c (by rw [← List.head?_reverse, hlast]; rfl)
      rw [List.dropWhile_cons_of_neg (by simpa using hc)]
  rw [dropTrailingString, String.toList_append, String.toList_ofList, String.toList_ofList, trimEnd, hreverse, hdropped,
    List.reverse_reverse]

theorem isPlain_trim {t : Text} (h : t.isPlain = true) : (trim t).isPlain = true := by
  obtain ⟨s, rfl⟩ := isPlain_iff.mp h
  rfl

def blankRanges : List (Nat × Nat) :=
  [(9, 13), (0x1c, 0x20), (0x85, 0x85), (0xa0, 0xa0), (0x1680, 0x1680), (0x2000, 0x200a), (0x2028, 0x2029),
    (0x202f, 0x202f), (0x205f, 0x205f), (0x3000, 0x3000)]

theorem mem_blankRanges {c : Char} (h : isBlank c = true) :
    ∃ range ∈ blankRanges, range.1 ≤ c.toNat ∧ c.toNat ≤ range.2 := by
  simp only [isBlank, isWhiteSpace, isAsciiBlank, Bool.or_eq_true, Bool.and_eq_true, decide_eq_true_eq,
    ← Char.toNat_inj, Char.reduceToNat] at h
  simp only [blankRanges, List.mem_cons, List.not_mem_nil, or_false, exists_eq_or_imp, exists_eq_left]
  omega

theorem isBlank_eq_false_of_ascii {c : Char} (hlow : 0x20 < c.toNat) (hhigh : c.toNat < 0x80) : isBlank c = false := by
  by_contra hblank
  obtain ⟨range, hrange, hfirst, hlast⟩ := mem_blankRanges (by simpa using hblank)
  have hapart : blankRanges.all (fun range => range.2 ≤ 0x20 || 0x80 ≤ range.1) = true := by decide
  have hrange := List.all_eq_true.mp hapart range hrange
  simp only [Bool.or_eq_true, decide_eq_true_eq] at hrange
  omega

theorem digitZeros_apart : digitZeros.all (fun z => blankRanges.all fun range =>
    z + 10 ≤ range.1 || range.2 < z) = true := by decide

theorem isBlank_eq_false_of_digit {c : Char} (h : isDecimalDigit c = true) : isBlank c = false := by
  by_contra hblank
  obtain ⟨range, hrange, hlow, hhigh⟩ := mem_blankRanges (by simpa using hblank)
  obtain ⟨z, hz, hdigit⟩ := List.any_eq_true.mp h
  have hapart := List.all_eq_true.mp (List.all_eq_true.mp digitZeros_apart z hz) range hrange
  simp only [Bool.and_eq_true, Bool.or_eq_true, decide_eq_true_eq] at hdigit hapart
  omega

end Switchboard.Text
