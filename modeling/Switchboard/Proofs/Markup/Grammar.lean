import Mathlib.Data.List.Infix
import Switchboard.Markup.Element
import Switchboard.Markup.Reference

/-! # Well-formed markup

The grammar of documents, as far as scripts make use of it: a declaration and one root, tags that match, attributes
with distinct names, and legal characters only. The marks that open a tag or a reference stand for nothing else.
Comments, instructions, marked sections and document types, of which scripts have none, are left out.
-/
namespace Switchboard.Markup

/-- Whether what stands between the marks of a reference tells a character: by its number, or as an entity that has
one of its own. -/
def tellsChar (word : List Char) : Bool :=
  match Piece.ofReference? word with
  | some (.numbered _) => true
  | some (.entity name) => (predefined? name).isSome
  | _ => false

inductive IsValue : List Char → Prop where
  | nil : IsValue []
  | char {c : Char} {rest : List Char} (legal : isLegal c = true) (plain : c ≠ '<' ∧ c ≠ '&' ∧ c ≠ '"')
      (others : IsValue rest) : IsValue (c :: rest)
  | reference {word rest : List Char} (tells : tellsChar word = true) (others : IsValue rest) :
      IsValue ('&' :: (word ++ ';' :: rest))

inductive AreAttributes : List (List Char) → List Char → Prop where
  | nil : AreAttributes [] []
  | cons {name text rest : List Char} {names : List (List Char)} (named : isName name = true)
      (fresh : name ∉ names) (value : IsValue text) (others : AreAttributes names rest) :
      AreAttributes (name :: names) (' ' :: (name ++ '=' :: '"' :: (text ++ '"' :: rest)))

/-- The two kinds of stretches of a document that hold each other. -/
inductive Part where
  | element
  | content

/-- The stretches of a document. In a text the three characters that end a marked section do not stand together. -/
inductive Derives : Part → List Char → Prop where
  | empty {name attributes blank : List Char} {names : List (List Char)} (named : isName name = true)
      (given : AreAttributes names attributes) (spaced : blank.all isSpace = true) :
      Derives .element ('<' :: (name ++ (attributes ++ (blank ++ ['/', '>']))))
  | full {name attributes body : List Char} {names : List (List Char)} (named : isName name = true)
      (given : AreAttributes names attributes) (inner : Derives .content body) :
      Derives .element ('<' :: (name ++ (attributes ++ '>' :: (body ++ '<' :: '/' :: (name ++ ['>'])))))
  | nil : Derives .content []
  | char {c : Char} {rest : List Char} (legal : isLegal c = true) (plain : c ≠ '<' ∧ c ≠ '&')
      (unended : ¬ [']', ']', '>'] <+: c :: rest) (others : Derives .content rest) : Derives .content (c :: rest)
  | reference {word rest : List Char} (tells : tellsChar word = true) (others : Derives .content rest) :
      Derives .content ('&' :: (word ++ ';' :: rest))
  | child {element rest : List Char} (first : Derives .element element) (others : Derives .content rest) :
      Derives .content (element ++ rest)

def IsDocument (s : String) : Prop :=
  ∃ root, Derives .element root ∧ s.toList = declaration.toList ++ root

theorem isLegal_iff {c : Char} : isLegal c = true ↔ c.toNat = 9 ∨ c.toNat = 10 ∨ c.toNat = 13 ∨
    (32 ≤ c.toNat ∧ c.toNat ≤ 65533) ∨ 65536 ≤ c.toNat := by
  simp [isLegal, or_assoc]

theorem isLegal_of_bounds {c : Char} (h : 32 ≤ c.toNat ∧ c.toNat ≤ 65533) : isLegal c = true :=
  isLegal_iff.mpr (.inr (.inr (.inr (.inl h))))

theorem isLegal_between {a b c : Char} (ha : a ≤ c) (hb : c ≤ b) (hbounds : 32 ≤ a.toNat ∧ b.toNat ≤ 65533) :
    isLegal c = true :=
  isLegal_of_bounds ⟨hbounds.1.trans ha, Nat.le_trans hb hbounds.2⟩

theorem isLegal_of_isAlphanum {c : Char} (h : c.isAlphanum = true) : isLegal c = true := by
  replace h : ((decide ('A' ≤ c ∧ c ≤ 'Z') || (decide ('a' ≤ c) && decide (c ≤ 'z'))) ||
      (decide ('0' ≤ c) && decide (c ≤ '9'))) = true := h
  simp only [Bool.or_eq_true, Bool.and_eq_true, decide_eq_true_eq] at h
  rcases h with (⟨ha, hb⟩ | ⟨ha, hb⟩) | ⟨ha, hb⟩ <;> exact isLegal_between ha hb (by decide)

theorem isLegal_of_isSpace {c : Char} (h : isSpace c = true) : isLegal c = true := by
  simp only [isSpace, Bool.or_eq_true, decide_eq_true_eq] at h
  rcases h with ((rfl | rfl) | rfl) | rfl <;> decide

theorem toNat_of_isWithin {ranges : Array (Nat × Nat)} {bound : Nat}
    (h : ranges.toList.all (·.2 ≤ bound) = true) {c : Char} (hc : isWithin ranges c = true) : c.toNat ≤ bound := by
  rw [isWithin, ← Array.any_toList] at hc
  obtain ⟨range, hrange, hwithin⟩ := List.any_eq_true.mp hc
  have hbound := List.all_eq_true.mp h range hrange
  simp only [Bool.and_eq_true, decide_eq_true_eq] at hwithin hbound
  omega

theorem isLegal_of_isNameChar {c : Char} (h : isNameChar c = true) : isLegal c = true := by
  have hstart : nameStartRanges.toList.all (·.2 ≤ 65533) = true := by decide +kernel
  have htail : nameTailRanges.toList.all (·.2 ≤ 65533) = true := by decide +kernel
  have hwithin {ranges : Array (Nat × Nat)} (hranges : ranges.toList.all (·.2 ≤ 65533) = true)
      (hc : 128 ≤ c.toNat ∧ isWithin ranges c = true) : isLegal c = true :=
    isLegal_of_bounds ⟨by omega, toNat_of_isWithin hranges hc.2⟩
  simp only [isNameChar, isNameStart, Bool.or_eq_true, Bool.and_eq_true, decide_eq_true_eq] at h
  rcases h with ((((((halpha | rfl) | hc) | hdigit) | rfl) | rfl) | hc)
  · exact isLegal_of_isAlphanum (Bool.or_eq_true_iff.mpr (.inl halpha))
  · decide
  · exact hwithin hstart hc
  · exact isLegal_of_isAlphanum (Bool.or_eq_true_iff.mpr (.inr hdigit))
  · decide
  · decide
  · exact hwithin htail hc

theorem legal_of_isName {name : List Char} (h : isName name = true) : name.all isLegal = true := by
  rw [isName, Bool.and_eq_true, List.all_eq_true] at h
  exact List.all_eq_true.mpr fun c hc => isLegal_of_isNameChar (h.2 c hc)

theorem isLegal_of_digitOf? {base n : Nat} {c : Char} (h : digitOf? base c = some n) : isLegal c = true := by
  unfold digitOf? at h
  split at h
  · rename_i hdigit
    exact isLegal_of_isAlphanum (Bool.or_eq_true_iff.mpr (.inr hdigit))
  split at h
  · rename_i hlower
    simp only [Bool.and_eq_true, decide_eq_true_eq] at hlower
    exact isLegal_between hlower.1.2 hlower.2 (by decide)
  split at h
  · rename_i hupper
    simp only [Bool.and_eq_true, decide_eq_true_eq] at hupper
    exact isLegal_between hupper.1.2 hupper.2 (by decide)
  · cases h

theorem digits_of_numberOf? {base n : Nat} {digits : List Char} (h : numberOf? base digits = some n) :
    ∀ c ∈ digits, (digitOf? base c).isSome = true := by
  have hnone (rest : List Char) : rest.foldl (fun (n? : Option Nat) c => do
      let n := (← n?) * base + (← digitOf? base c)
      if n < 0x110000 then some n else none) none = none := by
    induction rest with
    | nil => rfl
    | cons c rest ih => exact ih
  unfold numberOf? at h
  split at h
  · cases h
  -- the value of the digits before may be any
  generalize some 0 = before at h
  clear * - h hnone
  induction digits generalizing before with
  | nil => simp
  | cons c rest ih =>
    intro d hd
    rw [List.foldl_cons] at h
    rcases List.mem_cons.mp hd with rfl | hd
    · cases hdigit : digitOf? base d with
      | some m => rfl
      | none =>
        have hfailed : (do
            let n := (← before) * base + (← digitOf? base d)
            if n < 0x110000 then some n else none : Option Nat) = none := by
          cases before <;> simp [hdigit]
        rw [hfailed, hnone] at h
        cases h
    · exact ih _ h d hd

theorem legal_of_ofReference? {word : List Char} {piece : Piece} (h : Piece.ofReference? word = some piece) :
    word.all isLegal = true := by
  have hmarks : isLegal '#' = true ∧ isLegal 'x' = true := by decide
  have hdigits {base n : Nat} {digits : List Char} (hn : numberOf? base digits = some n) :
      digits.all isLegal = true := by
    refine List.all_eq_true.mpr fun c hc => ?_
    obtain ⟨m, hm⟩ := Option.isSome_iff_exists.mp (digits_of_numberOf? hn c hc)
    exact isLegal_of_digitOf? hm
  unfold Piece.ofReference? at h
  split at h
  · simp only [Option.map_eq_some_iff, Option.bind_eq_some_iff] at h
    obtain ⟨c, ⟨n, hn, -⟩, -⟩ := h
    simp [hdigits hn, hmarks]
  · simp only [Option.map_eq_some_iff, Option.bind_eq_some_iff] at h
    obtain ⟨c, ⟨n, hn, -⟩, -⟩ := h
    simp [hdigits hn, hmarks]
  · split at h
    · rename_i hname
      exact legal_of_isName hname
    · cases h

theorem legal_of_tellsChar {word : List Char} (h : tellsChar word = true) : word.all isLegal = true := by
  cases hpiece : Piece.ofReference? word with
  | none =>
    rw [tellsChar, hpiece] at h
    cases h
  | some piece => exact legal_of_ofReference? hpiece

theorem IsValue.legal {s : List Char} (h : IsValue s) : s.all isLegal = true := by
  have hmarks : isLegal '&' = true ∧ isLegal ';' = true := by decide
  induction h with
  | nil => rfl
  | char legal plain others ih => simp [legal, ih]
  | reference tells others ih => simp [legal_of_tellsChar tells, hmarks, ih]

theorem AreAttributes.legal {names : List (List Char)} {s : List Char} (h : AreAttributes names s) :
    s.all isLegal = true := by
  have hmarks : isLegal ' ' = true ∧ isLegal '=' = true ∧ isLegal '"' = true := by decide
  induction h with
  | nil => rfl
  | cons named fresh value others ih => simp [legal_of_isName named, value.legal, hmarks, ih]

theorem Derives.legal {part : Part} {s : List Char} (h : Derives part s) : s.all isLegal = true := by
  have hmarks : isLegal '<' = true ∧ isLegal '>' = true ∧ isLegal '/' = true ∧ isLegal '&' = true ∧
      isLegal ';' = true := by decide
  induction h with
  | empty named given spaced =>
    have hblank := List.all_eq_true.mpr fun c hc => isLegal_of_isSpace (List.all_eq_true.mp spaced c hc)
    simp [legal_of_isName named, given.legal, hblank, hmarks]
  | full named given inner ih => simp [legal_of_isName named, given.legal, hmarks, ih]
  | nil => rfl
  | char legal plain unended others ih => simp [legal, ih]
  | reference tells others ih => simp [legal_of_tellsChar tells, hmarks, ih]
  | child first others ihfirst ihothers => simp [ihfirst, ihothers]

theorem IsDocument.legal {s : String} (h : IsDocument s) : s.toList.all isLegal = true := by
  obtain ⟨root, hroot, hs⟩ := h
  have hdeclaration : declaration.toList.all isLegal = true := by decide
  rw [hs, List.all_append, hdeclaration, hroot.legal]
  rfl

end Switchboard.Markup
