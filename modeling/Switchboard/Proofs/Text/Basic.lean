import Switchboard.Proofs.Outcome
import Switchboard.Value.Written
import Mathlib.Data.List.Basic
import Mathlib.Data.List.Chain
import Mathlib.Order.Defs.LinearOrder
import Mathlib.Data.List.Lex

/-! # Texts and their symbols

A text is the row of its symbols: there is one text for every row, and texts with the same symbols are the same. The
strings are the texts without halves, and a string is written and read back as it is. Once the pairs of halves in a
text have been joined, none is left.
-/
namespace Switchboard

namespace Symbol

def Apart (s t : Symbol) : Prop := ∀ high low, s = half high → t = half low → pair? high low = none

theorem apart_char_left (c : Char) (s : Symbol) : Apart (char c) s := by
  intro high low hs
  cases hs

theorem apart_char_right (s : Symbol) (c : Char) : Apart s (char c) := by
  intro high low _ ht
  cases ht

theorem join_cases (s t : Symbol) (rest : List Symbol) :
    (Apart s t ∧ join ((s :: t :: rest).map fun s => (s, true)) = s :: join ((t :: rest).map fun s => (s, true))) ∨
    ¬ Apart s t ∧
      ∃ c, join ((s :: t :: rest).map fun s => (s, true)) = char c :: join (rest.map fun s => (s, true)) := by
  cases s with
  | char c => exact Or.inl ⟨apart_char_left c t, by simp [join]⟩
  | half high =>
    cases t with
    | char c => exact Or.inl ⟨apart_char_right _ c, by simp [join]⟩
    | half low =>
      cases hpair : pair? high low with
      | none =>
        refine Or.inl ⟨?_, by simp [join, hpair]⟩
        intro h l hh hl
        cases hh
        cases hl
        exact hpair
      | some c =>
        refine Or.inr ⟨fun hapart => ?_, c, by simp [join, hpair]⟩
        rw [hapart high low rfl rfl] at hpair
        cases hpair

/-- No pair is left when all have been joined, and what comes first is a character or came first before. -/
theorem isChain_join : (symbols : List Symbol) → (join (symbols.map fun s => (s, true))).IsChain Apart ∧
    ∀ s ∈ (join (symbols.map fun s => (s, true))).head?, (∃ c, s = char c) ∨ symbols.head? = some s
  | [] => ⟨List.isChain_nil, fun s hs => by cases hs⟩
  | [s] => ⟨List.isChain_singleton s, fun t ht => Or.inr ht⟩
  | s :: t :: rest => by
    rcases join_cases s t rest with ⟨hapart, hjoin⟩ | ⟨-, c, hjoin⟩
    · obtain ⟨hchain, hhead⟩ := isChain_join (t :: rest)
      rw [hjoin, List.isChain_cons]
      refine ⟨⟨fun next hnext => ?_, hchain⟩, fun u hu => Or.inr hu⟩
      rcases hhead next hnext with ⟨c, rfl⟩ | hfirst
      · exact apart_char_right s c
      · cases hfirst
        exact hapart
    · rw [hjoin, List.isChain_cons]
      refine ⟨⟨fun next _ => apart_char_left c next, (isChain_join rest).1⟩, fun u hu => Or.inl ⟨c, ?_⟩⟩
      exact (Option.some.inj hu).symm

theorem join_eq_self {symbols : List Symbol} (h : symbols.IsChain Apart) :
    join (symbols.map fun s => (s, true)) = symbols := by
  induction symbols with
  | nil => rfl
  | cons s rest ih =>
    cases rest with
    | nil => rfl
    | cons t rest =>
      obtain ⟨hapart, hrest⟩ := List.isChain_cons_cons.mp h
      rcases join_cases s t rest with ⟨-, hjoin⟩ | ⟨hpair, -⟩
      · rw [hjoin, ih hrest]
      · exact absurd hapart hpair

end Symbol

namespace Text

variable {s : String} {t u : Text}

theorem symbols_ofSymbols (symbols : List Symbol) : (ofSymbols symbols).symbols = symbols := by
  unfold ofSymbols
  split
  · rfl
  · next h =>
    rw [Text.symbols, String.toList_ofList]
    induction symbols with
    | nil => rfl
    | cons symbol rest ih =>
      cases symbol with
      | half d => simp [Symbol.isHalf] at h
      | char c => simpa [Symbol.char?, Symbol.isHalf] using ih (by simpa [Symbol.isHalf] using h)

theorem any_isHalf_symbols_plain (s : String) : (plain s).symbols.any Symbol.isHalf = false := by
  simp [symbols, Symbol.isHalf, List.any_eq_false]

theorem ofSymbols_symbols (t : Text) : ofSymbols t.symbols = t := by
  cases t with
  | plain s =>
    rw [ofSymbols, dif_neg (by simp [any_isHalf_symbols_plain]), symbols, List.filterMap_map]
    simp [Function.comp_def, Symbol.char?]
  | loose symbols h => rw [Text.symbols, ofSymbols, dif_pos h]

theorem symbols_inj : t.symbols = u.symbols ↔ t = u := by
  refine ⟨fun h => ?_, congrArg symbols⟩
  rw [← ofSymbols_symbols t, h, ofSymbols_symbols]

theorem symbols_append (t u : Text) : (t ++ u).symbols = t.symbols ++ u.symbols := by
  cases t with
  | plain s =>
    cases u with
    | plain s' => simp [symbols]
    | loose => exact symbols_ofSymbols _
  | loose => exact symbols_ofSymbols _

theorem append_right_inj (t : Text) {u v : Text} : t ++ u = t ++ v ↔ u = v := by
  rw [← symbols_inj, symbols_append, symbols_append, List.append_right_inj, symbols_inj]

theorem symbols_eq_nil_iff : t.symbols = [] ↔ t = "" :=
  symbols_inj (u := "")

theorem chars_eq_filterMap (t : Text) : t.chars = t.symbols.filterMap Symbol.char? := by
  cases t with
  | plain s =>
    rw [chars, symbols, List.filterMap_map]
    simp [Function.comp_def, Symbol.char?]
  | loose symbols h => rfl

theorem symbols_joined (t : Text) : t.joined.symbols = Symbol.join (t.symbols.map fun s => (s, true)) := by
  cases t with
  | plain s =>
    have hapart : (s.toList.map Symbol.char).IsChain Symbol.Apart :=
      (List.pairwise_map.mpr (List.pairwise_of_forall fun c d => Symbol.apart_char_left c (.char d))).isChain
    exact (Symbol.join_eq_self hapart).symm
  | loose symbols h => exact symbols_ofSymbols _

@[simp] theorem joined_joined (t : Text) : t.joined.joined = t.joined := by
  rw [← symbols_inj, symbols_joined, symbols_joined, Symbol.join_eq_self (Symbol.isChain_join t.symbols).1]

theorem filter_chars (p : Char → Bool) (t : Text) :
    t.chars.filter p = (t.symbols.filter fun symbol => symbol.char?.any p).filterMap Symbol.char? := by
  rw [chars_eq_filterMap, List.filter_filterMap, List.filterMap_filter]
  refine List.filterMap_congr fun symbol _ => ?_
  cases symbol.char? with
  | none => rfl
  | some c => rfl

theorem isPlain_iff : t.isPlain = true ↔ ∃ s : String, t = s := by
  cases t <;> simp [isPlain, plain?]

theorem encoded_eq_ok : t.encoded = .ok s ↔ t = s := by
  cases t <;> simp [encoded]

theorem encoded_succeeds_iff : (∃ s, t.encoded = .ok s) ↔ t.isPlain = true := by
  simp only [encoded_eq_ok, isPlain_iff]

theorem mapM_encoded_eq_ok {texts : List Text} {written : List String} :
    texts.mapM encoded = .ok written ↔ texts = written.map plain := by
  induction texts generalizing written with
  | nil => cases written <;> simp
  | cons t rest ih =>
    simp only [List.mapM_cons, Outcome.bind_eq_ok, encoded_eq_ok, ih, Outcome.pure_eq_ok]
    constructor
    · rintro ⟨s, rfl, written, rfl, rfl⟩
      rfl
    · intro h
      obtain ⟨s, written, rfl, hs, hrest⟩ := List.map_eq_cons_iff.mp h.symm
      exact ⟨s, hs.symm, written, hrest.symm, rfl⟩

theorem optionMapM_encoded_eq_ok {text : Option Text} {written : Option String} :
    text.mapM encoded = .ok written ↔ text = written.map plain := by
  cases text with
  | none => cases written <;> simp
  | some t =>
    rw [Option.mapM_some, Outcome.map_eq_ok]
    cases written <;> simp [encoded_eq_ok]

end Text
end Switchboard
