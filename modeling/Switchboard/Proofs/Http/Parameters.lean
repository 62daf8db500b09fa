import Switchboard.Http.Parameters
import Switchboard.Proofs.Text.Percent
import Mathlib.Data.List.Basic

/-! # Parameters that are read back

Encoded names and values hold no separator, so the query of several parameters falls into their pieces, and each piece
into its name and its value. Parameters of distinct names are read from a query as they have been written into it.
-/
namespace Switchboard

namespace Text

section
variable {α : Type} [DecidableEq α] {separator : α} {s : List α}

theorem pieces_of_not_mem (h : separator ∉ s) : pieces separator s = [s] := by
  induction s with
  | nil => rfl
  | cons a s ih =>
    rw [List.mem_cons, not_or] at h
    rw [pieces, if_neg (Ne.symm h.1), ih h.2]

theorem pieces_append (h : separator ∉ s) (rest : List α) :
    pieces separator (s ++ separator :: rest) = s :: pieces separator rest := by
  induction s with
  | nil => rw [List.nil_append, pieces, if_pos rfl]
  | cons a s ih =>
    rw [List.mem_cons, not_or] at h
    rw [List.cons_append, pieces, if_neg (Ne.symm h.1), ih h.2]

theorem pieces_intercalate {parts : List (List α)} (hne : parts ≠ []) (h : ∀ part ∈ parts, separator ∉ part) :
    pieces separator ([separator].intercalate parts) = parts := by
  induction parts with
  | nil => exact absurd rfl hne
  | cons part parts ih =>
    obtain ⟨hpart, hparts⟩ := List.forall_mem_cons.mp h
    cases parts with
    | nil => rw [List.intercalate_singleton, pieces_of_not_mem hpart]
    | cons next parts =>
      rw [List.intercalate_cons_cons, List.append_assoc, List.singleton_append, pieces_append hpart,
        ih (List.cons_ne_nil _ _) hparts]

end

theorem bytesOf_intercalate (separator : List Char) (parts : List (List Char)) :
    bytesOf (separator.intercalate parts) = (bytesOf separator).intercalate (parts.map bytesOf) := by
  induction parts with
  | nil => rfl
  | cons part parts ih =>
    cases parts with
    | nil => simp only [List.intercalate_singleton, List.map_cons, List.map_nil]
    | cons next parts =>
      rw [List.intercalate_cons_cons, bytesOf_append, bytesOf_append, ih]
      exact List.intercalate_cons_cons.symm

theorem ofNat_toNat_injective {c d : Char} (hc : c.toNat < 0x80) (hd : d.toNat < 0x80)
    (h : UInt8.ofNat c.toNat = UInt8.ofNat d.toNat) : c = d := by
  have hnat := congrArg UInt8.toNat h
  rw [toNat_ofNat_of_lt (by omega), toNat_ofNat_of_lt (by omega)] at hnat
  exact Char.toNat_inj.mp hnat

theorem not_mem_encodeQuery (s : String) {d : Char} (hascii : d.toNat < 0x80) (hd : isQueryChar d = false) :
    UInt8.ofNat d.toNat ∉ bytesOf (encodeQuery s).toList := by
  have hquery := List.all_eq_true.mp (isQueryChar_encodeQuery s)
  rw [bytesOf_ascii fun c hc => toNat_lt_of_isQueryChar (hquery c hc)]
  intro hmem
  obtain ⟨c, hc, hsame⟩ := List.mem_map.mp hmem
  have hchar := hquery c hc
  rw [ofNat_toNat_injective (toNat_lt_of_isQueryChar hchar) hascii hsame, hd] at hchar
  cases hchar

end Text

namespace Http

open Text

variable {pairs : List (String × String)}

def pieceOf (pair : String × String) : List UInt8 :=
  bytesOf (encodeQuery pair.1).toList ++ equalsSign :: bytesOf (encodeQuery pair.2).toList

theorem bytesOf_encodePairs (pairs : List (String × String)) :
    bytesOf (encodePairs pairs).toList = [ampersand].intercalate (pairs.map pieceOf) := by
  have hequals : bytesOf "=".toList = [equalsSign] := by decide
  rw [encodePairs, String.toList_intercalate, bytesOf_intercalate, List.map_map, List.map_map]
  refine congrArg _ (List.map_congr_left fun pair _ => ?_)
  rw [Function.comp_apply, Function.comp_apply, String.toList_append, String.toList_append, bytesOf_append,
    bytesOf_append, hequals, List.append_assoc, List.singleton_append, pieceOf]

theorem mem_intercalate {α : Type} {separator : List α} {parts : List (List α)} {a : α}
    (h : a ∈ separator.intercalate parts) : a ∈ separator ∨ ∃ part ∈ parts, a ∈ part := by
  induction parts with
  | nil => cases h
  | cons part parts ih =>
    cases parts with
    | nil =>
      rw [List.intercalate_singleton] at h
      exact Or.inr ⟨part, List.mem_cons_self, h⟩
    | cons next parts =>
      rw [List.intercalate_cons_cons, List.mem_append, List.mem_append] at h
      rcases h with (hpart | hseparator) | hrest
      · exact Or.inr ⟨part, List.mem_cons_self, hpart⟩
      · exact Or.inl hseparator
      · refine (ih hrest).imp_right ?_
        rintro ⟨other, hother, hmem⟩
        exact ⟨other, List.mem_cons_of_mem part hother, hmem⟩

/-- What a query is written with: what encoded texts hold, and what separates them. -/
theorem mem_encodePairs {c : Char} (h : c ∈ (encodePairs pairs).toList) : c = '&' ∨ c = '=' ∨ isQueryChar c = true := by
  rw [encodePairs, String.toList_intercalate] at h
  rcases mem_intercalate h with hseparator | ⟨part, hpart, hmem⟩
  · exact Or.inl (List.mem_singleton.mp hseparator)
  · obtain ⟨_, htext, rfl⟩ := List.mem_map.mp hpart
    obtain ⟨pair, -, rfl⟩ := List.mem_map.mp htext
    rw [String.toList_append, String.toList_append, List.mem_append, List.mem_append] at hmem
    rcases hmem with (hname | hequals) | hvalue
    · exact Or.inr (Or.inr (List.all_eq_true.mp (isQueryChar_encodeQuery pair.1) c hname))
    · exact Or.inr (Or.inl (List.mem_singleton.mp hequals))
    · exact Or.inr (Or.inr (List.all_eq_true.mp (isQueryChar_encodeQuery pair.2) c hvalue))

theorem ampersand_not_mem_pieceOf (pair : String × String) : ampersand ∉ pieceOf pair := by
  have hname := not_mem_encodeQuery pair.1 (d := '&') (by decide) (by decide)
  have hvalue := not_mem_encodeQuery pair.2 (d := '&') (by decide) (by decide)
  rw [pieceOf, List.mem_append, List.mem_cons, not_or, not_or]
  exact ⟨hname, by decide, hvalue⟩

namespace Parameters

theorem ofPiece_pieceOf {decode : List UInt8 → String}
    (hdecode : ∀ s, decode (bytesOf (encodeQuery s).toList) = s) (pair : String × String) :
    ofPiece decode (pieceOf pair) = pair := by
  have hname : ∀ b ∈ bytesOf (encodeQuery pair.1).toList, (b != equalsSign) = true := by
    intro b hb
    have hequals : equalsSign ∉ bytesOf (encodeQuery pair.1).toList :=
      not_mem_encodeQuery pair.1 (d := '=') (by decide) (by decide)
    exact bne_iff_ne.mpr fun heq => hequals (heq ▸ hb)
  rw [ofPiece, pieceOf, List.takeWhile_append_of_pos hname, List.dropWhile_append_of_pos hname]
  simp only [bne_self_eq_false, Bool.false_eq_true, not_false_eq_true, List.takeWhile_cons_of_neg,
    List.dropWhile_cons_of_neg, List.append_nil, List.drop_succ_cons, List.drop_zero]
  exact Prod.ext (hdecode pair.1) (hdecode pair.2)

theorem map_ofPiece {decode : List UInt8 → String} (hdecode : ∀ s, decode (bytesOf (encodeQuery s).toList) = s)
    (pairs : List (String × String)) : (pairs.map pieceOf).map (ofPiece decode) = pairs := by
  rw [List.map_map]
  exact (List.map_congr_left fun pair _ => ofPiece_pieceOf hdecode pair).trans (List.map_id pairs)

theorem pieces_encodePairs (hne : pairs ≠ []) :
    (pieces ampersand (bytesOf (encodePairs pairs).toList)).filter (fun piece => !piece.isEmpty) = pairs.map pieceOf := by
  have hpieces : pieces ampersand (bytesOf (encodePairs pairs).toList) = pairs.map pieceOf := by
    rw [bytesOf_encodePairs]
    refine pieces_intercalate (by simpa using hne) ?_
    exact List.forall_mem_map.mpr fun pair _ => ampersand_not_mem_pieceOf pair
  rw [hpieces]
  refine List.filter_eq_self.mpr (List.forall_mem_map.mpr fun pair _ => ?_)
  simp [pieceOf]

section
variable {α β : Type} [DecidableEq α] {pairs : List (α × β)}

theorem settle_eq_self (h : (pairs.map Prod.fst).Nodup) : settle pairs = pairs := by
  induction pairs with
  | nil => rfl
  | cons pair pairs ih =>
    rw [List.map_cons, List.nodup_cons] at h
    have hrest : pairs.foldr (fun p rest => if rest.any fun q => q.1 == p.1 then rest else p :: rest) [] = pairs :=
      ih h.2
    have hother : (pairs.any fun q => q.1 == pair.1) = false := by
      rw [List.any_eq_false]
      intro q hq hsame
      exact h.1 (beq_iff_eq.mp hsame ▸ List.mem_map_of_mem hq)
    rw [settle, List.foldr_cons, hrest, hother]
    rfl

theorem any_eq_isSome_lookup (pairs : List (α × β)) (name : α) :
    (pairs.any fun q => q.1 == name) = (pairs.lookup name).isSome := by
  induction pairs with
  | nil => rfl
  | cons p pairs ih =>
    rw [List.any_cons, List.lookup_cons, ih]
    by_cases hp : p.1 = name
    · rw [beq_iff_eq.mpr hp, beq_iff_eq.mpr hp.symm]
      rfl
    · rw [beq_eq_false_iff_ne.mpr hp, beq_eq_false_iff_ne.mpr (Ne.symm hp)]
      rfl

theorem lookup_settle_cons (p : α × β) (pairs : List (α × β)) (name : α) :
    (settle (p :: pairs)).lookup name = ((settle pairs).lookup name).or (if name = p.1 then some p.2 else none) := by
  have hsettle : settle (p :: pairs) =
      if ((settle pairs).lookup p.1).isSome then settle pairs else p :: settle pairs := by
    rw [← any_eq_isSome_lookup]
    rfl
  rw [hsettle]
  by_cases hp : name = p.1
  · -- the value counts only if the name does not come again
    subst hp
    cases hfound : (settle pairs).lookup p.1 with
    | none =>
      rw [Option.isSome_none, if_neg Bool.false_ne_true, List.lookup_cons, beq_self_eq_true]
      simp
    | some value => simp [hfound]
  · rw [if_neg hp, Option.or_none]
    split
    · rfl
    · rw [List.lookup_cons, beq_eq_false_iff_ne.mpr hp]

/-- The value of a name does not depend on later parameters without the name. -/
theorem lookup_settle_append {name : α} {later : List (α × β)} (h : later.lookup name = none) :
    (settle (pairs ++ later)).lookup name = (settle pairs).lookup name := by
  induction pairs with
  | nil =>
    rw [List.nil_append]
    induction later with
    | nil => rfl
    | cons p later ih =>
      have hp : (name == p.1) = false := by
        by_contra hsame
        rw [Bool.not_eq_false] at hsame
        rw [List.lookup_cons, hsame] at h
        cases h
      rw [List.lookup_cons, hp] at h
      rw [lookup_settle_cons, ih h, if_neg (beq_eq_false_iff_ne.mp hp)]
      rfl
  | cons p pairs ih => rw [List.cons_append, lookup_settle_cons, ih, ← lookup_settle_cons]

end

theorem ofQuery_encodePairs (hne : pairs ≠ []) (h : (pairs.map Prod.fst).Nodup) : ofQuery (encodePairs pairs) = pairs := by
  rw [ofQuery, pieces_encodePairs hne, map_ofPiece decodeQuery_encodeQuery, settle_eq_self h]

end Parameters
end Http
end Switchboard
