import Switchboard.Proofs.Flow.Reach

/-! # Where a call can begin

An id that no block of another id leads to is a source. The candidates for the entry are the sources among the blocks
that count, in order; where no entry is given, a call begins at the first of them.
-/
namespace Switchboard.Graph

variable {K : Type} {blocks : List (Block K)} {b : Block K} {id : Text} {candidates : List Text}
  {entry : Option Text}

theorem distinctAfter_eq_append {kept rest : List (Block K)} (h : ((kept ++ rest).map Block.id).Nodup) :
    distinctAfter kept rest = kept ++ rest := by
  induction rest generalizing kept with
  | nil => rw [distinctAfter, List.append_nil]
  | cons b rest ih =>
    have hnew : hasBlock kept b.id = false := by
      rw [Bool.eq_false_iff, ne_eq, hasBlock_iff]
      rintro ⟨old, hold⟩
      rw [List.map_append, List.map_cons, List.nodup_append] at h
      exact h.2.2 b.id (List.mem_map.mpr ⟨old, mem_of_block? hold, id_of_block?_eq_some hold⟩) b.id
        List.mem_cons_self rfl
    have hsplit : kept ++ b :: rest = (kept ++ [b]) ++ rest := by simp
    rw [hsplit] at h ⊢
    rw [distinctAfter, hnew, if_neg Bool.false_ne_true, ih h]

theorem distinct_eq_self (h : (blocks.map Block.id).Nodup) : distinct blocks = blocks :=
  distinctAfter_eq_append h

def IsSource (blocks : List (Block K)) (id : Text) : Prop :=
  ∀ b ∈ blocks, b.id ≠ id → ∀ ids, b.edgeIds = .ok ids → id ∉ ids

theorem isSource_iff : IsSource blocks id ↔
    ∀ b ∈ blocks, b.id ≠ id → (b.edgeIds.toOption.all fun ids => !ids.contains id) = true := by
  refine forall₃_congr fun b _ _ => ?_
  cases b.edgeIds <;> simp [Except.toOption]

instance (blocks : List (Block K)) (id : Text) : Decidable (IsSource blocks id) :=
  decidable_of_iff _ isSource_iff.symm

theorem mem_links_iff {found : List (Text × List Text)} (h : links blocks = .ok found)
    {link : Text × List Text} :
    link ∈ found ↔ ∃ b ∈ distinct blocks, b.id = link.1 ∧ b.edgeIds = .ok link.2 := by
  constructor
  · intro hmem
    obtain ⟨b, hb, hlink⟩ := Outcome.mem_of_mapM_eq_ok h hmem
    obtain ⟨ids, hids, hlink⟩ := Outcome.bind_eq_ok.mp hlink
    rw [← Outcome.pure_eq_ok.mp hlink]
    exact ⟨b, hb, rfl, hids⟩
  · rintro ⟨b, hb, hid, hids⟩
    obtain ⟨link', hmem, hlink⟩ := Outcome.exists_of_mapM_eq_ok h hb
    rw [hids, hid] at hlink
    cases hlink
    exact hmem

/-- The degree of an id is zero exactly when the id is a source among the blocks that count. -/
theorem degreeIn_eq_zero_iff {found : List (Text × List Text)} (h : links blocks = .ok found) :
    degreeIn found id = 0 ↔ IsSource (distinct blocks) id := by
  rw [degreeIn, List.countP_eq_zero]
  constructor
  · intro hnone b hb hne ids hids hmem
    have hlink := hnone (b.id, ids) ((mem_links_iff h).mpr ⟨b, hb, rfl, hids⟩)
    simp [hne, hmem] at hlink
  · intro hsource link hlink hleads
    obtain ⟨b, hb, hid, hids⟩ := (mem_links_iff h).mp hlink
    rw [Bool.and_eq_true, bne_iff_ne, List.contains_iff_mem] at hleads
    exact hsource b hb (hid ▸ hleads.1) link.2 hids hleads.2

theorem candidates_eq (h : entryCandidates blocks = .ok candidates) :
    candidates = (ids blocks).filter fun id => IsSource (distinct blocks) id := by
  obtain ⟨degrees, hdegrees, h⟩ := Outcome.bind_eq_ok.mp h
  obtain ⟨found, hfound, hdegrees⟩ := Outcome.bind_eq_ok.mp hdegrees
  rw [← Outcome.pure_eq_ok.mp h, ← Outcome.pure_eq_ok.mp hdegrees, List.filter_map, List.map_map]
  refine (List.map_id _).trans (List.filter_congr fun id _ => ?_)
  rw [Function.comp_apply, Bool.eq_iff_iff, beq_iff_eq, decide_eq_true_iff, degreeIn_eq_zero_iff hfound]

def firstSource? (blocks : List (Block K)) : Option (Block K) :=
  blocks.find? fun b => IsSource blocks b.id

theorem head?_candidates (h : entryCandidates blocks = .ok candidates) :
    candidates.head? = (firstSource? (distinct blocks)).map Block.id := by
  rw [candidates_eq h, List.head?_filter, ids, List.find?_map]
  rfl

/-- A call begins at the explicit entry if it is that of a block, and otherwise at the first source. -/
theorem entryBlock_eq {found : Option (Block K)} (h : entryBlock blocks entry = .ok found) :
    found = ( explicitEntry? blocks entry).or (firstSource? (distinct blocks)) := by
  unfold entryBlock at h
  split at h
  · rename_i b hb
    cases h
    rw [hb, Option.some_or]
  · rename_i hnone
    obtain ⟨candidates, hcandidates, h⟩ := Outcome.bind_eq_ok.mp h
    rw [hnone, Option.none_or, ← Outcome.pure_eq_ok.mp h, head?_candidates hcandidates]
    cases hfirst : firstSource? (distinct blocks) with
    | none => rfl
    | some b => exact mem_distinct_iff.mp (List.mem_of_find?_eq_some hfirst)

end Switchboard.Graph
