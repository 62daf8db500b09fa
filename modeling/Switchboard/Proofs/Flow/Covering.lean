import Switchboard.Proofs.Flow.Checkable
import Switchboard.Proofs.Flow.Closure
import Switchboard.Proofs.Flow.Findings
import Switchboard.Proofs.Flow.Sources
import Mathlib.Data.Set.Card
import Mathlib.Order.WellFoundedSet

/-! # Graphs that their entries cover

The degree of an id is the number of other ids whose blocks lead to it. Where edges to other blocks form no cycle, going
back along them ends, and it ends at a source. So every block can be reached from a candidate, and a validation neither
lacks an entry nor, if the candidate is the only one, finds a block that calls never come to.
-/
namespace Switchboard.Graph
open Relation (ReflTransGen TransGen)

variable {K : Type} {blocks : List (Block K)} {id : Text}

def LeadsOn (blocks : List (Block K)) (id target : Text) : Prop :=
  Leads blocks id target ∧ id ≠ target

/-- Whether the edges to other blocks form no cycle. -/
def Acyclic (blocks : List (Block K)) : Prop :=
  ∀ id, ¬ TransGen (LeadsOn blocks) id id

theorem acyclic_of_rank (rank : Text → Nat) (h : ∀ id target, LeadsOn blocks id target → rank id < rank target) :
    Acyclic blocks :=
  fun _ hcycle => Nat.lt_irrefl _ (rank_lt_of_path rank h hcycle)

theorem Leads.source {target : Text} (h : Leads blocks id target) : hasBlock blocks id = true := by
  obtain ⟨b, _, hb, _⟩ := h
  exact hasBlock_iff.mpr ⟨b, hb⟩

theorem keys_links {found : List (Text × List Text)} (h : links blocks = .ok found) :
    found.map Prod.fst = ids blocks := by
  refine Outcome.map_eq_map_of_mapM_eq_ok (fun b link hlink => ?_) h
  obtain ⟨targets, -, hlink⟩ := Outcome.bind_eq_ok.mp hlink
  rw [← Outcome.pure_eq_ok.mp hlink]

theorem mem_counted_iff {found : List (Text × List Text)} (h : links blocks = .ok found)
    (hid : hasBlock blocks id = true) {source : Text} :
    source ∈ (found.filter fun link => link.1 != id && link.2.contains id).map Prod.fst ↔
      LeadsOn blocks source id := by
  constructor
  · intro hmem
    obtain ⟨link, hlink, rfl⟩ := List.mem_map.mp hmem
    obtain ⟨hfound, hcounts⟩ := List.mem_filter.mp hlink
    rw [Bool.and_eq_true, bne_iff_ne, List.contains_iff_mem] at hcounts
    obtain ⟨b, hb, hbid, hids⟩ := (mem_links_iff h).mp hfound
    exact ⟨⟨b, link.2, hbid ▸ mem_distinct_iff.mp hb, hids, hcounts.2, hid⟩, hcounts.1⟩
  · rintro ⟨⟨b, targets, hb, htargets, hmem, -⟩, hne⟩
    have hlink : (source, targets) ∈ found :=
      (mem_links_iff h).mpr ⟨b, mem_distinct_of_block? hb, id_of_block?_eq_some hb, htargets⟩
    refine List.mem_map.mpr ⟨_, List.mem_filter.mpr ⟨hlink, ?_⟩, rfl⟩
    rw [Bool.and_eq_true, bne_iff_ne, List.contains_iff_mem]
    exact ⟨hne, hmem⟩

theorem degreeIn_eq_ncard {found : List (Text × List Text)} (h : links blocks = .ok found)
    (hid : hasBlock blocks id = true) : degreeIn found id = {source | LeadsOn blocks source id}.ncard := by
  have hnodup : ((found.filter fun link => link.1 != id && link.2.contains id).map Prod.fst).Nodup := by
    have hids := ids_nodup blocks
    rw [← keys_links h] at hids
    exact hids.sublist (List.filter_sublist.map Prod.fst)
  have hset : {source | LeadsOn blocks source id} =
      ((found.filter fun link => link.1 != id && link.2.contains id).map Prod.fst).toFinset := by
    ext source
    rw [Set.mem_ofPred_eq, List.coe_toFinset, Set.mem_ofPred_eq, mem_counted_iff h hid]
  rw [hset, Set.ncard_coe_finset, List.toFinset_card_of_nodup hnodup, List.length_map, degreeIn,
    List.countP_eq_length_filter]

theorem links_succeeds (hk : EdgesKnown blocks) : ∃ found, links blocks = .ok found := by
  refine Outcome.mapM_succeeds fun b hb => ?_
  obtain ⟨targets, htargets⟩ := hk b hb
  exact ⟨(b.id, targets), by rw [htargets]; rfl⟩

theorem inDegrees_eq (hk : EdgesKnown blocks) :
    inDegrees blocks = .ok ((ids blocks).map fun id => (id, {source | LeadsOn blocks source id}.ncard)) := by
  obtain ⟨found, hfound⟩ := links_succeeds hk
  rw [inDegrees, hfound]
  refine congrArg Except.ok (List.map_congr_left fun id hid => ?_)
  rw [degreeIn_eq_ncard hfound (mem_ids_iff.mp hid)]

/-- An id is a source among the blocks that count when no other id leads to it. -/
theorem isSource_distinct_iff (hid : hasBlock blocks id = true) :
    IsSource (distinct blocks) id ↔ ∀ source, ¬ LeadsOn blocks source id := by
  constructor
  · rintro hsource source ⟨⟨b, targets, hb, htargets, hmem, -⟩, hne⟩
    exact hsource b (mem_distinct_of_block? hb) (id_of_block?_eq_some hb ▸ hne) targets htargets hmem
  · intro hnone b hb hne targets htargets hmem
    exact hnone b.id ⟨⟨b, targets, mem_distinct_iff.mp hb, htargets, hmem, hid⟩, hne⟩

/-- Where edges to other blocks form no cycle, every block can be reached from a source. The induction goes back along
these edges; it ends as there are finitely many blocks. -/
theorem Acyclic.exists_source (ha : Acyclic blocks) (hid : hasBlock blocks id = true) :
    ∃ c, hasBlock blocks c = true ∧ (∀ source, ¬ LeadsOn blocks source c) ∧ ReflTransGen (Leads blocks) c id := by
  have hfinite : {id | hasBlock blocks id = true}.Finite := by
    refine (ids blocks).toFinset.finite_toSet.subset fun id hid => ?_
    rw [List.coe_toFinset]
    exact mem_ids_iff.mpr hid
  have horder : IsStrictOrder Text (TransGen (LeadsOn blocks)) :=
    { irrefl := ha, trans := fun _ _ _ => TransGen.trans }
  have hback : {id | hasBlock blocks id = true}.WellFoundedOn (TransGen (LeadsOn blocks)) := hfinite.wellFoundedOn
  refine hback.induction
    (P := fun id => ∃ c, hasBlock blocks c = true ∧ (∀ source, ¬ LeadsOn blocks source c) ∧
      ReflTransGen (Leads blocks) c id) hid ?_
  intro id hid ih
  by_cases hsource : ∃ source, LeadsOn blocks source id
  · obtain ⟨source, hleads⟩ := hsource
    obtain ⟨c, hc, hnone, hpath⟩ := ih source hleads.1.source (.single hleads)
    exact ⟨c, hc, hnone, hpath.tail hleads.1⟩
  · exact ⟨id, hid, not_exists.mp hsource, .refl⟩

theorem Acyclic.exists_candidate (ha : Acyclic blocks) (hk : EdgesKnown blocks) {candidates : List Text}
    (hc : entryCandidates blocks = .ok candidates) (hid : id ∈ ids blocks) :
    ∃ c ∈ candidates, ∃ reached, reachable blocks c = .ok reached ∧ id ∈ reached := by
  obtain ⟨c, hhas, hnone, hpath⟩ := ha.exists_source (mem_ids_iff.mp hid)
  obtain ⟨reached, hreached, -⟩ := reachable_closed hk hhas
  refine ⟨c, ?_, reached, hreached, (mem_reachable_iff hhas hreached).mpr hpath⟩
  rw [candidates_eq hc, List.mem_filter, decide_eq_true_iff]
  exact ⟨mem_ids_iff.mpr hhas, (isSource_distinct_iff hhas).mpr hnone⟩

theorem ids_ne_nil (hne : blocks ≠ []) : ids blocks ≠ [] := by
  obtain ⟨b, rest, rfl⟩ := List.exists_cons_of_ne_nil hne
  exact List.ne_nil_of_mem (mem_ids_iff.mpr (hasBlock_iff_mem.mpr ⟨b, List.mem_cons_self, rfl⟩))

/-- A candidate is the id of a block, so that where there is one a call has a block to begin at. -/
theorem entryBlock_of_candidates {candidates : List Text} (hc : entryCandidates blocks = .ok candidates)
    (hne : candidates ≠ []) (entry : Option Text) : ∃ e, entryBlock blocks entry = .ok (some e) ∧
      ( explicitEntry? blocks entry = none → candidates.head? = some e.id) := by
  obtain ⟨c, rest, rfl⟩ := List.exists_cons_of_ne_nil hne
  have hmem : c ∈ c :: rest := List.mem_cons_self
  rw [candidates_eq hc] at hmem
  obtain ⟨b, hb⟩ := hasBlock_iff.mp (mem_ids_iff.mp (List.mem_of_mem_filter hmem))
  unfold entryBlock
  split
  · rename_i e he
    exact ⟨e, rfl, fun hnone => by rw [he] at hnone; cases hnone⟩
  · rw [hc]
    exact ⟨b, congrArg Except.ok hb, fun _ => by rw [id_of_block?_eq_some hb]; rfl⟩

/-- Every id has as its degree the number of other ids that lead to it. If edges to other blocks form no cycle, there
are candidates, a call has a block to begin at, and every block can be reached from a candidate; so no validation that
ends lacks an entry, and with one candidate and no explicit entry it finds no block that calls never come to. -/
theorem entries_cover (hne : blocks ≠ []) (hk : EdgesKnown blocks) :
    inDegrees blocks = .ok ((ids blocks).map fun id => (id, {source | LeadsOn blocks source id}.ncard)) ∧
    (Acyclic blocks → ∃ candidates, entryCandidates blocks = .ok candidates ∧ candidates ≠ [] ∧
      (∀ entry, ∃ e, entryBlock blocks entry = .ok (some e)) ∧
      (∀ id ∈ ids blocks, ∃ c ∈ candidates, ∃ reached, reachable blocks c = .ok reached ∧ id ∈ reached) ∧
      ∀ entry report, Validation.validate blocks entry = .ok report →
        (∀ f ∈ report.errors, f.code ≠ .noEntryPoint) ∧
        (candidates.length = 1 → explicitEntry? blocks entry = none →
          ∀ f ∈ report.warnings, f.code ≠ .unreachableBlock)) := by
  refine ⟨inDegrees_eq hk, fun ha => ?_⟩
  obtain ⟨candidates, hc⟩ := Validation.entryCandidates_succeeds hk
  have hcover (id : Text) (hid : id ∈ ids blocks) :
      ∃ c ∈ candidates, ∃ reached, reachable blocks c = .ok reached ∧ id ∈ reached :=
    ha.exists_candidate hk hc hid
  have hsome : candidates ≠ [] := by
    obtain ⟨id, hid⟩ := List.exists_mem_of_ne_nil _ (ids_ne_nil hne)
    obtain ⟨c, hmem, -⟩ := hcover id hid
    exact List.ne_nil_of_mem hmem
  have hbegins (entry : Option Text) := entryBlock_of_candidates hc hsome entry
  refine ⟨candidates, hc, hsome, fun entry => ?_, hcover, fun entry report h => ⟨?_, ?_⟩⟩
  · obtain ⟨e, he, -⟩ := hbegins entry
    exact ⟨e, he⟩
  · intro f hf hcode
    obtain ⟨e, he, -⟩ := hbegins entry
    have hnone := (Validation.noEntryPoint_iff h).mp ⟨f, hf, hcode⟩
    rw [he] at hnone
    cases hnone
  · intro hone hexplicit f hf hcode
    obtain ⟨e, candidates', reached, id, he, hc', hreached, -, hid, hunreached, -⟩ :=
      Validation.of_unreachableBlock h hf hcode
    -- the only candidate is the entry, and everything can be reached from a candidate
    obtain ⟨e', he', hfirst⟩ := hbegins entry
    obtain rfl : e' = e := Option.some.inj (Except.ok.inj (he'.symm.trans he))
    obtain ⟨c, rfl⟩ := List.length_eq_one_iff.mp hone
    obtain rfl : c = e'.id := Option.some.inj (hfirst hexplicit)
    obtain ⟨c, hmem, all, hall, hin⟩ := hcover id hid
    rw [List.mem_singleton.mp hmem, hreached] at hall
    exact hunreached (Except.ok.inj hall ▸ hin)

theorem entries_cover_selfEdge :
    let hello : Block Unit := {
      id := "hello", type := .say, config := [("text", .str "Hello")], position := ⟨(), ()⟩, next := ["main", "gone"] }
    let main : Block Unit := {
      id := "main", type := .menu, position := ⟨(), ()⟩, next := ["bye"]
      config := [("prompt", .str "Press 1"), ("options", .obj [("1", .str "main"), ("2", .str "bye")])] }
    let bye : Block Unit := { id := "bye", type := .hangup, config := [], position := ⟨(), ()⟩, next := [] }
    let blocks := [bye, main, hello, { main with next := ["hello"] }]
    EdgesKnown blocks ∧ Acyclic blocks ∧ inDegrees blocks = .ok [("bye", 1), ("main", 1), ("hello", 0)] ∧
      {source | LeadsOn blocks source "main"}.ncard = 1 ∧ (∃ e, entryBlock blocks none = .ok (some e)) ∧
      ∃ report, Validation.validate blocks none = .ok report ∧ ∀ f ∈ report.warnings, f.code ≠ .unreachableBlock := by
  intro hello main bye blocks
  have hk : EdgesKnown blocks := by
    intro b hb
    have hmem := mem_of_mem_distinct hb
    simp only [blocks, List.mem_cons, List.not_mem_nil, or_false] at hmem
    rcases hmem with rfl | rfl | rfl | rfl <;> exact ⟨_, rfl⟩
  have ha : Acyclic blocks := by
    refine acyclic_of_rank ([("hello" : Text), "main", "bye"].idxOf ·) ?_
    rintro id target ⟨⟨b, targets, hb, htargets, hmem, hhas⟩, hne⟩
    have hkept : b ∈ [bye, main, hello] := mem_distinct_of_block? hb
    obtain rfl := id_of_block?_eq_some hb
    simp only [List.mem_cons, List.not_mem_nil, or_false] at hkept
    rcases hkept with rfl | rfl | rfl <;> cases htargets
    · cases hmem
    · rcases List.mem_pair.mp hmem with rfl | rfl
      · decide
      · exact absurd rfl hne
    · rcases List.mem_pair.mp hmem with rfl | rfl
      · decide
      · exact absurd hhas (by decide)
  have hne : blocks ≠ [] := List.cons_ne_nil _ _
  obtain ⟨hdegrees, hcover⟩ := entries_cover hne hk
  obtain ⟨candidates, hc, -, hbegins, -, hvalidate⟩ := hcover ha
  have hfound : inDegrees blocks = .ok [("bye", 1), ("main", 1), ("hello", 0)] := rfl
  have hmain : {source | LeadsOn blocks source "main"}.ncard = 1 := by
    have hall := Except.ok.inj (hdegrees.symm.trans hfound)
    have hids : ids blocks = [("bye" : Text), "main", "hello"] := rfl
    simp only [hids, List.map_cons, List.cons.injEq, Prod.mk.injEq, true_and] at hall
    exact hall.2.1
  have hone : candidates = ["hello"] := Except.ok.inj (hc.symm.trans rfl)
  obtain ⟨report, h⟩ : ∃ report, Validation.validate blocks none = .ok report :=
    Validation.validate_succeeds_iff.mpr (by decide +kernel)
  exact ⟨hk, ha, hfound, hmain, hbegins none, report, h, (hvalidate none report h).2 (hone ▸ rfl) rfl⟩

/-- An edge that is a list cannot be looked up: then no degree is counted, and there is no entry to begin at. -/
theorem listed_edge_uncounted :
    let b : Block Unit := {
      id := "hello", type := .say, position := ⟨(), ()⟩, next := []
      config := [("text", .str "Hello"), ("on_fail", .arr [.str "bye"])] }
    b.edges = .ok [.arr [.str "bye"]] ∧ Acyclic [b] ∧ inDegrees [b] = .error (.notKey .arr) ∧
      entryCandidates [b] = .error (.notKey .arr) ∧ entryBlock [b] none = .error (.notKey .arr) ∧
      reachable [b] "hello" = .error (.notKey .arr) := by
  intro b
  refine ⟨rfl, acyclic_of_rank (fun _ => 0) ?_, rfl, rfl, rfl, rfl⟩
  rintro id target ⟨⟨c, targets, hc, htargets, -, -⟩, -⟩
  rw [List.mem_singleton.mp (mem_of_block? hc)] at htargets
  cases htargets

end Switchboard.Graph
