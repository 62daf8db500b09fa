import Switchboard.Proofs.Flow.Closure
import Switchboard.Proofs.Flow.Findings
import Switchboard.Proofs.Flow.Sources

/-! # The warnings about blocks that calls never come to

A candidate that can be reached from the entry is the entry. So what cannot be reached falls apart in two: the blocks
that are no candidates, each named by a warning of its own, and the candidates other than the entry, which one warning
covers where no entry is given. Where one is given that warning is not made, and nothing is said about them.
-/
namespace Switchboard

variable {K : Type} {blocks : List (Block K)} {entry : Option Text} {e id : Text} {candidates reached : List Text}
  {report : Report}

namespace Report

def NamesUnreachable (r : Report) (id : Text) : Prop :=
  ∃ f ∈ r.warnings, f.code = .unreachableBlock ∧ f.blockId = some id

def WarnsAmbiguous (r : Report) : Prop :=
  ∃ f ∈ r.warnings, f.code = .multipleAmbiguousEntries

instance (r : Report) (id : Text) : Decidable (r.NamesUnreachable id) :=
  inferInstanceAs (Decidable (∃ f ∈ r.warnings, f.code = .unreachableBlock ∧ f.blockId = some id))

instance (r : Report) : Decidable r.WarnsAmbiguous :=
  inferInstanceAs (Decidable (∃ f ∈ r.warnings, f.code = .multipleAmbiguousEntries))

end Report

namespace Graph
open Relation (ReflTransGen)

theorem eq_of_path_source (h : ReflTransGen (Leads blocks) e id) (hsource : IsSource (distinct blocks) id) :
    id = e := by
  induction h with
  | refl => rfl
  | @tail source target _ hleads ih =>
    obtain ⟨b, targets, hb, htargets, hmem, -⟩ := hleads
    have hsame : source = target := by
      by_contra hne
      exact hsource b (mem_distinct_of_block? hb) (id_of_block?_eq_some hb ▸ hne) targets htargets hmem
    subst hsame
    exact ih hsource

/-- The only candidate that can be reached from a block is the block itself. -/
theorem eq_of_mem_reachable (hc : entryCandidates blocks = .ok candidates) (he : hasBlock blocks e = true)
    (hr : reachable blocks e = .ok reached) (hmem : id ∈ candidates) (hin : id ∈ reached) : id = e := by
  rw [candidates_eq hc, List.mem_filter, decide_eq_true_iff] at hmem
  exact eq_of_path_source ((mem_reachable_iff he hr).mp hin) hmem.2

theorem mem_ids_of_candidates (hc : entryCandidates blocks = .ok candidates) (hmem : id ∈ candidates) :
    id ∈ ids blocks := by
  rw [candidates_eq hc] at hmem
  exact List.mem_of_mem_filter hmem

theorem mem_candidates_of_entryBlock {b : Block K} (hc : entryCandidates blocks = .ok candidates)
    (hb : entryBlock blocks entry = .ok (some b)) (hnone : explicitEntry? blocks entry = none) : b.id ∈ candidates := by
  unfold entryBlock at hb
  rw [hnone, hc] at hb
  obtain ⟨id, hfirst, hid⟩ := Option.bind_eq_some_iff.mp (Outcome.pure_eq_ok.mp hb)
  rw [id_of_block?_eq_some hid]
  exact List.mem_of_head? hfirst

end Graph

namespace Validation
open Switchboard.Graph

variable {b : Block K} {earlier : List Finding}

theorem exists_mem_ambiguity_iff : (∃ f, f ∈ ambiguity candidates b) ↔ 1 < candidates.length := by
  unfold ambiguity
  split <;> simp [*]

/-- What the warnings are made of where calls begin at a block: earlier ones about single blocks, that about several
candidates if no entry is given, and those about blocks that cannot be reached. -/
structure WarnsFrom (blocks : List (Block K)) (entry : Option Text) (b : Block K) (candidates reached : List Text)
    (earlier : List Finding) (report : Report) : Prop where
  candidates_ok : entryCandidates blocks = .ok candidates
  reached_ok : reachable blocks b.id = .ok reached
  earlier_single : ∀ f ∈ earlier, f.code = .extraOutgoingEdges ∨ f.code = .unboundMenuOption
  mem_warnings : ∀ f, f ∈ report.warnings ↔ f ∈ earlier ∨
    ( explicitEntry? blocks entry = none ∧ f ∈ ambiguity candidates b) ∨ f ∈ unreachable (ids blocks) candidates reached

theorem exists_warnsFrom (h : validate blocks entry = .ok report) (he : report.entryBlockId = some e) :
    ∃ b candidates reached earlier, entryBlock blocks entry = .ok (some b) ∧ b.id = e ∧
      WarnsFrom blocks entry b candidates reached earlier report := by
  obtain ⟨atEntry, earlier, hentry, hid, hwarnings, hearlier⟩ := atEntry_of_validate h
  obtain ⟨candidates, hcandidates, hentry⟩ := Outcome.bind_eq_ok.mp hentry
  obtain ⟨found, hfound, hentry⟩ := Outcome.bind_eq_ok.mp hentry
  cases found with
  | none =>
    rw [hid, ← Outcome.pure_eq_ok.mp hentry] at he
    cases he
  | some b =>
    obtain ⟨reached, hreached, hentry⟩ := Outcome.bind_eq_ok.mp hentry
    rw [hid, ← Outcome.pure_eq_ok.mp hentry] at he
    refine ⟨b, candidates, reached, earlier, hfound, Option.some.inj he, hcandidates, hreached, hearlier, fun f => ?_⟩
    rw [hwarnings, ← Outcome.pure_eq_ok.mp hentry, List.mem_append, List.mem_append]
    cases explicitEntry? blocks entry <;> simp

namespace WarnsFrom

variable (h : WarnsFrom blocks entry b candidates reached earlier report)

include h

theorem namesUnreachable_iff :
    report.NamesUnreachable id ↔ id ∈ ids blocks ∧ id ∉ reached ∧ id ∉ candidates := by
  constructor
  · rintro ⟨f, hf, hcode, hblock⟩
    rcases (h.mem_warnings f).mp hf with hf | ⟨-, hf⟩ | hf
    · rcases h.earlier_single f hf with hother | hother <;> rw [hother] at hcode <;> cases hcode
    · rw [code_ambiguity hf] at hcode
      cases hcode
    · obtain ⟨named, hnamed, hunreached, hother, rfl⟩ := mem_unreachable_iff.mp hf
      obtain rfl : named = id := Option.some.inj hblock
      exact ⟨hnamed, hunreached, hother⟩
  · rintro ⟨hmem, hunreached, hother⟩
    have hf := mem_unreachable_iff.mpr ⟨id, hmem, hunreached, hother, rfl⟩
    exact ⟨_, (h.mem_warnings _).mpr (Or.inr (Or.inr hf)), rfl, rfl⟩

theorem warnsAmbiguous_iff :
    report.WarnsAmbiguous ↔ explicitEntry? blocks entry = none ∧ 1 < candidates.length := by
  constructor
  · rintro ⟨f, hf, hcode⟩
    rcases (h.mem_warnings f).mp hf with hf | ⟨hnone, hf⟩ | hf
    · rcases h.earlier_single f hf with hother | hother <;> rw [hother] at hcode <;> cases hcode
    · exact ⟨hnone, exists_mem_ambiguity_iff.mp ⟨f, hf⟩⟩
    · obtain ⟨_, _, _, _, rfl⟩ := mem_unreachable_iff.mp hf
      cases hcode
  · rintro ⟨hnone, hseveral⟩
    obtain ⟨f, hf⟩ := exists_mem_ambiguity_iff (b := b).mpr hseveral
    exact ⟨f, (h.mem_warnings f).mpr (Or.inr (Or.inl ⟨hnone, hf⟩)), code_ambiguity hf⟩

end WarnsFrom

/-- A validation that has found an entry names exactly the blocks that cannot be reached from it and are no candidates.
It covers all that cannot be reached if no entry is given, as it then warns of several candidates where there are
others than the entry; if one is given it covers them only where there is no other candidate. -/
theorem unreached_reported (h : validate blocks entry = .ok report) (he : report.entryBlockId = some e) :
    ∃ candidates reached, entryCandidates blocks = .ok candidates ∧ reachable blocks e = .ok reached ∧
      (∀ id ∈ reached, ¬ report.NamesUnreachable id) ∧
      (∀ id ∈ ids blocks, id ∉ reached → (report.NamesUnreachable id ↔ id ∉ candidates)) ∧
      ((∀ id ∈ ids blocks, id ∉ reached →
          report.NamesUnreachable id ∨ (id ∈ candidates ∧ report.WarnsAmbiguous)) ↔
        ( explicitEntry? blocks entry = none ∨ ∀ c ∈ candidates, c = e)) := by
  obtain ⟨b, candidates, reached, earlier, hb, rfl, hwarns⟩ := exists_warnsFrom h he
  have hc := hwarns.candidates_ok
  have hr := hwarns.reached_ok
  have hhas := hasBlock_of_entryBlock hb
  have hstart : b.id ∈ reached := (mem_reachable_iff hhas hr).mpr .refl
  refine ⟨candidates, reached, hc, hr, ?_, ?_, ?_⟩
  · intro id hid hnamed
    exact (hwarns.namesUnreachable_iff.mp hnamed).2.1 hid
  · intro id hid hunreached
    rw [hwarns.namesUnreachable_iff]
    exact ⟨fun hall => hall.2.2, fun hother => ⟨hid, hunreached, hother⟩⟩
  · constructor
    · intro hcovered
      by_cases hnone : explicitEntry? blocks entry = none
      · exact Or.inl hnone
      · -- with an entry given, an unreached candidate would be neither named nor covered
        refine Or.inr fun c hmem => ?_
        by_cases hin : c ∈ reached
        · exact eq_of_mem_reachable hc hhas hr hmem hin
        · rcases hcovered c (mem_ids_of_candidates hc hmem) hin with hnamed | ⟨-, hwarned⟩
          · exact absurd hmem (hwarns.namesUnreachable_iff.mp hnamed).2.2
          · exact absurd (hwarns.warnsAmbiguous_iff.mp hwarned).1 hnone
    · intro hcase id hid hunreached
      by_cases hmem : id ∈ candidates
      · have hne : id ≠ b.id := fun heq => hunreached (heq ▸ hstart)
        rcases hcase with hnone | honly
        · have hfirst : b.id ∈ candidates := mem_candidates_of_entryBlock hc hb hnone
          have hseveral : 1 < candidates.length := by
            by_contra hfew
            obtain ⟨c, rfl⟩ := List.length_eq_one_iff.mp (Nat.le_antisymm (Nat.le_of_not_lt hfew)
              (List.length_pos_of_mem hmem))
            exact hne ((List.mem_singleton.mp hmem).trans (List.mem_singleton.mp hfirst).symm)
          exact Or.inr ⟨hmem, hwarns.warnsAmbiguous_iff.mpr ⟨hnone, hseveral⟩⟩
        · exact absurd (honly id hmem) hne
      · exact Or.inl (hwarns.namesUnreachable_iff.mpr ⟨hid, hunreached, hmem⟩)

theorem unreached_reported_cycle :
    let say (id : Text) (next : List Text) : Block Unit := {
      id, type := .say, config := [("text", .str "Hello")], position := ⟨(), ()⟩, next }
    let blocks := [say "hello" ["bye"], say "bye" [], say "apart" ["bye"], say "ring" ["round"], say "round" ["ring"]]
    ∃ report, validate blocks none = .ok report ∧ report.entryBlockId = some ("hello" : Text) ∧
      report.NamesUnreachable "ring" ∧ report.NamesUnreachable "round" ∧ ¬ report.NamesUnreachable "apart" ∧
      ¬ report.NamesUnreachable "bye" ∧ report.WarnsAmbiguous := by
  intro say blocks
  have hrun : ((validate blocks none).toOption.bind Report.entryBlockId) = some ("hello" : Text) := by decide +kernel
  obtain ⟨report, hreport, he⟩ := Option.bind_eq_some_iff.mp hrun
  have h := Outcome.eq_ok_of_toOption hreport
  obtain ⟨candidates, reached, hc, hr, hreached, hnamed, hcovered⟩ := unreached_reported h he
  have hfirsts : entryCandidates blocks = .ok ["hello", "apart"] := Outcome.eq_ok_of_toOption (by decide +kernel)
  have hfollowed : reachable blocks "hello" = .ok ["hello", "bye"] := Outcome.eq_ok_of_toOption (by decide +kernel)
  obtain rfl : candidates = ["hello", "apart"] := Except.ok.inj (hc.symm.trans hfirsts)
  obtain rfl : reached = ["hello", "bye"] := Except.ok.inj (hr.symm.trans hfollowed)
  have hids : ids blocks = ["hello", "bye", "apart", "ring", "round"] := rfl
  rw [hids] at hnamed hcovered
  have hapart : ¬ report.NamesUnreachable "apart" := fun hnames =>
    (hnamed "apart" (by decide) (by decide)).mp hnames (by decide)
  refine ⟨report, h, he, (hnamed "ring" (by decide) (by decide)).mpr (by decide),
    (hnamed "round" (by decide) (by decide)).mpr (by decide), hapart, hreached "bye" (by decide), ?_⟩
  exact ((hcovered.mpr (Or.inl rfl) "apart" (by decide) (by decide)).resolve_left hapart).2

/-- Where the first block is given as the entry, the second cannot be reached, and nothing is said about it. -/
theorem unreached_candidate_unnamed :
    let say (id : Text) (next : List Text) : Block Unit := {
      id, type := .say, config := [("text", .str "Hello")], position := ⟨(), ()⟩, next }
    let blocks := [say "a" [], say "b" ["c"], say "c" []]
    ∃ report, validate blocks (some ("a" : Text)) = .ok report ∧ report.entryBlockId = some ("a" : Text) ∧
      ids blocks = [("a" : Text), "b", "c"] ∧ reachable blocks "a" = .ok [("a" : Text)] ∧ ¬ report.NamesUnreachable "b" ∧
      ¬ report.WarnsAmbiguous ∧ report.NamesUnreachable "c" := by
  intro say blocks
  refine ⟨_, rfl, rfl, rfl, rfl, ?_, ?_, ?_⟩ <;> decide

end Validation
end Switchboard
