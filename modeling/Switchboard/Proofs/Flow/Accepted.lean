import Switchboard.Flow.Validation
import Switchboard.Proofs.Flow.Reach

/-! # What a validation accepts

A flow that may be saved has an entry, every edge of a block that counts leads to a block, and nothing is wrong
with the settings of these blocks. All of it can be computed.
-/
namespace Switchboard

variable {K : Type} {blocks : List (Block K)} {entry : Option Text} {b : Block K}

theorem Report.ok_foldl (reports : List Report) (r : Report) :
    (reports.foldl Report.append r).ok = (r.ok && reports.all Report.ok) := by
  induction reports generalizing r with
  | nil => simp
  | cons first rest ih =>
    have happ : (Report.append r first).ok = (r.ok && first.ok) := Report.ok_append r first
    rw [List.foldl_cons, ih, happ, List.all_cons, Bool.and_assoc]

namespace Validation

/-- Whether a flow with these blocks and this explicit entry may be saved. -/
def Accepts (blocks : List (Block K)) (entry : Option Text) : Prop :=
  ∃ report, validate blocks entry = .ok report ∧ report.ok = true

theorem accepts_iff : Accepts blocks entry ↔ (validate blocks entry).toOption.any Report.ok = true := by
  unfold Accepts
  cases validate blocks entry <;> simp [Except.toOption]

instance : Decidable (Accepts blocks entry) := decidable_of_iff _ accepts_iff.symm

theorem repeatedIds_eq_nil_iff {seen : List Text} :
    repeatedIds seen blocks = [] ↔ (blocks.map Block.id).Nodup ∧ ∀ b ∈ blocks, b.id ∉ seen := by
  induction blocks generalizing seen with
  | nil => simp [repeatedIds]
  | cons b rest ih =>
    rw [repeatedIds]
    by_cases hb : b.id ∈ seen
    · simp [hb]
    · have hrest : repeatedIds (b.id :: seen) rest = [] ↔
          (rest.map Block.id).Nodup ∧ ∀ c ∈ rest, c.id ≠ b.id ∧ c.id ∉ seen := by simp [ih]
      simp only [List.contains_iff_mem, hb, if_false, hrest, List.map_cons, List.nodup_cons, List.mem_map,
        List.forall_mem_cons, not_false_eq_true, true_and, not_exists, not_and, imp_and, forall_and]
      tauto

theorem ok_checkIds_iff : (checkIds blocks).ok = true ↔ (blocks.map Block.id).Nodup := by
  rw [checkIds, Report.ok, List.isEmpty_iff, List.map_eq_nil_iff, repeatedIds_eq_nil_iff]
  simp

theorem checkEdges_eq_nil_iff : checkEdges blocks b = .ok [] ↔
    ∃ edges, b.edges = .ok edges ∧ ∀ v ∈ edges, ∃ c, Graph.lookup blocks v = .ok (some c) := by
  constructor
  · intro h
    obtain ⟨missing, hmissing, h⟩ := Outcome.bind_eq_ok.mp h
    obtain ⟨targets, htargets, h⟩ := Outcome.bind_eq_ok.mp h
    obtain ⟨edges, hedges, hmissing⟩ := Outcome.bind_eq_ok.mp hmissing
    obtain ⟨found, hfound, hmissing⟩ := Outcome.bind_eq_ok.mp hmissing
    have hnone : missing = [] := by
      refine List.eq_nil_iff_forall_not_mem.mpr fun v hv => ?_
      obtain ⟨target, htarget, -⟩ := Outcome.exists_of_mapM_eq_ok htargets hv
      rw [List.map_eq_nil_iff.mp (Outcome.pure_eq_ok.mp h)] at htarget
      exact List.not_mem_nil htarget
    rw [hnone, Outcome.pure_eq_ok, List.map_eq_nil_iff, List.filter_eq_nil_iff] at hmissing
    refine ⟨edges, hedges, ?_⟩
    intro v hv
    obtain ⟨pair, hpair, hlook⟩ := Outcome.exists_of_mapM_eq_ok hfound hv
    obtain ⟨answer, hanswer, hlook⟩ := Outcome.bind_eq_ok.mp hlook
    have hsome := hmissing pair hpair
    rw [← Outcome.pure_eq_ok.mp hlook] at hsome
    cases answer with
    | none => simp at hsome
    | some c => exact ⟨c, hanswer⟩
  · rintro ⟨edges, hedges, hfound⟩
    obtain ⟨pairs, hpairs⟩ : ∃ pairs, edges.mapM (fun target => do
        return (target, ← Graph.lookup blocks target)) = Except.ok pairs := by
      refine Outcome.mapM_succeeds fun v hv => ?_
      obtain ⟨c, hc⟩ := hfound v hv
      exact ⟨(v, some c), by rw [hc]; rfl⟩
    have hnone : pairs.filter (fun pair => pair.2.isNone) = [] := by
      refine List.filter_eq_nil_iff.mpr fun pair hpair => ?_
      obtain ⟨v, hv, hlook⟩ := Outcome.mem_of_mapM_eq_ok hpairs hpair
      obtain ⟨c, hc⟩ := hfound v hv
      rw [hc] at hlook
      cases hlook
      exact Bool.false_ne_true
    have hmissing : dangling blocks b = .ok [] := by
      refine Outcome.bind_eq_ok.mpr ⟨edges, hedges, Outcome.bind_eq_ok.mpr ⟨pairs, hpairs, ?_⟩⟩
      rw [hnone]
      rfl
    rw [checkEdges, hmissing]
    rfl

theorem ok_checkBlock_iff {report : Report} (h : checkBlock blocks b = .ok report) :
    report.ok = true ↔ checkEdges blocks b = .ok [] ∧ checkConfig b = .ok [] := by
  obtain ⟨edges, hedges, h⟩ := Outcome.bind_eq_ok.mp h
  obtain ⟨config, hconfig, h⟩ := Outcome.bind_eq_ok.mp h
  obtain ⟨unbound, -, h⟩ := Outcome.bind_eq_ok.mp h
  rw [← Outcome.pure_eq_ok.mp h, Report.ok, List.isEmpty_iff, List.append_eq_nil_iff, hedges, hconfig,
    Except.ok.injEq, Except.ok.injEq]

/-- Nothing is wrong with the blocks exactly when no id comes twice and nothing is wrong with any that counts. -/
theorem ok_checkBlocks_iff {report : Report} (h : checkBlocks blocks = .ok report) : report.ok = true ↔
    (blocks.map Block.id).Nodup ∧
      ∀ b ∈ Graph.distinct blocks, checkEdges blocks b = .ok [] ∧ checkConfig b = .ok [] := by
  obtain ⟨perBlock, hper, h⟩ := Outcome.bind_eq_ok.mp h
  rw [← Outcome.pure_eq_ok.mp h, Report.ok_append, Report.ok_foldl, Bool.and_eq_true, ok_checkIds_iff]
  refine and_congr_right fun _ => ?_
  rw [Bool.and_eq_true, List.all_eq_true]
  constructor
  · rintro ⟨-, hall⟩ b hb
    obtain ⟨own, hown, hcheck⟩ := Outcome.exists_of_mapM_eq_ok hper hb
    exact (ok_checkBlock_iff hcheck).mp (hall own hown)
  · intro hall
    refine ⟨rfl, fun own hown => ?_⟩
    obtain ⟨b, hb, hcheck⟩ := Outcome.mem_of_mapM_eq_ok hper hown
    exact (ok_checkBlock_iff hcheck).mpr (hall b hb)

theorem ok_checkExplicitEntry_iff : (checkExplicitEntry blocks entry).ok = true ↔
    ∀ id, entry.filter (· != ("" : Text)) = some id → Graph.hasBlock blocks id = true := by
  unfold checkExplicitEntry
  split
  · rename_i id hid
    simp only [hid, Option.some.injEq, forall_eq']
    by_cases hhas : Graph.hasBlock blocks id = true
    · simp [hhas, Report.ok]
    · simp [hhas, Report.ok, missingEntry]
  · rename_i hnone
    simp [hnone, Report.ok]

theorem of_checkEntry {report : Report} (h : checkEntry blocks entry = .ok report) :
    ∃ found, Graph.entryBlock blocks entry = .ok found ∧ report.ok = found.isSome ∧
      report.entryBlockId = found.map Block.id := by
  obtain ⟨candidates, -, h⟩ := Outcome.bind_eq_ok.mp h
  obtain ⟨found, hfound, h⟩ := Outcome.bind_eq_ok.mp h
  refine ⟨found, hfound, ?_⟩
  cases found with
  | none =>
    rw [← Outcome.pure_eq_ok.mp h]
    exact ⟨rfl, rfl⟩
  | some e =>
    obtain ⟨reached, -, h⟩ := Outcome.bind_eq_ok.mp h
    rw [← Outcome.pure_eq_ok.mp h]
    exact ⟨rfl, rfl⟩

/-- A validation that ends is made of the checks of the blocks, of the explicit entry and of the entry. -/
theorem of_validate {report : Report} (h : validate blocks entry = .ok report) :
    ∃ inBlocks atEntry, checkBlocks blocks = .ok inBlocks ∧ checkEntry blocks entry = .ok atEntry ∧
      report.entryBlockId = atEntry.entryBlockId.or (inBlocks ++ checkExplicitEntry blocks entry).entryBlockId ∧
      (report.ok = true ↔
        inBlocks.ok = true ∧ (checkExplicitEntry blocks entry).ok = true ∧ atEntry.ok = true) := by
  obtain ⟨inBlocks, hblocks, h⟩ := Outcome.bind_eq_ok.mp h
  obtain ⟨atEntry, hentry, h⟩ := Outcome.bind_eq_ok.mp h
  refine ⟨inBlocks, atEntry, hblocks, hentry, ?_⟩
  rw [← Outcome.pure_eq_ok.mp h, Report.ok_append, Report.ok_append, Bool.and_eq_true, Bool.and_eq_true, and_assoc]
  exact ⟨rfl, Iff.rfl⟩

namespace Accepts

theorem hasEntry (h : Accepts blocks entry) : ∃ e, Graph.entryBlock blocks entry = .ok (some e) := by
  obtain ⟨report, hr, hok⟩ := h
  obtain ⟨_, atEntry, -, hentry, -, hall⟩ := of_validate hr
  obtain ⟨found, hfound, hsome, -⟩ := of_checkEntry hentry
  rw [(hall.mp hok).2.2, eq_comm, Option.isSome_iff_exists] at hsome
  obtain ⟨e, rfl⟩ := hsome
  exact ⟨e, hfound⟩

theorem checked (h : Accepts blocks entry) (hb : b ∈ Graph.distinct blocks) :
    checkEdges blocks b = .ok [] ∧ checkConfig b = .ok [] := by
  obtain ⟨report, hr, hok⟩ := h
  obtain ⟨inBlocks, _, hblocks, -, -, hall⟩ := of_validate hr
  exact ((ok_checkBlocks_iff hblocks).mp (hall.mp hok).1).2 b hb

theorem edges (h : Accepts blocks entry) (hb : b ∈ Graph.distinct blocks) :
    ∃ edges, b.edges = .ok edges ∧ ∀ v ∈ edges, ∃ c, Graph.lookup blocks v = .ok (some c) :=
  checkEdges_eq_nil_iff.mp (h.checked hb).1

section
variable (h : Accepts blocks entry) (hb : b ∈ Graph.distinct blocks)

include h hb

theorem lookup_next {next : Text} (hn : b.firstNext? = some next) :
    ∃ c, Graph.lookup blocks (.str next) = .ok (some c) := by
  obtain ⟨edges, hedges, hfound⟩ := h.edges hb
  exact hfound _ ((Block.mem_edges_str_iff hedges).mpr (Or.inl (List.mem_of_head? hn)))

theorem lookup_onFail {v : Value} (hv : b.onFail? = some v) : ∃ c, Graph.lookup blocks v = .ok (some c) := by
  obtain ⟨edges, hedges, hfound⟩ := h.edges hb
  exact hfound v (Block.onFail_mem_edges hedges hv)

theorem lookup_target {digits : Option Text} {option : MenuOption} {target : Text} (htype : b.type = .menu)
    (ho : b.optionFor digits = .ok (some option)) (ht : option.target? = some target) :
    ∃ c, Graph.lookup blocks (.str target) = .ok (some c) := by
  obtain ⟨edges, hedges, hfound⟩ := h.edges hb
  exact hfound _ ((Block.mem_edges_str_iff hedges).mpr (Or.inr (Or.inl (Block.mem_optionTargets htype ho ht))))

end

end Accepts
end Validation
end Switchboard
