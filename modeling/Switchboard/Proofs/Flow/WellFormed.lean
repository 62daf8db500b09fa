import Switchboard.Proofs.Flow.Checkable
import Switchboard.Proofs.Flow.Sources

/-! # Which graphs a validation accepts

A validation accepts the well-formed graphs and no others: no id comes twice, every edge leads to a block, the settings of
all blocks are in order, and there is a block where a call begins, the one that is named or a source. This is said
of the blocks as a set, so their order does not matter, but for which of several sources comes first.
-/
namespace Switchboard

variable {K : Type} {blocks others : List (Block K)} {entry : Option Text} {b : Block K}

/-- Whether a flow with these blocks and this explicit entry is well-formed; an empty entry is none. -/
structure Graph.WellFormed (blocks : List (Block K)) (entry : Option Text) : Prop where
  ids : (blocks.map Block.id).Nodup
  edges : ∀ b ∈ blocks, ∀ edges, b.edges = .ok edges → ∀ v ∈ edges, ∃ c ∈ blocks, v = .str c.id
  settings : ∀ b ∈ blocks, Validation.checkConfig b = .ok []
  explicit : ∀ id, entry = some id → id ≠ "" → ∃ b ∈ blocks, b.id = id
  begins : (∃ id, entry = some id ∧ id ≠ "") ∨ ∃ b ∈ blocks, Graph.IsSource blocks b.id

namespace Graph

theorem IsSource.perm {id : Text} (hp : others.Perm blocks) (h : IsSource blocks id) : IsSource others id :=
  fun b hb => h b (hp.subset hb)

theorem WellFormed.perm (hp : others.Perm blocks) (h : WellFormed blocks entry) : WellFormed others entry := by
  constructor
  · exact (hp.map Block.id).nodup_iff.mpr h.ids
  · intro b hb edges hedges v hv
    obtain ⟨c, hc, hid⟩ := h.edges b (hp.subset hb) edges hedges v hv
    exact ⟨c, hp.symm.subset hc, hid⟩
  · exact fun b hb => h.settings b (hp.subset hb)
  · intro id hid hne
    obtain ⟨b, hb, hsame⟩ := h.explicit id hid hne
    exact ⟨b, hp.symm.subset hb, hsame⟩
  · refine h.begins.imp_right ?_
    rintro ⟨b, hb, hsource⟩
    exact ⟨b, hp.symm.subset hb, hsource.perm hp⟩

theorem id_of_explicitEntry (hexplicit : ∀ id, entry = some id → id ≠ "" → ∃ b ∈ blocks, b.id = id) :
    ( explicitEntry? blocks entry).map Block.id = entry.filter (· != ("" : Text)) := by
  unfold explicitEntry?
  cases hnamed : entry.filter (· != ("" : Text)) with
  | none => rfl
  | some id =>
    obtain ⟨hentry, hne⟩ := Option.filter_eq_some_iff.mp hnamed
    obtain ⟨b, hb⟩ := hasBlock_iff.mp (hasBlock_iff_mem.mpr (hexplicit id hentry (bne_iff_ne.mp hne)))
    rw [Option.bind_some, hb, Option.map_some, id_of_block?_eq_some hb]

theorem begins_iff (hexplicit : ∀ id, entry = some id → id ≠ "" → ∃ b ∈ blocks, b.id = id) :
    (( explicitEntry? blocks entry).or (firstSource? blocks)).isSome = true ↔
      (∃ id, entry = some id ∧ id ≠ "") ∨ ∃ b ∈ blocks, IsSource blocks b.id := by
  rw [Option.isSome_or, Bool.or_eq_true, ← Option.isSome_map, id_of_explicitEntry hexplicit]
  refine or_congr ?_ ?_
  · simp only [Option.isSome_iff_exists, Option.filter_eq_some_iff, bne_iff_ne]
  · simp [firstSource?]

end Graph

namespace Validation

theorem isCheckable_iff : b.isCheckable = true ↔ (∃ ids, b.edgeIds = .ok ids) ∧
    (∃ found, checkConfig b = .ok found) ∧ b.onFail?.all Value.hasText = true := by
  rw [Block.edgeIds_succeeds_iff, checkConfig_succeeds_iff, Block.isCheckable, Bool.and_eq_true, Bool.and_eq_true,
    hasWritableEdges_iff]
  constructor
  · rintro ⟨⟨hoptions, hkey, htext⟩, hsettings⟩
    refine ⟨⟨hoptions, hkey⟩, ⟨hsettings, fun htype => ?_⟩, htext⟩
    simpa [Block.hasReadableOptions, htype] using hoptions
  · rintro ⟨⟨hoptions, hkey⟩, ⟨hsettings, -⟩, htext⟩
    exact ⟨⟨hoptions, hkey, htext⟩, hsettings⟩

theorem edges_of_validate {report : Report} (h : validate blocks entry = .ok report) (hb : b ∈ Graph.distinct blocks) :
    ∃ edges, b.edges = .ok edges := by
  obtain ⟨⟨ids, hids⟩, -⟩ := isCheckable_iff.mp (validate_succeeds_iff.mp ⟨report, h⟩ b hb)
  obtain ⟨edges, hedges, -⟩ := Block.edgeIds_eq_ok hids
  exact ⟨edges, hedges⟩

theorem ok_validate_iff {report : Report} (h : validate blocks entry = .ok report) :
    report.ok = true ↔ Graph.WellFormed blocks entry := by
  obtain ⟨inBlocks, atEntry, hblocks, hentry, -, hok⟩ := of_validate h
  obtain ⟨found, hfound, hsome, -⟩ := of_checkEntry hentry
  have hnamed : (∀ id, entry.filter (· != ("" : Text)) = some id → Graph.hasBlock blocks id = true) ↔
      ∀ id, entry = some id → id ≠ "" → ∃ b ∈ blocks, b.id = id := by
    simp only [Option.filter_eq_some_iff, bne_iff_ne, Graph.hasBlock_iff_mem, and_imp]
  rw [hok, ok_checkBlocks_iff hblocks, ok_checkExplicitEntry_iff, hnamed, hsome, Graph.entryBlock_eq hfound]
  -- either side has ids that do not come twice, and then every block counts
  constructor
  · rintro ⟨⟨hids, hall⟩, hexplicit, hbegins⟩
    rw [Graph.distinct_eq_self hids] at hall hbegins
    refine ⟨hids, ?_, fun b hb => (hall b hb).2, hexplicit, (Graph.begins_iff hexplicit).mp hbegins⟩
    intro b hb edges hedges v hv
    obtain ⟨edges', hedges', hlookup⟩ := checkEdges_eq_nil_iff.mp (hall b hb).1
    obtain rfl : edges' = edges := Except.ok.inj (hedges'.symm.trans hedges)
    exact Graph.lookup_eq_some_iff.mp (hlookup v hv)
  · intro hw
    rw [Graph.distinct_eq_self hw.ids, Graph.begins_iff hw.explicit]
    refine ⟨⟨hw.ids, fun b hb => ⟨?_, hw.settings b hb⟩⟩, hw.explicit, hw.begins⟩
    obtain ⟨edges, hedges⟩ := edges_of_validate h ((Graph.distinct_eq_self hw.ids).symm ▸ hb)
    exact checkEdges_eq_nil_iff.mpr
      ⟨edges, hedges, fun v hv => Graph.lookup_eq_some_iff.mpr (hw.edges b hb edges hedges v hv)⟩

theorem entry_of_validate {report : Report} (h : validate blocks entry = .ok report)
    (hw : Graph.WellFormed blocks entry) :
    report.entryBlockId = (entry.filter (· != ("" : Text))).or ((Graph.firstSource? blocks).map Block.id) := by
  obtain ⟨inBlocks, atEntry, -, hentry, hreported, hok⟩ := of_validate h
  obtain ⟨found, hfound, hsome, hid⟩ := of_checkEntry hentry
  have hbegins : found.isSome = true := hsome ▸ (hok.mp ((ok_validate_iff h).mpr hw)).2.2
  have hreports : report.entryBlockId = found.map Block.id := by
    rw [hreported, hid]
    obtain ⟨e, rfl⟩ := Option.isSome_iff_exists.mp hbegins
    rfl
  rw [hreports, Graph.entryBlock_eq hfound, Option.map_or, Graph.id_of_explicitEntry hw.explicit,
    Graph.distinct_eq_self hw.ids]

/-- What a block of a well-formed graph names for failures is an id. -/
theorem hasText_of_wellFormed (hw : Graph.WellFormed blocks entry) (hb : b ∈ blocks)
    (hedges : ∃ ids, b.edgeIds = .ok ids) : b.onFail?.all Value.hasText = true := by
  obtain ⟨ids, hids⟩ := hedges
  obtain ⟨edges, hedges, -⟩ := Block.edgeIds_eq_ok hids
  cases hfail : b.onFail? with
  | none => rfl
  | some v =>
    obtain ⟨c, -, rfl⟩ := hw.edges b hb edges hedges v (Block.onFail_mem_edges hedges hfail)
    rfl

/-- Blocks whose edges and settings can be told are accepted exactly when the graph is well-formed; then the entry that
is reported is the one that is named, or else the first source. In another order of the blocks as much is accepted. A
validation gives no report where a block that counts names for failures what has no text, which is no id. -/
theorem accepts_exactly_wellFormed (hedges : ∀ b ∈ blocks, ∃ ids, b.edgeIds = .ok ids)
    (hconfig : ∀ b ∈ blocks, ∃ found, checkConfig b = .ok found) (entry : Option Text) :
    (Accepts blocks entry ↔ Graph.WellFormed blocks entry) ∧
    (∀ report, validate blocks entry = .ok report → (report.ok = true ↔ Graph.WellFormed blocks entry) ∧
      (report.ok = true → report.entryBlockId =
        (entry.filter (· != ("" : Text))).or ((Graph.firstSource? blocks).map Block.id))) ∧
    (∀ others : List (Block K), others.Perm blocks → (Accepts others entry ↔ Accepts blocks entry)) ∧
    ((∃ report, validate blocks entry = .ok report) ↔
      ∀ b ∈ Graph.distinct blocks, b.onFail?.all Value.hasText = true) := by
  have hends (others : List (Block K)) (hp : others.Perm blocks) : (∃ report, validate others entry = .ok report) ↔
      ∀ b ∈ Graph.distinct others, b.onFail?.all Value.hasText = true := by
    rw [validate_succeeds_iff]
    refine forall₂_congr fun b hb => isCheckable_iff.trans ?_
    have hmem : b ∈ blocks := hp.subset (Graph.mem_of_mem_distinct hb)
    exact ⟨fun h => h.2.2, fun h => ⟨hedges b hmem, hconfig b hmem, h⟩⟩
  have haccepts (others : List (Block K)) (hp : others.Perm blocks) :
      Accepts others entry ↔ Graph.WellFormed others entry := by
    constructor
    · rintro ⟨report, h, hok⟩
      exact (ok_validate_iff h).mp hok
    · intro hw
      obtain ⟨report, h⟩ := (hends others hp).mpr fun b hb =>
        have hmem := Graph.mem_of_mem_distinct hb
        hasText_of_wellFormed hw hmem (hedges b (hp.subset hmem))
      exact ⟨report, h, (ok_validate_iff h).mpr hw⟩
  refine ⟨haccepts blocks (List.Perm.refl _), fun report h => ?_, fun others hp => ?_, hends blocks (List.Perm.refl _)⟩
  · have hok := ok_validate_iff h
    exact ⟨hok, fun hr => entry_of_validate h (hok.mp hr)⟩
  · rw [haccepts others hp, haccepts blocks (List.Perm.refl _)]
    exact ⟨fun hw => hw.perm hp.symm, fun hw => hw.perm hp⟩

theorem accepts_exactly_wellFormed_menu :
    let main : Block Unit := {
      id := "main", type := .menu, position := ⟨(), ()⟩, next := []
      config := [("prompt", .str "Press 1"), ("options", .obj [("1", .str "main"), ("2", .str "desk")])] }
    let desk : Block Unit := {
      id := "desk", type := .forward, position := ⟨(), ()⟩, next := []
      config := [("to", .str "+15551230001")] }
    Graph.WellFormed [desk, main] none ∧ Accepts [main, desk] none ∧
      ∃ report, validate [desk, main] none = .ok report ∧ report.entryBlockId = some ("main" : Text) := by
  intro main desk
  have hedges : ∀ b ∈ [desk, main], ∃ ids, b.edgeIds = .ok ids := by
    intro b hb
    refine Block.edgeIds_succeeds_iff.mpr ?_
    revert b
    decide +kernel
  have hconfig : ∀ b ∈ [desk, main], ∃ found, checkConfig b = .ok found := by
    intro b hb
    refine checkConfig_succeeds_iff.mpr ?_
    revert b
    decide +kernel
  obtain ⟨hok, hreport, horder, hends⟩ := accepts_exactly_wellFormed hedges hconfig none
  have haccepts : Accepts [desk, main] none := by decide +kernel
  have hfirst : (Graph.firstSource? [desk, main]).map Block.id = some ("main" : Text) := by decide +kernel
  obtain ⟨report, h⟩ := hends.mpr (by decide +kernel)
  have hentry := (hreport report h).2 ((hreport report h).1.mpr (hok.mp haccepts))
  refine ⟨hok.mp haccepts, (horder [main, desk] (List.Perm.swap desk main [])).mpr haccepts, report, h, ?_⟩
  rw [hentry, hfirst]
  rfl

end Validation
end Switchboard
