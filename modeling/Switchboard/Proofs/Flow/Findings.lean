import Switchboard.Proofs.Flow.Accepted

/-! # What a validation finds

The checks of the blocks and that of the entry report different codes. So whatever is found about where a call begins
and what it never comes to is found by the check of the entry, from the entry, the candidates and what can be reached.
-/
namespace Switchboard

variable {K : Type} {blocks : List (Block K)} {entry : Option Text} {b : Block K} {key : Text} {f : Finding}
  {found : List Finding} {report : Report}

theorem Report.errors_foldl (reports : List Report) (r : Report) :
    (reports.foldl Report.append r).errors = r.errors ++ reports.flatMap Report.errors := by
  induction reports generalizing r with
  | nil => simp
  | cons first rest ih =>
    rw [List.foldl_cons, ih, List.flatMap_cons, ← List.append_assoc]
    rfl

theorem Report.warnings_foldl (reports : List Report) (r : Report) :
    (reports.foldl Report.append r).warnings = r.warnings ++ reports.flatMap Report.warnings := by
  induction reports generalizing r with
  | nil => simp
  | cons first rest ih =>
    rw [List.foldl_cons, ih, List.flatMap_cons, ← List.append_assoc]
    rfl

theorem Report.entryBlockId_foldl {reports : List Report} (h : ∀ own ∈ reports, own.entryBlockId = none) (r : Report) :
    (reports.foldl Report.append r).entryBlockId = r.entryBlockId := by
  induction reports generalizing r with
  | nil => rfl
  | cons first rest ih =>
    have hfirst : first.entryBlockId = none := h first List.mem_cons_self
    rw [List.foldl_cons, ih (fun own hown => h own (List.mem_cons_of_mem _ hown)), Report.append, hfirst,
      Option.none_or]

def FindingCode.isOfSettings : FindingCode → Bool
  | missingRequiredConfig | invalidConfig => true
  | _ => false

namespace Validation

theorem isOfSettings_errorAt {code : FindingCode} {message : Text} (hcode : code.isOfSettings = true)
    (hf : f ∈ errorAt b code message) : f.code.isOfSettings = true := by
  rw [List.mem_singleton.mp hf]
  exact hcode

theorem isOfSettings_checkRequired (hf : f ∈ checkRequired b key) : f.code.isOfSettings = true := by
  unfold checkRequired at hf
  split at hf
  · exact isOfSettings_errorAt rfl hf
  · cases hf

theorem isOfSettings_of_check {ok : Outcome Bool} {code : FindingCode} {message : Text}
    (hcode : code.isOfSettings = true)
    (h : (do if ← ok then return [] else return errorAt b code message) = Except.ok found) (hf : f ∈ found) :
    f.code.isOfSettings = true := by
  obtain ⟨fine, -, h⟩ := Outcome.bind_eq_ok.mp h
  cases fine with
  | true =>
    rw [← Outcome.pure_eq_ok.mp h] at hf
    cases hf
  | false =>
    rw [← Outcome.pure_eq_ok.mp h] at hf
    exact isOfSettings_errorAt hcode hf

theorem isOfSettings_checkNumber (h : checkNumber b key = .ok found) (hf : f ∈ found) :
    f.code.isOfSettings = true := by
  unfold checkNumber at h
  dsimp only at h
  split at h
  · cases h
    cases hf
  · exact isOfSettings_of_check rfl h hf

theorem isOfSettings_checkSeconds (h : checkSeconds b = .ok found) (hf : f ∈ found) : f.code.isOfSettings = true := by
  unfold checkSeconds at h
  dsimp only at h
  split at h
  · cases h
    exact isOfSettings_checkRequired hf
  · exact isOfSettings_of_check rfl h hf

theorem isOfSettings_checkNumbers (h : checkNumbers b = .ok found) (hf : f ∈ found) : f.code.isOfSettings = true := by
  obtain ⟨numbers, -, h⟩ := Outcome.bind_eq_ok.mp h
  split at h
  · cases h
    exact isOfSettings_errorAt rfl hf
  · cases h
    cases hf

theorem isOfSettings_checkOptions (h : checkOptions b = .ok found) (hf : f ∈ found) : f.code.isOfSettings = true := by
  obtain ⟨options, -, h⟩ := Outcome.bind_eq_ok.mp h
  rw [← Outcome.pure_eq_ok.mp h] at hf
  rcases List.mem_append.mp hf with hf | hf <;> split at hf
  · exact isOfSettings_errorAt rfl hf
  · cases hf
  · cases hf
  · exact isOfSettings_errorAt rfl hf

theorem isOfSettings_checkConfig (h : checkConfig b = .ok found) (hf : f ∈ found) : f.code.isOfSettings = true := by
  unfold checkConfig at h
  split at h
  case h_1 | h_3 =>
    cases h
    exact isOfSettings_checkRequired hf
  case h_2 | h_4 =>
    obtain ⟨number, hnumber, h⟩ := Outcome.bind_eq_ok.mp h
    rw [← Outcome.pure_eq_ok.mp h] at hf
    rcases List.mem_append.mp hf with hf | hf
    · exact isOfSettings_checkRequired hf
    · exact isOfSettings_checkNumber hnumber hf
  case h_5 =>
    obtain ⟨numbers, hnumbers, h⟩ := Outcome.bind_eq_ok.mp h
    obtain ⟨timeout, htimeout, h⟩ := Outcome.bind_eq_ok.mp h
    rw [← Outcome.pure_eq_ok.mp h] at hf
    rcases List.mem_append.mp hf with hf | hf
    · exact isOfSettings_checkNumbers hnumbers hf
    · exact isOfSettings_checkNumber htimeout hf
  case h_6 => exact isOfSettings_checkSeconds h hf
  case h_7 =>
    obtain ⟨timeout, htimeout, h⟩ := Outcome.bind_eq_ok.mp h
    obtain ⟨attempts, hattempts, h⟩ := Outcome.bind_eq_ok.mp h
    obtain ⟨options, hoptions, h⟩ := Outcome.bind_eq_ok.mp h
    rw [← Outcome.pure_eq_ok.mp h, List.mem_append, List.mem_append, List.mem_append] at hf
    rcases hf with ((hf | hf) | hf) | hf
    · exact isOfSettings_checkRequired hf
    · exact isOfSettings_checkNumber htimeout hf
    · exact isOfSettings_checkNumber hattempts hf
    · exact isOfSettings_checkOptions hoptions hf
  case h_8 =>
    cases h
    cases hf

theorem code_checkEdges (h : checkEdges blocks b = .ok found) (hf : f ∈ found) : f.code = .danglingEdge := by
  obtain ⟨missing, -, h⟩ := Outcome.bind_eq_ok.mp h
  obtain ⟨targets, -, h⟩ := Outcome.bind_eq_ok.mp h
  rw [← Outcome.pure_eq_ok.mp h] at hf
  obtain ⟨target, -, rfl⟩ := List.mem_map.mp hf
  rfl

theorem code_extraEdges (hf : f ∈ extraEdges b) : f.code = .extraOutgoingEdges := by
  unfold extraEdges at hf
  split at hf
  · rw [List.mem_singleton.mp hf]
  · cases hf

theorem code_unboundOptions (h : unboundOptions b = .ok found) (hf : f ∈ found) : f.code = .unboundMenuOption := by
  unfold unboundOptions at h
  split at h
  · obtain ⟨options, -, h⟩ := Outcome.bind_eq_ok.mp h
    rw [← Outcome.pure_eq_ok.mp h] at hf
    obtain ⟨option, -, rfl⟩ := List.mem_map.mp hf
    rfl
  · cases h
    cases hf

/-- What is found in a block: edges to no block and its settings are errors, and connections that are not followed and
options that lead nowhere are warned of. -/
theorem codes_checkBlock (h : checkBlock blocks b = .ok report) :
    (∀ f ∈ report.errors, f.code = .danglingEdge ∨ f.code.isOfSettings = true) ∧
    ∀ f ∈ report.warnings, f.code = .extraOutgoingEdges ∨ f.code = .unboundMenuOption := by
  obtain ⟨edges, hedges, h⟩ := Outcome.bind_eq_ok.mp h
  obtain ⟨config, hconfig, h⟩ := Outcome.bind_eq_ok.mp h
  obtain ⟨unbound, hunbound, h⟩ := Outcome.bind_eq_ok.mp h
  rw [← Outcome.pure_eq_ok.mp h]
  constructor
  · intro f hf
    rcases List.mem_append.mp hf with hf | hf
    · exact Or.inl (code_checkEdges hedges hf)
    · exact Or.inr (isOfSettings_checkConfig hconfig hf)
  · intro f hf
    rcases List.mem_append.mp hf with hf | hf
    · exact Or.inl (code_extraEdges hf)
    · exact Or.inr (code_unboundOptions hunbound hf)

theorem codes_checkBlocks (h : checkBlocks blocks = .ok report) :
    (∀ f ∈ report.errors, f.code = .duplicateBlockId ∨ f.code = .danglingEdge ∨ f.code.isOfSettings = true) ∧
    ∀ f ∈ report.warnings, f.code = .extraOutgoingEdges ∨ f.code = .unboundMenuOption := by
  obtain ⟨perBlock, hper, h⟩ := Outcome.bind_eq_ok.mp h
  rw [← Outcome.pure_eq_ok.mp h, Report.errors_append, Report.warnings_append, Report.errors_foldl,
    Report.warnings_foldl]
  constructor
  · intro f hf
    rcases List.mem_append.mp hf with hid | hf
    · obtain ⟨id, -, rfl⟩ := List.mem_map.mp hid
      exact Or.inl rfl
    · obtain ⟨own, hown, hf⟩ := List.mem_flatMap.mp hf
      obtain ⟨b, -, hcheck⟩ := Outcome.mem_of_mapM_eq_ok hper hown
      exact Or.inr ((codes_checkBlock hcheck).1 f hf)
  · intro f hf
    obtain ⟨own, hown, hf⟩ := List.mem_flatMap.mp hf
    obtain ⟨b, -, hcheck⟩ := Outcome.mem_of_mapM_eq_ok hper hown
    exact (codes_checkBlock hcheck).2 f hf

theorem codes_checkExplicitEntry : (∀ f ∈ (checkExplicitEntry blocks entry).errors, f.code = .danglingEdge) ∧
    (checkExplicitEntry blocks entry).warnings = [] := by
  unfold checkExplicitEntry
  split
  · split <;> simp [missingEntry]
  · simp

theorem mem_unreachable_iff {ids candidates reached : List Text} :
    f ∈ unreachable ids candidates reached ↔ ∃ id ∈ ids, id ∉ reached ∧ id ∉ candidates ∧
      f = { code := .unreachableBlock, message := "block '" ++ id ++ "' cannot be reached from the entry",
            blockId := some id } := by
  simp [unreachable, and_assoc, eq_comm (b := f)]

theorem code_ambiguity {candidates : List Text} {e : Block K} (hf : f ∈ ambiguity candidates e) :
    f.code = .multipleAmbiguousEntries := by
  unfold ambiguity at hf
  split at hf
  · rw [List.mem_singleton.mp hf]
  · cases hf

theorem noEntryPoint_iff (h : validate blocks entry = .ok report) :
    (∃ f ∈ report.errors, f.code = .noEntryPoint) ↔ Graph.entryBlock blocks entry = .ok none := by
  obtain ⟨inBlocks, hblocks, h⟩ := Outcome.bind_eq_ok.mp h
  obtain ⟨atEntry, hentry, h⟩ := Outcome.bind_eq_ok.mp h
  obtain ⟨candidates, -, hentry⟩ := Outcome.bind_eq_ok.mp hentry
  obtain ⟨begins, hbegins, hentry⟩ := Outcome.bind_eq_ok.mp hentry
  have helsewhere : ∀ f ∈ (inBlocks ++ checkExplicitEntry blocks entry).errors, f.code ≠ .noEntryPoint := by
    intro f hf
    rcases List.mem_append.mp hf with hf | hf
    · rcases (codes_checkBlocks hblocks).1 f hf with hcode | hcode | hcode
      · rw [hcode]
        decide
      · rw [hcode]
        decide
      · rintro heq
        rw [heq] at hcode
        cases hcode
    · rw [codes_checkExplicitEntry.1 f hf]
      decide
  rw [hbegins, ← Outcome.pure_eq_ok.mp h, Report.errors_append]
  cases begins with
  | none =>
    rw [← Outcome.pure_eq_ok.mp hentry]
    exact ⟨fun _ => rfl, fun _ => ⟨_, List.mem_append_right _ List.mem_cons_self, rfl⟩⟩
  | some e =>
    obtain ⟨reached, -, hentry⟩ := Outcome.bind_eq_ok.mp hentry
    rw [← Outcome.pure_eq_ok.mp hentry]
    constructor
    · rintro ⟨f, hf, hcode⟩
      rw [List.append_nil] at hf
      exact absurd hcode (helsewhere f hf)
    · intro hnone
      cases hnone

theorem entryBlockId_checkBlocks (h : checkBlocks blocks = .ok report) : report.entryBlockId = none := by
  obtain ⟨perBlock, hper, h⟩ := Outcome.bind_eq_ok.mp h
  have hnone : ∀ own ∈ perBlock, own.entryBlockId = none := by
    intro own hown
    obtain ⟨b, -, hcheck⟩ := Outcome.mem_of_mapM_eq_ok hper hown
    obtain ⟨edges, -, hcheck⟩ := Outcome.bind_eq_ok.mp hcheck
    obtain ⟨config, -, hcheck⟩ := Outcome.bind_eq_ok.mp hcheck
    obtain ⟨unbound, -, hcheck⟩ := Outcome.bind_eq_ok.mp hcheck
    rw [← Outcome.pure_eq_ok.mp hcheck]
  have hfold := Report.entryBlockId_foldl hnone {}
  rw [← Outcome.pure_eq_ok.mp h]
  exact congrArg (·.or none) hfold

theorem entryBlockId_checkExplicitEntry : (checkExplicitEntry blocks entry).entryBlockId = none := by
  unfold checkExplicitEntry
  split
  · split <;> rfl
  · rfl

/-- The entry that is reported is that of its check, whose warnings come after those about single blocks. -/
theorem atEntry_of_validate (h : validate blocks entry = .ok report) :
    ∃ atEntry earlier, checkEntry blocks entry = .ok atEntry ∧ report.entryBlockId = atEntry.entryBlockId ∧
      report.warnings = earlier ++ atEntry.warnings ∧
      ∀ f ∈ earlier, f.code = .extraOutgoingEdges ∨ f.code = .unboundMenuOption := by
  obtain ⟨inBlocks, hblocks, h⟩ := Outcome.bind_eq_ok.mp h
  obtain ⟨atEntry, hentry, h⟩ := Outcome.bind_eq_ok.mp h
  refine ⟨atEntry, inBlocks.warnings, hentry, ?_, ?_, (codes_checkBlocks hblocks).2⟩
  · have hbefore : (inBlocks ++ checkExplicitEntry blocks entry).entryBlockId = none := by
      have hor : (inBlocks ++ checkExplicitEntry blocks entry).entryBlockId =
          (checkExplicitEntry blocks entry).entryBlockId.or inBlocks.entryBlockId := rfl
      rw [hor, entryBlockId_checkExplicitEntry, entryBlockId_checkBlocks hblocks, Option.none_or]
    have hor : (inBlocks ++ checkExplicitEntry blocks entry ++ atEntry).entryBlockId =
        atEntry.entryBlockId.or (inBlocks ++ checkExplicitEntry blocks entry).entryBlockId := rfl
    rw [← Outcome.pure_eq_ok.mp h, hor, hbefore, Option.or_none]
  · rw [← Outcome.pure_eq_ok.mp h, Report.warnings_append, Report.warnings_append, codes_checkExplicitEntry.2,
      List.append_nil]

/-- A block is warned of as one that calls never come to only if it cannot be reached from the entry and is no
candidate. -/
theorem of_unreachableBlock (h : validate blocks entry = .ok report) (hf : f ∈ report.warnings)
    (hcode : f.code = .unreachableBlock) : ∃ e candidates reached id,
      Graph.entryBlock blocks entry = .ok (some e) ∧ Graph.entryCandidates blocks = .ok candidates ∧
      Graph.reachable blocks e.id = .ok reached ∧ f.blockId = some id ∧ id ∈ Graph.ids blocks ∧ id ∉ reached ∧
      id ∉ candidates := by
  obtain ⟨atEntry, earlier, hentry, -, hwarnings, hearlier⟩ := atEntry_of_validate h
  obtain ⟨candidates, hcandidates, hentry⟩ := Outcome.bind_eq_ok.mp hentry
  obtain ⟨begins, hbegins, hentry⟩ := Outcome.bind_eq_ok.mp hentry
  rw [hwarnings] at hf
  rcases List.mem_append.mp hf with hf | hf
  · rcases hearlier f hf with hother | hother <;> rw [hother] at hcode <;> cases hcode
  · cases begins with
    | none =>
      rw [← Outcome.pure_eq_ok.mp hentry] at hf
      cases hf
    | some e =>
      obtain ⟨reached, hreached, hentry⟩ := Outcome.bind_eq_ok.mp hentry
      rw [← Outcome.pure_eq_ok.mp hentry] at hf
      rcases List.mem_append.mp hf with hf | hf
      · split at hf
        · cases hf
        · rw [code_ambiguity hf] at hcode
          cases hcode
      · obtain ⟨id, hid, hreach, hcandidate, rfl⟩ := mem_unreachable_iff.mp hf
        exact ⟨e, candidates, reached, id, hbegins, hcandidates, hreached, rfl, hid, hreach, hcandidate⟩

end Validation
end Switchboard
