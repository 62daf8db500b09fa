import Switchboard.Proofs.Flow.Accepted
import Switchboard.Proofs.Value.Kinds

/-! # Blocks that can be checked

The options of a menu cannot always be read, and not every setting can be looked at: what is named for failures may be
no key or too long a number to be told, a number may be out of range, and the numbers of a forward may be no list. Here
is a check of the configuration alone, and a validation ends with a report exactly when every block that counts passes
it.
-/
namespace Switchboard

variable {K : Type}

namespace Block

def optionReadable : Value → Bool
  | .obj option =>
    match Entries.get option "digit" with
    | .null | .str (.plain "") => true
    | digit => digit.hasText && (Entries.get option "label").isTextOrNull && (Entries.get option "target").isTextOrNull
  | _ => true

def optionsReadable (config : Entries) : Bool :=
  match config.get "options" with
  | .obj targets => targets.all fun entry => entry.1 == "" || entry.2.isTextOrNull
  | .arr items => items.all optionReadable
  | v => v.isListing

/-- Whether what a block leads to can be told: its options can be read if it is a menu. -/
def hasReadableOptions (b : Block K) : Bool :=
  b.type != .menu || optionsReadable b.config

/-- Whether the settings that are looked at, by the type of the block, can be. -/
def settingsReadable (b : Block K) : Bool :=
  match b.type with
  | .play => (b.config.get "loop").isInRange
  | .forward => (b.config.get "timeout").isInRange
  | .multiForward => (b.config.get "numbers").isListing && (b.config.get "timeout").isInRange
  | .pause => (b.config.get "seconds").isInRange
  | .menu => (b.config.get "timeout").isInRange && (b.config.get "max_attempts").isInRange
  | .say | .sms | .hangup => true

/-- Whether what a block names for failures can be told, as one of the blocks or as one that is missing. -/
def hasWritableEdges (b : Block K) : Bool :=
  b.onFail?.all fun v => v.isKey && v.hasText

def isCheckable (b : Block K) : Bool :=
  b.hasReadableOptions && b.hasWritableEdges && b.settingsReadable

variable {b : Block K}

theorem readDigit_succeeds_iff {v : Value} (h : v.isNull = false) :
    (∃ digit, MenuOption.readDigit v = .done digit) ↔ v.hasText = true := by
  unfold MenuOption.readDigit Value.hasText
  split
  · cases h
  · split
    · next ht => simp [ht]
    · next ht => simp [ht, Reading.fail]

theorem read_option_succeeds_iff {option : Entries} (hdigit : (option.get "digit").isNull = false) :
    (∃ o, MenuOption.read option = .done o) ↔ ((option.get "digit").hasText = true ∧
      (option.get "label").isTextOrNull = true) ∧ (option.get "target").isTextOrNull = true := by
  have hread : (∃ digit, Reading.field option "digit" MenuOption.readDigit = .done digit) ↔
      (option.get "digit").hasText = true := by
    unfold Reading.field
    rw [Reading.under_succeeds_iff]
    unfold Entries.get at hdigit ⊢
    cases hget : option.get? "digit" with
    | none => simp [hget, Value.isNull] at hdigit
    | some digit =>
      rw [hget, Option.getD_some] at hdigit
      exact readDigit_succeeds_iff hdigit
  simp only [MenuOption.read, Reading.seq_succeeds_iff, Reading.map_succeeds_iff, Reading.fieldOr_text_succeeds_iff,
    hread]

theorem readOption_succeeds_iff {item : Value} : (∃ o, readOption item = .ok o) ↔ optionReadable item = true := by
  cases item with
  | obj option =>
    have hread := @read_option_succeeds_iff option
    have hfound : (∃ o, some <$> (MenuOption.read option).outcome = Except.ok o) ↔
        ∃ o, MenuOption.read option = .done o := by
      rw [Outcome.map_succeeds_iff, Reading.outcome_succeeds_iff]
    unfold readOption optionReadable
    cases hdigit : Entries.get option "digit" with
    | null => simp [hdigit]
    | str s =>
      by_cases hs : s = ""
      · simp [hdigit, hs]
      · rw [hdigit] at hread
        simp [hdigit, hs, hfound, hread rfl]
    | _ =>
      rw [hdigit] at hread
      simp [hdigit, hfound, hread rfl]
  | _ => simp [readOption, optionReadable]

theorem menuOptions_succeeds_iff : (∃ options, b.menuOptions = .ok options) ↔ optionsReadable b.config = true := by
  have hpure (found : List (Option MenuOption)) :
      ∃ options, (pure (found.filterMap fun o => o) : Outcome (List MenuOption)) = .ok options := ⟨_, rfl⟩
  unfold menuOptions optionItems optionsReadable
  simp only [Outcome.bind_succeeds_iff, hpure, and_true]
  simp only [Outcome.mapM_succeeds_iff, readOption_succeeds_iff]
  cases Entries.get b.config "options" with
  | obj targets =>
    have hitem (entry : Text × Value) : optionReadable (.obj [("digit", .str entry.1), ("target", entry.2)]) =
        (entry.1 == "" || entry.2.isTextOrNull) := by
      obtain ⟨digit, target⟩ := entry
      have hdigit : Entries.get [("digit", .str digit), ("target", target)] "digit" = .str digit := rfl
      have hlabel : (Entries.get [("digit", .str digit), ("target", target)] "label").isTextOrNull = true := rfl
      have htarget : Entries.get [("digit", .str digit), ("target", target)] "target" = target := rfl
      by_cases hempty : digit = ""
      · rw [hempty]
        rfl
      · simp [optionReadable, hdigit, hlabel, htarget, hempty, Value.hasText, Value.text?]
    simp only [Except.ok.injEq, exists_eq_left', List.forall_mem_map, hitem, List.all_eq_true]
  | arr items => cases items <;> simp [Value.items, Value.truthy, List.all_eq_true]
  | str s => by_cases hs : s = "" <;> simp [Value.items, Value.truthy, Value.isListing, hs, optionReadable]
  | _ =>
    simp only [Value.isListing, Value.items]
    split <;> simp_all

theorem optionTargets_succeeds_iff : (∃ targets, b.optionTargets = .ok targets) ↔ b.hasReadableOptions = true := by
  unfold optionTargets hasReadableOptions
  by_cases htype : b.type = .menu
  · simp only [if_pos htype, Outcome.bind_succeeds_iff]
    simp [htype, menuOptions_succeeds_iff]
  · simp [htype]

theorem edges_succeeds_iff : (∃ edges, b.edges = .ok edges) ↔ b.hasReadableOptions = true := by
  rw [← optionTargets_succeeds_iff, edges, Outcome.bind_succeeds_iff]
  simp

theorem edges_keys_iff {edges : List Value} (h : b.edges = .ok edges) :
    (∀ v ∈ edges, v.isKey = true) ↔ b.onFail?.all Value.isKey = true := by
  constructor
  · intro hkeys
    cases hfail : b.onFail? with
    | none => rfl
    | some v => exact hkeys v (onFail_mem_edges h hfail)
  · intro hfail v hv
    rcases text_or_onFail_of_mem_edges h hv with ⟨id, rfl⟩ | hv
    · rfl
    · rw [hv] at hfail
      exact hfail

theorem edgeIds_succeeds_iff :
    (∃ ids, b.edgeIds = .ok ids) ↔ b.hasReadableOptions = true ∧ b.onFail?.all Value.isKey = true := by
  have hpure (found : List (Option Text)) :
      ∃ ids, (pure (found.filterMap fun id => id) : Outcome (List Text)) = .ok ids := ⟨_, rfl⟩
  unfold edgeIds
  simp only [Outcome.bind_succeeds_iff, hpure, and_true]
  simp only [Outcome.mapM_succeeds_iff, Value.key?_succeeds_iff, ← edges_succeeds_iff]
  constructor
  · rintro ⟨edges, hedges, hkeys⟩
    exact ⟨⟨edges, hedges⟩, (edges_keys_iff hedges).mp hkeys⟩
  · rintro ⟨⟨edges, hedges⟩, hfail⟩
    exact ⟨edges, hedges, (edges_keys_iff hedges).mpr hfail⟩

end Block

namespace Validation

variable {b : Block K} {blocks : List (Block K)} {entry : Option Text}

theorem isPositive_succeeds_iff {v : Value} : (∃ positive, isPositive v = .ok positive) ↔ v.isInRange = true := by
  have hrange := Value.toNumber_eq_tooLarge_iff (v := v)
  unfold isPositive
  cases hnumber : v.toNumber with
  | ok x => simp_all
  | error fault => cases fault <;> simp_all

theorem isInRange_of_isUnset {v : Value} (h : isUnset v = true) : v.isInRange = true := by
  cases v <;> simp_all [isUnset, Value.isInRange]

theorem checkNumber_succeeds_iff {key : Text} :
    (∃ found, checkNumber b key = .ok found) ↔ (b.config.get key).isInRange = true := by
  unfold checkNumber
  by_cases hunset : isUnset (b.config.get key) = true
  · simp [hunset, isInRange_of_isUnset hunset]
  · rw [← isPositive_succeeds_iff]
    simp only [hunset, Bool.false_eq_true, if_false, Outcome.bind_succeeds_iff]
    constructor
    · rintro ⟨positive, hpositive, -⟩
      exact ⟨positive, hpositive⟩
    · rintro ⟨positive, hpositive⟩
      refine ⟨positive, hpositive, ?_⟩
      cases positive <;> exact ⟨_, rfl⟩

theorem items_succeeds_iff {v : Value} :
    (∃ items, (v.orElse (.arr [])).items = .ok items) ↔ v.isListing = true := by
  unfold Value.orElse
  cases v with
  | arr items => cases items <;> simp [Value.truthy, Value.items, Value.isListing]
  | obj entries => cases entries <;> simp [Value.truthy, Value.items, Value.isListing]
  | str s => by_cases hs : s = "" <;> simp [Value.truthy, Value.items, Value.isListing, hs]
  | _ =>
    simp only [Value.isListing]
    split <;> simp_all [Value.items]

theorem checkNumbers_succeeds_iff :
    (∃ found, checkNumbers b = .ok found) ↔ (b.config.get "numbers").isListing = true := by
  rw [← items_succeeds_iff, checkNumbers, Outcome.bind_succeeds_iff]
  refine exists_congr fun items => and_iff_left ?_
  split <;> exact ⟨_, rfl⟩

theorem checkSeconds_succeeds_iff :
    (∃ found, checkSeconds b = .ok found) ↔ (b.config.get "seconds").isInRange = true := by
  unfold checkSeconds
  by_cases hnull : (b.config.get "seconds").isNull = true
  · have hin : (b.config.get "seconds").isInRange = true := by
      cases hseconds : b.config.get "seconds" <;> simp_all [Value.isNull, Value.isInRange]
    simp [hnull, hin]
  · rw [← isPositive_succeeds_iff]
    simp only [hnull, Bool.false_eq_true, if_false, Outcome.bind_succeeds_iff]
    refine exists_congr fun positive => and_iff_left ?_
    cases positive <;> exact ⟨_, rfl⟩

theorem checkOptions_succeeds_iff :
    (∃ found, checkOptions b = .ok found) ↔ Block.optionsReadable b.config = true := by
  rw [← Block.menuOptions_succeeds_iff, checkOptions, Outcome.bind_succeeds_iff]
  exact exists_congr fun options => and_iff_left ⟨_, rfl⟩

theorem checkConfig_succeeds_iff : (∃ found, checkConfig b = .ok found) ↔
    b.settingsReadable = true ∧ (b.type = .menu → Block.optionsReadable b.config = true) := by
  have hpure (found : List Finding) : ∃ all, (pure found : Outcome (List Finding)) = .ok all := ⟨found, rfl⟩
  unfold checkConfig Block.settingsReadable
  cases b.type with
  | say | sms | hangup => simp
  | play | forward => simp only [Outcome.bind_succeeds_iff, hpure, and_true, checkNumber_succeeds_iff]; simp
  | pause => simp [checkSeconds_succeeds_iff]
  | multiForward =>
    simp only [Outcome.bind_succeeds_iff, hpure, and_true, exists_and_right, checkNumbers_succeeds_iff,
      checkNumber_succeeds_iff]
    simp
  | menu =>
    simp only [Outcome.bind_succeeds_iff, hpure, and_true, exists_and_right, checkNumber_succeeds_iff,
      checkOptions_succeeds_iff]
    simp [and_assoc]

theorem lookup_succeeds_iff (blocks : List (Block K)) {v : Value} :
    (∃ found, Graph.lookup blocks v = .ok found) ↔ v.isKey = true := by
  rw [← Value.key?_succeeds_iff, Graph.lookup, Outcome.bind_succeeds_iff]
  exact exists_congr fun key => and_iff_left ⟨_, rfl⟩

theorem hasWritableEdges_iff : b.hasWritableEdges = true ↔
    b.onFail?.all Value.isKey = true ∧ b.onFail?.all Value.hasText = true := by
  unfold Block.hasWritableEdges
  cases b.onFail? <;> simp

theorem dangling_succeeds_iff (blocks : List (Block K)) : (∃ missing, dangling blocks b = .ok missing) ↔
    b.hasReadableOptions = true ∧ b.onFail?.all Value.isKey = true := by
  have hlookup (v : Value) : (∃ pair, (do return (v, ← Graph.lookup blocks v)) = Except.ok pair) ↔
      v.isKey = true := by
    rw [Outcome.bind_succeeds_iff, ← lookup_succeeds_iff blocks]
    exact exists_congr fun found => and_iff_left ⟨_, rfl⟩
  have hmissing {edges : List Value} : (∃ missing, (do
      let found ← edges.mapM fun target => do return (target, ← Graph.lookup blocks target)
      return (found.filter fun pair => pair.2.isNone).map Prod.fst : Outcome (List Value)) = .ok missing) ↔
      ∀ v ∈ edges, v.isKey = true := by
    rw [Outcome.bind_succeeds_iff]
    simp only [← hlookup, ← Outcome.mapM_succeeds_iff]
    exact exists_congr fun found => and_iff_left ⟨_, rfl⟩
  rw [dangling, Outcome.bind_succeeds_iff, ← Block.edges_succeeds_iff]
  constructor
  · rintro ⟨edges, hedges, hkeys⟩
    exact ⟨⟨edges, hedges⟩, (Block.edges_keys_iff hedges).mp (hmissing.mp hkeys)⟩
  · rintro ⟨⟨edges, hedges⟩, hfail⟩
    exact ⟨edges, hedges, hmissing.mpr ((Block.edges_keys_iff hedges).mpr hfail)⟩

theorem mem_dangling_iff {edges missing : List Value} (hedges : b.edges = .ok edges)
    (h : dangling blocks b = .ok missing) {v : Value} :
    v ∈ missing ↔ v ∈ edges ∧ Graph.lookup blocks v = .ok none := by
  obtain ⟨edges', hedges', h⟩ := Outcome.bind_eq_ok.mp h
  obtain rfl : edges = edges' := Except.ok.inj (hedges.symm.trans hedges')
  obtain ⟨found, hfound, h⟩ := Outcome.bind_eq_ok.mp h
  rw [← Outcome.pure_eq_ok.mp h]
  constructor
  · intro hv
    obtain ⟨pair, hpair, rfl⟩ := List.mem_map.mp hv
    obtain ⟨hpair, hnone⟩ := List.mem_filter.mp hpair
    obtain ⟨target, htarget, hlook⟩ := Outcome.mem_of_mapM_eq_ok hfound hpair
    obtain ⟨answer, hanswer, hlook⟩ := Outcome.bind_eq_ok.mp hlook
    obtain rfl := Outcome.pure_eq_ok.mp hlook
    obtain rfl : answer = none := Option.isNone_iff_eq_none.mp hnone
    exact ⟨htarget, hanswer⟩
  · rintro ⟨hv, hnone⟩
    obtain ⟨pair, hpair, hlook⟩ := Outcome.exists_of_mapM_eq_ok hfound hv
    rw [hnone] at hlook
    cases hlook
    exact List.mem_map.mpr ⟨_, List.mem_filter.mpr ⟨hpair, rfl⟩, rfl⟩

/-- The edges are told when what is named for failures can be: an edge that has no text is no id, so it is missing. -/
theorem checkEdges_succeeds_iff (blocks : List (Block K)) :
    (∃ found, checkEdges blocks b = .ok found) ↔ b.hasReadableOptions = true ∧ b.hasWritableEdges = true := by
  have htold (missing : List Value) : (∃ targets, missing.mapM Value.written = .ok targets) ↔
      ∀ v ∈ missing, v.hasText = true := by
    simp only [Outcome.mapM_succeeds_iff, Value.written_succeeds_iff]
  rw [hasWritableEdges_iff, ← and_assoc, ← dangling_succeeds_iff blocks]
  constructor
  · rintro ⟨found, h⟩
    obtain ⟨missing, hmissing, h⟩ := Outcome.bind_eq_ok.mp h
    obtain ⟨targets, htargets, -⟩ := Outcome.bind_eq_ok.mp h
    obtain ⟨edges, hedges, -⟩ := Outcome.bind_eq_ok.mp hmissing
    refine ⟨⟨missing, hmissing⟩, ?_⟩
    cases hfail : b.onFail? with
    | none => rfl
    | some v =>
      have hkey : v.isKey = true := by
        simpa [hfail] using ((dangling_succeeds_iff blocks).mp ⟨missing, hmissing⟩).2
      by_cases htext : v.isText = true
      · exact Value.hasText_of_isText htext
      · have hnone : Graph.lookup blocks v = .ok none := by
          rw [Graph.lookup, Value.key?_of_not_isText hkey (Bool.not_eq_true _ ▸ htext)]
          rfl
        have hv : v ∈ missing := (mem_dangling_iff hedges hmissing).mpr ⟨Block.onFail_mem_edges hedges hfail, hnone⟩
        exact (htold missing).mp ⟨targets, htargets⟩ v hv
  · rintro ⟨⟨missing, hmissing⟩, hfail⟩
    obtain ⟨edges, hedges, -⟩ := Outcome.bind_eq_ok.mp hmissing
    have htexts : ∀ v ∈ missing, v.hasText = true := by
      intro v hv
      rcases Block.text_or_onFail_of_mem_edges hedges ((mem_dangling_iff hedges hmissing).mp hv).1 with
        ⟨id, rfl⟩ | hv
      · rfl
      · rw [hv] at hfail
        exact hfail
    obtain ⟨targets, htargets⟩ := (htold missing).mpr htexts
    exact ⟨_, Outcome.bind_eq_ok.mpr ⟨missing, hmissing, Outcome.bind_eq_ok.mpr ⟨targets, htargets, rfl⟩⟩⟩

theorem unboundOptions_succeeds (h : b.hasReadableOptions = true) : ∃ found, unboundOptions b = .ok found := by
  unfold unboundOptions
  split
  · rename_i htype
    have hoptions : Block.optionsReadable b.config = true := by simpa [Block.hasReadableOptions, htype] using h
    obtain ⟨options, hoptions⟩ := Block.menuOptions_succeeds_iff.mpr hoptions
    rw [hoptions]
    exact ⟨_, rfl⟩
  · exact ⟨_, rfl⟩

theorem checkBlock_succeeds_iff (blocks : List (Block K)) :
    (∃ report, checkBlock blocks b = .ok report) ↔ b.isCheckable = true := by
  unfold Block.isCheckable
  rw [Bool.and_eq_true, Bool.and_eq_true, ← checkEdges_succeeds_iff blocks, checkBlock]
  constructor
  · rintro ⟨report, h⟩
    obtain ⟨edges, hedges, h⟩ := Outcome.bind_eq_ok.mp h
    obtain ⟨config, hconfig, -⟩ := Outcome.bind_eq_ok.mp h
    exact ⟨⟨edges, hedges⟩, (checkConfig_succeeds_iff.mp ⟨config, hconfig⟩).1⟩
  · rintro ⟨hedges, hsettings⟩
    have hoptions := ((checkEdges_succeeds_iff blocks).mp hedges).1
    have hmenu : b.type = .menu → Block.optionsReadable b.config = true := by
      intro htype
      simpa [Block.hasReadableOptions, htype] using hoptions
    obtain ⟨edges, hedges⟩ := hedges
    obtain ⟨config, hconfig⟩ := checkConfig_succeeds_iff.mpr ⟨hsettings, hmenu⟩
    obtain ⟨unbound, hunbound⟩ := unboundOptions_succeeds hoptions
    rw [hedges, hconfig, hunbound]
    exact ⟨_, rfl⟩

theorem entryCandidates_succeeds (h : Graph.EdgesKnown blocks) :
    ∃ candidates, Graph.entryCandidates blocks = .ok candidates := by
  have hlinks : ∃ links, Graph.links blocks = .ok links := by
    refine Outcome.mapM_succeeds ?_
    intro b hb
    obtain ⟨ids, hids⟩ := h b hb
    rw [hids]
    exact ⟨_, rfl⟩
  obtain ⟨links, hlinks⟩ := hlinks
  rw [Graph.entryCandidates, Graph.inDegrees, hlinks]
  exact ⟨_, rfl⟩

theorem checkEntry_succeeds (h : Graph.EdgesKnown blocks) (entry : Option Text) :
    ∃ report, checkEntry blocks entry = .ok report := by
  obtain ⟨candidates, hcandidates⟩ := entryCandidates_succeeds h
  have hentry : ∃ found, Graph.entryBlock blocks entry = .ok found := by
    unfold Graph.entryBlock
    split
    · exact ⟨_, rfl⟩
    · rw [hcandidates]
      exact ⟨_, rfl⟩
  obtain ⟨found, hfound⟩ := hentry
  rw [checkEntry, hcandidates, hfound]
  cases found with
  | none => exact ⟨_, rfl⟩
  | some b =>
    obtain ⟨reached, hreached, -⟩ := Graph.reachable_closed h (Graph.hasBlock_of_entryBlock hfound)
    simp only [bind, Except.bind, hreached]
    exact ⟨_, rfl⟩

/-- A validation ends with a report exactly when every block that counts can be checked. -/
theorem validate_succeeds_iff :
    (∃ report, validate blocks entry = .ok report) ↔ ∀ b ∈ Graph.distinct blocks, b.isCheckable = true := by
  constructor
  · rintro ⟨report, h⟩ b hb
    obtain ⟨inBlocks, hblocks, -⟩ := Outcome.bind_eq_ok.mp h
    obtain ⟨reports, hreports, -⟩ := Outcome.bind_eq_ok.mp hblocks
    obtain ⟨own, -, hown⟩ := Outcome.exists_of_mapM_eq_ok hreports hb
    exact (checkBlock_succeeds_iff blocks).mp ⟨own, hown⟩
  · intro h
    obtain ⟨reports, hreports⟩ := Outcome.mapM_succeeds fun b hb =>
      (checkBlock_succeeds_iff blocks).mpr (h b hb)
    have hknown : Graph.EdgesKnown blocks := by
      intro b hb
      have hcheckable := h b hb
      rw [Block.isCheckable, Bool.and_eq_true, Bool.and_eq_true] at hcheckable
      exact Block.edgeIds_succeeds_iff.mpr ⟨hcheckable.1.1, (hasWritableEdges_iff.mp hcheckable.1.2).1⟩
    obtain ⟨atEntry, hentry⟩ := checkEntry_succeeds hknown entry
    rw [validate, checkBlocks, hreports, hentry]
    exact ⟨_, rfl⟩

end Validation
end Switchboard
