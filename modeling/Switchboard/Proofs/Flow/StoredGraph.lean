import Switchboard.Proofs.Flow.StoredBlock
import Switchboard.Proofs.Flow.WellFormed
import Switchboard.Proofs.Value.Written

/-! # What storing keeps of a graph

Numbers that are not finite are lost when blocks are stored. This can take options from a menu and settings from any
block, but no block leads anywhere new: a graph that was accepted stays in order, and whether the stored flow would be
accepted depends on its settings alone.
-/
namespace Switchboard

namespace Value

theorem finiteItems_eq_map (items : List Value) : finiteItems items = items.map finiteOnly := by
  induction items with
  | nil => simp [finiteItems]
  | cons v rest ih => rw [finiteItems, ih, List.map_cons]

theorem finiteEntries_eq_map (entries : Entries) :
    finiteEntries entries = entries.map fun entry => (entry.1, entry.2.finiteOnly) := by
  induction entries with
  | nil => simp [finiteEntries]
  | cons entry rest ih => rw [finiteEntries, ih, List.map_cons]

theorem finiteOnly_of_isTextOrNull {v : Value} (h : v.isTextOrNull = true) : v.finiteOnly = v := by
  cases v <;> simp_all [isTextOrNull, isNull, isText, finiteOnly]

@[simp] theorem finiteOnly_eq_str_iff {v : Value} {s : Text} : v.finiteOnly = .str s ↔ v = .str s := by
  cases v with
  | float x => by_cases hx : x.isFinite = true <;> simp [finiteOnly, hx]
  | _ => simp [finiteOnly]

theorem truthy_of_finiteOnly {v : Value} (h : v.finiteOnly.truthy = true) : v.truthy = true := by
  cases v with
  | float x => by_cases hx : x.isFinite = true <;> simp_all [finiteOnly, truthy]
  | arr items => simpa [finiteOnly, finiteItems_eq_map, truthy] using h
  | obj entries => simpa [finiteOnly, finiteEntries_eq_map, truthy] using h
  | _ => exact h

theorem items_finiteOnly {v : Value} {items : List Value} (h : v.items = .ok items) :
    v.finiteOnly.items = .ok (items.map finiteOnly) ∧ v.finiteOnly.truthy = v.truthy := by
  cases v with
  | arr values =>
    cases h
    simp [finiteOnly, Value.items, truthy, finiteItems_eq_map]
  | obj entries =>
    cases h
    simp [finiteOnly, Value.items, truthy, finiteEntries_eq_map]
  | str s =>
    cases h
    simp [finiteOnly, Value.items]
  | _ => cases h

theorem listed_finiteOnly {v : Value} {items : List Value}
    (h : (if v.truthy then v.items else .ok []) = .ok items) :
    (if v.finiteOnly.truthy then v.finiteOnly.items else .ok []) = Except.ok (items.map finiteOnly) := by
  by_cases ht : v.truthy = true
  · rw [if_pos ht] at h
    obtain ⟨hitems, hsame⟩ := items_finiteOnly h
    rw [hsame, if_pos ht, hitems]
  · rw [if_neg ht] at h
    cases h
    rw [if_neg (mt truthy_of_finiteOnly ht)]
    rfl

end Value

namespace Entries

theorem get?_finiteEntries (entries : Entries) (key : Text) :
    Entries.get? (Value.finiteEntries entries) key = (entries.get? key).map Value.finiteOnly := by
  unfold get?
  rw [Value.finiteEntries_eq_map]
  induction entries with
  | nil => rfl
  | cons entry rest ih =>
    rw [List.map_cons, List.lookup_cons, List.lookup_cons, ih]
    split <;> rfl

theorem get_finiteEntries (entries : Entries) (key : Text) :
    Entries.get (Value.finiteEntries entries) key = (entries.get key).finiteOnly := by
  unfold get
  rw [get?_finiteEntries]
  cases entries.get? key <;> simp [Value.finiteOnly]

end Entries

namespace Block

theorem target_of_read {entries : Entries} {o : MenuOption} (h : MenuOption.read entries = .done o) :
    o.target = (entries.get "target").asText? := by
  obtain ⟨_, target, hrest, htarget, rfl⟩ := Reading.seq_eq_done.mp h
  obtain ⟨_, label, hdigit, -, rfl⟩ := Reading.seq_eq_done.mp hrest
  obtain ⟨digit, -, rfl⟩ := Reading.map_eq_done.mp hdigit
  change target = _
  unfold Reading.fieldOr at htarget
  unfold Entries.get
  cases hget : entries.get? "target" with
  | none =>
    rw [hget] at htarget
    cases htarget
    rfl
  | some v =>
    rw [hget] at htarget
    cases v with
    | null =>
      cases htarget
      rfl
    | str s =>
      cases htarget
      rfl
    | _ => cases htarget

/-- An option that can be read still can be once it is stored, and it leads to the same block. -/
theorem read_option_finiteEntries {entries : Entries} {o : MenuOption} (h : MenuOption.read entries = .done o)
    (hdigit : (entries.get "digit").finiteOnly.isNull = false) :
    ∃ kept, MenuOption.read (Value.finiteEntries entries) = .done kept ∧ kept.target = o.target := by
  have hdigit' : (entries.get "digit").isNull = false := by
    cases hv : entries.get "digit" with
    | null => simp [hv, Value.finiteOnly, Value.isNull] at hdigit
    | _ => rfl
  obtain ⟨⟨htext, hlabel⟩, htarget⟩ := (read_option_succeeds_iff hdigit').mp ⟨o, h⟩
  have hread : ∃ kept, MenuOption.read (Value.finiteEntries entries) = .done kept := by
    refine (read_option_succeeds_iff ?_).mpr ?_
    · rw [Entries.get_finiteEntries]
      exact hdigit
    · rw [Entries.get_finiteEntries, Entries.get_finiteEntries, Entries.get_finiteEntries,
        Value.finiteOnly_of_isTextOrNull hlabel, Value.finiteOnly_of_isTextOrNull htarget]
      exact ⟨⟨Value.hasText_finiteOnly htext, hlabel⟩, htarget⟩
  obtain ⟨kept, hkept⟩ := hread
  refine ⟨kept, hkept, ?_⟩
  rw [target_of_read hkept, target_of_read h, Entries.get_finiteEntries, Value.finiteOnly_of_isTextOrNull htarget]

theorem readOption_of_digit {entries : Entries} (hnull : entries.get "digit" ≠ .null)
    (hempty : entries.get "digit" ≠ .str "") :
    readOption (.obj entries) = some <$> (MenuOption.read entries).outcome := by
  unfold readOption
  split <;> simp_all

theorem readOption_finiteOnly {item : Value} {o : Option MenuOption} (h : readOption item = .ok o) :
    ∃ kept, readOption item.finiteOnly = .ok kept ∧
      ∀ id, kept.bind MenuOption.target? = some id → o.bind MenuOption.target? = some id := by
  cases item with
  | obj entries =>
    have hget : Entries.get (Value.finiteEntries entries) "digit" = (Entries.get entries "digit").finiteOnly :=
      Entries.get_finiteEntries entries "digit"
    rw [Value.finiteOnly]
    by_cases hskipped : (Entries.get entries "digit").finiteOnly = .null ∨ (Entries.get entries "digit").finiteOnly = .str ""
    -- without its digit the stored item is skipped
    · refine ⟨none, ?_, by simp⟩
      unfold readOption
      rcases hskipped with hdigit | hdigit <;> simp [hget, hdigit]
    · obtain ⟨hnull, hempty⟩ := not_or.mp hskipped
      have hnull' : Entries.get entries "digit" ≠ .null := by
        intro heq
        rw [heq] at hnull
        exact hnull (Value.finiteOnly_of_isTextOrNull rfl)
      have hempty' : Entries.get entries "digit" ≠ .str "" := fun heq => hempty (Value.finiteOnly_eq_str_iff.mpr heq)
      rw [readOption_of_digit hnull' hempty'] at h
      obtain ⟨m, hm, rfl⟩ := Outcome.map_eq_ok.mp h
      obtain ⟨kept, hkept, htarget⟩ := read_option_finiteEntries (Reading.outcome_eq_ok.mp hm) (by simp_all [Value.isNull])
      refine ⟨some kept, ?_, ?_⟩
      · rw [readOption_of_digit (hget ▸ hnull) (hget ▸ hempty), hkept]
        rfl
      · simp [MenuOption.target?, htarget]
  | float x =>
    refine ⟨none, ?_, by simp⟩
    by_cases hx : x.isFinite = true <;> simp [Value.finiteOnly, hx, readOption]
  | _ => exact ⟨none, by simp [Value.finiteOnly, readOption], by simp⟩

theorem optionItems_finiteEntries {config : Entries} {items : List Value} (h : optionItems config = .ok items) :
    optionItems (Value.finiteEntries config) = .ok (items.map Value.finiteOnly) := by
  unfold optionItems at h ⊢
  rw [Entries.get_finiteEntries]
  cases hv : Entries.get config "options" with
  | obj targets =>
    rw [hv] at h
    cases h
    simp [Value.finiteOnly, Value.finiteEntries, Value.finiteEntries_eq_map]
  | float x =>
    rw [hv] at h
    have hlisted := Value.listed_finiteOnly h
    rw [Value.finiteOnly] at hlisted ⊢
    by_cases hx : x.isFinite = true
    · rw [if_pos hx] at hlisted ⊢
      exact hlisted
    · rw [if_neg hx] at hlisted ⊢
      exact hlisted
  | _ =>
    rw [hv] at h
    exact Value.listed_finiteOnly h

theorem menuOptions_stored {b : Block} {options : List MenuOption} (h : b.menuOptions = .ok options) :
    ∃ kept, b.stored.menuOptions = .ok kept ∧
      ∀ o ∈ kept, ∀ id, o.target? = some id → ∃ before ∈ options, before.target? = some id := by
  obtain ⟨items, hitems, h⟩ := Outcome.bind_eq_ok.mp h
  obtain ⟨found, hfound, h⟩ := Outcome.bind_eq_ok.mp h
  rw [← Outcome.pure_eq_ok.mp h]
  obtain ⟨kept, hkept⟩ : ∃ kept, (items.map Value.finiteOnly).mapM readOption = Except.ok kept := by
    refine Outcome.mapM_succeeds (List.forall_mem_map.mpr fun item hitem => ?_)
    obtain ⟨before, -, hbefore⟩ := Outcome.exists_of_mapM_eq_ok hfound hitem
    obtain ⟨o, ho, -⟩ := readOption_finiteOnly hbefore
    exact ⟨o, ho⟩
  refine ⟨kept.filterMap fun o => o, ?_, ?_⟩
  · rw [menuOptions, stored, optionItems_finiteEntries hitems]
    simp only [bind, Except.bind, hkept]
    rfl
  · intro o ho id hid
    obtain ⟨_, hmem, rfl⟩ := List.mem_filterMap.mp ho
    obtain ⟨_, hstored, hread⟩ := Outcome.mem_of_mapM_eq_ok hkept hmem
    obtain ⟨item, hitem, rfl⟩ := List.mem_map.mp hstored
    obtain ⟨before, hbefore, hreads⟩ := Outcome.exists_of_mapM_eq_ok hfound hitem
    obtain ⟨o', ho', hleads⟩ := readOption_finiteOnly hreads
    obtain rfl : o' = some o := Except.ok.inj (ho'.symm.trans hread)
    obtain ⟨n, rfl, hn⟩ := Option.bind_eq_some_iff.mp (hleads id hid)
    exact ⟨n, List.mem_filterMap.mpr ⟨some n, hbefore, rfl⟩, hn⟩

theorem optionTargets_stored {b : Block} {targets : List Text} (h : b.optionTargets = .ok targets) :
    ∃ kept, b.stored.optionTargets = .ok kept ∧ ∀ id ∈ kept, id ∈ targets := by
  have htype : b.stored.type = b.type := rfl
  unfold optionTargets at h ⊢
  rw [htype]
  split at h
  · rename_i hmenu
    obtain ⟨options, hoptions, h⟩ := Outcome.bind_eq_ok.mp h
    obtain ⟨kept, hkept, hleads⟩ := menuOptions_stored hoptions
    rw [← Outcome.pure_eq_ok.mp h, if_pos hmenu, hkept]
    refine ⟨_, rfl, fun id hid => ?_⟩
    obtain ⟨o, ho, hid⟩ := List.mem_filterMap.mp hid
    exact List.mem_filterMap.mpr (hleads o ho id hid)
  · rename_i hmenu
    rw [if_neg hmenu]
    exact ⟨[], rfl, fun id hid => absurd hid List.not_mem_nil⟩

theorem onFail?_stored {b : Block} {v : Value} (h : b.stored.onFail? = some v) :
    ∃ before, b.onFail? = some before ∧ v = before.finiteOnly := by
  unfold onFail? Value.truthy? stored at h
  rw [Entries.get_finiteEntries] at h
  split at h
  · rename_i htruthy
    refine ⟨b.config.get "on_fail", ?_, (Option.some.inj h).symm⟩
    rw [onFail?, Value.truthy?, if_pos (Value.truthy_of_finiteOnly htruthy)]
  · cases h

theorem edges_stored {b : Block} {edges : List Value} (h : b.edges = .ok edges) :
    ∃ kept, b.stored.edges = .ok kept ∧ ∀ v ∈ kept, ∃ before ∈ edges, v = before.finiteOnly := by
  obtain ⟨targets, htargets, -⟩ := Outcome.bind_eq_ok.mp h
  obtain ⟨keptTargets, hkept, hsub⟩ := optionTargets_stored htargets
  refine ⟨_, by rw [Block.edges, hkept]; rfl, fun v hv => ?_⟩
  rcases List.mem_append.mp (Value.mem_of_mem_distinct hv) with hv | hv
  · obtain ⟨id, hid, rfl⟩ := List.mem_map.mp hv
    refine ⟨.str id, (mem_edges_str_iff h).mpr ?_, (Value.finiteOnly_eq_str_iff.mpr rfl).symm⟩
    exact (List.mem_append.mp hid).imp_right fun hid => Or.inl ⟨targets, htargets, hsub id hid⟩
  · obtain ⟨before, hbefore, rfl⟩ := onFail?_stored (Option.mem_toList.mp hv)
    exact ⟨before, onFail_mem_edges h hbefore, rfl⟩

theorem mem_edgeIds_of_stored {b : Block} {ids kept : List Text} {id : Text} (h : b.edgeIds = .ok ids)
    (hkept : b.stored.edgeIds = .ok kept) (hid : id ∈ kept) : id ∈ ids := by
  obtain ⟨edges, hedges, -, rfl⟩ := edgeIds_eq_ok h
  obtain ⟨keptEdges, hkeptEdges, -, rfl⟩ := edgeIds_eq_ok hkept
  obtain ⟨keptEdges', hsame, hfrom⟩ := edges_stored hedges
  obtain rfl : keptEdges' = keptEdges := Except.ok.inj (hsame.symm.trans hkeptEdges)
  obtain ⟨v, hv, htext⟩ := List.mem_filterMap.mp hid
  obtain ⟨before, hbefore, heq⟩ := hfrom v hv
  rw [Value.asText?_eq_some.mp htext, eq_comm, Value.finiteOnly_eq_str_iff] at heq
  exact List.mem_filterMap.mpr ⟨before, hbefore, Value.asText?_eq_some.mpr heq⟩

end Block

variable {blocks : List Block} {entry : Option Text}

namespace Graph

theorem IsSource.stored {id : Text} (hedges : ∀ b ∈ blocks, ∃ ids, b.edgeIds = .ok ids) (h : IsSource blocks id) :
    IsSource (blocks.map Block.stored) id := by
  refine List.forall_mem_map.mpr fun b hb hne kept hkept hid => ?_
  obtain ⟨ids, hids⟩ := hedges b hb
  exact h b hb hne ids hids (Block.mem_edgeIds_of_stored hids hkept hid)

theorem WellFormed.edges_stored (h : WellFormed blocks entry) (hedges : ∀ b ∈ blocks, ∃ ids, b.edgeIds = .ok ids) :
    ∀ b ∈ blocks.map Block.stored,
      ∃ edges, b.edges = .ok edges ∧ ∀ v ∈ edges, ∃ c ∈ blocks.map Block.stored, v = .str c.id := by
  refine List.forall_mem_map.mpr fun b hb => ?_
  obtain ⟨_, hids⟩ := hedges b hb
  obtain ⟨edges, hedges, -⟩ := Block.edgeIds_eq_ok hids
  obtain ⟨kept, hkept, hfrom⟩ := Block.edges_stored hedges
  refine ⟨kept, hkept, fun v hv => ?_⟩
  obtain ⟨before, hbefore, rfl⟩ := hfrom v hv
  obtain ⟨c, hc, rfl⟩ := h.edges b hb edges hedges before hbefore
  exact ⟨c.stored, List.mem_map_of_mem hc, Value.finiteOnly_eq_str_iff.mpr rfl⟩

/-- A graph that is well-formed stays so when it is stored, if the settings stay in order. -/
theorem WellFormed.stored (h : WellFormed blocks entry) (hedges : ∀ b ∈ blocks, ∃ ids, b.edgeIds = .ok ids)
    (hsettings : ∀ b ∈ blocks, Validation.checkConfig b.stored = .ok []) :
    WellFormed (blocks.map Block.stored) entry := by
  have hids : (blocks.map Block.stored).map Block.id = blocks.map Block.id := by rw [List.map_map]; rfl
  constructor
  · exact hids ▸ h.ids
  · intro b hb edges hedges'
    obtain ⟨kept, hkept, hleads⟩ := h.edges_stored hedges b hb
    cases hkept.symm.trans hedges'
    exact hleads
  · exact List.forall_mem_map.mpr hsettings
  · intro id hid hne
    obtain ⟨b, hb, hsame⟩ := h.explicit id hid hne
    exact ⟨b.stored, List.mem_map_of_mem hb, hsame⟩
  · refine h.begins.imp_right ?_
    rintro ⟨b, hb, hsource⟩
    exact ⟨b.stored, List.mem_map_of_mem hb, hsource.stored hedges⟩

theorem WellFormed.edgeIds {b : Block} {edges : List Value} (h : WellFormed blocks entry) (hb : b ∈ blocks)
    (hedges : b.edges = .ok edges) : ∃ ids, b.edgeIds = .ok ids := by
  refine Block.edgeIds_succeeds_iff.mpr ⟨Block.edges_succeeds_iff.mp ⟨edges, hedges⟩, ?_⟩
  refine (Block.edges_keys_iff hedges).mp fun v hv => ?_
  obtain ⟨c, -, rfl⟩ := h.edges b hb edges hedges v hv
  rfl

end Graph

namespace Validation

theorem Accepts.wellFormed (h : Accepts blocks entry) : Graph.WellFormed blocks entry := by
  obtain ⟨report, hr, hok⟩ := h
  exact (ok_validate_iff hr).mp hok

theorem Accepts.edgeIds {b : Block} (h : Accepts blocks entry) (hb : b ∈ blocks) : ∃ ids, b.edgeIds = .ok ids := by
  have hdistinct := Graph.distinct_eq_self h.wellFormed.ids
  obtain ⟨report, hr, -⟩ := h
  exact (isCheckable_iff.mp (validate_succeeds_iff.mp ⟨report, hr⟩ b (hdistinct.symm ▸ hb))).1

/-- A flow that was accepted is so once it is stored exactly when the settings of its blocks are still in order. -/
theorem Accepts.stored_iff (h : Accepts blocks entry) : Accepts (blocks.map Block.stored) entry ↔
    ∀ b ∈ blocks, checkConfig b.stored = .ok [] := by
  constructor
  · intro hstored b hb
    exact hstored.wellFormed.settings b.stored (List.mem_map_of_mem hb)
  · intro hsettings
    have hw := h.wellFormed.stored (fun b hb => h.edgeIds hb) hsettings
    have hends : ∃ report, validate (blocks.map Block.stored) entry = .ok report := by
      refine validate_succeeds_iff.mpr ?_
      rw [Graph.distinct_eq_self hw.ids]
      refine List.forall_mem_map.mpr fun b hb => ?_
      obtain ⟨_, hids⟩ := h.edgeIds hb
      obtain ⟨edges, hedges, -⟩ := Block.edgeIds_eq_ok hids
      obtain ⟨kept, hkept, -⟩ := Block.edges_stored hedges
      have hmem : b.stored ∈ blocks.map Block.stored := List.mem_map_of_mem hb
      have hknown := hw.edgeIds hmem hkept
      exact isCheckable_iff.mpr ⟨hknown, ⟨[], hsettings b hb⟩, hasText_of_wellFormed hw hmem hknown⟩
    obtain ⟨report, hr⟩ := hends
    exact ⟨report, hr, (ok_validate_iff hr).mpr hw⟩

end Validation
end Switchboard
