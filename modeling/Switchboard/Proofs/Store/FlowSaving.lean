import Switchboard.Proofs.Store.FlowTable
import Switchboard.Proofs.Value.Written

/-! # Saving a flow

A save is an upsert into the table without the row that the flow leaves. No row outside the slot of the flow has
the id of the save, so no constraint of the table refuses it, and only the rows of one owner change. What it
gives back is the flow that the table has afterwards. A flow saved under the id and the number of its row
overwrites this row and no other. A flow that cannot be written is not saved.
-/
namespace Switchboard.Store.FlowTable

variable {table table' : FlowTable} {flow saved : CallFlow} {row : FlowRow} {replace : Bool} {now : Text}
  {supply : Supply}

def saveId (table : FlowTable) (flow : CallFlow) (supply : Supply) : Text :=
  (ownId? table flow).getD supply.next

def entry (table : FlowTable) (flow : CallFlow) (now : Text) (supply : Supply) : FlowRow :=
  .ofFlow flow (saveId table flow supply)
    ((if (ownId? table flow).isSome then filled flow.createdAt else none).getD now) now

def vacated (table : FlowTable) (flow : CallFlow) : FlowTable :=
  match ownId? table flow with
  | some id => retire table flow id
  | none => table

def Fresh (table : FlowTable) (flow : CallFlow) (supply : Supply) : Prop :=
  ownId? table flow = none → (supply.next : Text) ∉ table.map FlowRow.id

theorem storable_eq_ok_iff {new : FlowRow} :
    storable flow new = .ok () ↔ flow.document.isWritable = true ∧ new.IsEncodable := by
  have hid (h : new.IsEncodable) : bound [new.id] = .ok () := bound_eq_ok_iff.mpr (by simpa using h.id)
  unfold storable
  constructor
  · intro h
    obtain ⟨_, -, h⟩ := Outcome.bind_eq_ok.mp h
    by_cases hw : flow.document.isWritable = true
    · rw [hw] at h
      exact ⟨hw, bound_eq_ok_iff.mp h⟩
    · simp [hw, bind, Except.bind, throw, throwThe, MonadExceptOf.throw] at h
  · rintro ⟨hw, hnew⟩
    rw [hid hnew, hw]
    exact bound_eq_ok_iff.mpr hnew

theorem storable_ne_conflict {new : FlowRow} {number existing : Text} :
    storable flow new ≠ .error (.conflict number existing) := by
  have hbound (texts : List Text) : bound texts ≠ .error (.conflict number existing) := by
    intro h
    obtain ⟨_, -, -, hfault⟩ := bound_eq_error h
    cases hfault
  unfold storable
  cases hid : bound [new.id] with
  | error fault =>
    intro h
    cases h
    exact hbound _ hid
  | ok _ =>
    intro h
    split at h
    · cases h
    · exact hbound _ h

theorem vacated_sublist (table : FlowTable) (flow : CallFlow) : (vacated table flow).Sublist table := by
  unfold vacated
  split
  · exact List.filter_sublist
  · exact List.Sublist.refl _

theorem vacated_filter_owner (table : FlowTable) (flow : CallFlow) :
    (vacated table flow).filter (fun row => row.owner != flow.owner) =
      table.filter fun row => row.owner != flow.owner := by
  unfold vacated
  split
  · rw [retire, List.filter_filter]
    refine List.filter_congr fun row _ => ?_
    cases ho : row.owner == flow.owner <;> simp [bne, ho]
  · rfl

theorem rowFor?_vacated (table : FlowTable) (flow : CallFlow) :
    rowFor? (vacated table flow) flow.owner flow.phoneNumber = rowFor? table flow.owner flow.phoneNumber := by
  unfold vacated
  split
  · rw [retire, rowFor?, rowFor?, List.find?_filter]
    refine congrArg (fun p => List.find? p table) (funext fun row => Bool.eq_iff_iff.mpr ?_)
    by_cases hnumber : row.phoneNumber = flow.phoneNumber <;> simp [FlowRow.governs, hnumber]
  · rfl

theorem vacated_stored (hs : Stored table) : Stored (vacated table flow) :=
  fun row hm => hs row ((vacated_sublist table flow).mem hm)

theorem document_ofFlow (flow : CallFlow) (id createdAt now : Text) : (FlowRow.ofFlow flow id createdAt now).document =
    some (.arr (Value.rereadItems (flow.blocks.map Block.toValue))) := by
  rw [FlowRow.ofFlow, CallFlow.document, Value.reread]

theorem isJoined_document_iff : flow.document.isJoined = true ↔ ∀ b ∈ flow.blocks, b.toValue.isJoined = true := by
  rw [CallFlow.document, Value.isJoined, Value.all, Value.allItems_eq, List.all_map, List.all_eq_true]
  rfl

theorem map_reread_of_joined (hjoined : flow.document.isJoined = true) :
    flow.blocks.map Block.reread = flow.blocks.map Block.stored :=
  Block.map_reread_of_joined (isJoined_document_iff.mp hjoined)

theorem ofFlow_isStored (flow : CallFlow) (id createdAt now : Text) : (FlowRow.ofFlow flow id createdAt now).IsStored :=
  ⟨_, document_ofFlow flow id createdAt now⟩

theorem entry_isStored : (entry table flow now supply).IsStored := ofFlow_isStored _ _ _ _

/-- The id of a flow is its own, so what keeps the id after the flow has left its row is in its slot. -/
theorem vacated_slot (hw : WellFormed table) (hf : Fresh table flow supply) (hm : row ∈ vacated table flow)
    (hid : row.id = saveId table flow supply) : row.slot = (flow.owner, flow.phoneNumber) := by
  unfold vacated at hm
  unfold saveId at hid
  cases ho : ownId? table flow with
  | none =>
    simp only [ho, Option.getD_none] at hm hid
    exact absurd (List.mem_map.mpr ⟨row, hm, hid⟩) (hf ho)
  | some id =>
    simp only [ho, Option.getD_some] at hm hid
    obtain ⟨hmem, hkept⟩ := List.mem_filter.mp hm
    have hall := (Option.filter_eq_some_iff.mp ho).2
    rw [(row?_eq_some_iff hw).mpr ⟨hmem, hid⟩, Option.all_some, beq_iff_eq] at hall
    have hnumber : row.phoneNumber = flow.phoneNumber := by simpa [hid, hall] using hkept
    rw [FlowRow.slot, hall, hnumber]

theorem save_fst : (save table flow replace now supply).1 = (do
    storable flow (entry table flow now supply)
    let kept ← upsert (vacated table flow) (entry table flow now supply) replace
    match rowFor? kept flow.owner flow.phoneNumber with
    | none => throw .unavailable
    | some row =>
      let saved ← row.toFlow
      if !replace && row.id != saveId table flow supply then throw (.conflict flow.phoneNumber row.id)
      return (saved, kept)) := by
  unfold save entry vacated saveId
  cases ownId? table flow <;> rfl

theorem save_eq_ok (h : (save table flow replace now supply).1 = .ok (saved, table')) :
    upsert (vacated table flow) (entry table flow now supply) replace = .ok table' ∧
    ∃ row, rowFor? table' flow.owner flow.phoneNumber = some row ∧ row.toFlow = .ok saved ∧
      row.overwrite (entry table flow now supply) = row := by
  rw [save_fst] at h
  obtain ⟨_, -, h⟩ := Outcome.bind_eq_ok.mp h
  obtain ⟨kept, hu, h⟩ := Outcome.bind_eq_ok.mp h
  obtain ⟨row, hr, hrow⟩ := rowFor?_of_upsert hu
  have hr : rowFor? kept flow.owner flow.phoneNumber = some row := hr
  simp only [hr, Outcome.bind_eq_ok] at h
  obtain ⟨stored, hs, h⟩ := h
  split at h
  · obtain ⟨_, h, -⟩ := Outcome.bind_eq_ok.mp h
    cases h
  · rename_i hc
    simp only [Outcome.pure_eq_ok, Prod.mk.injEq] at h
    obtain ⟨rfl, rfl⟩ := h
    refine ⟨hu, row, hr, hs, hrow ?_⟩
    cases replace <;> simp_all [entry, FlowRow.ofFlow]

theorem storable_of_save (h : (save table flow replace now supply).1 = .ok (saved, table')) :
    storable flow (entry table flow now supply) = .ok () := by
  rw [save_fst] at h
  obtain ⟨_, hstorable, -⟩ := Outcome.bind_eq_ok.mp h
  exact hstorable

theorem save_wellFormed (hw : WellFormed table) (h : (save table flow replace now supply).1 = .ok (saved, table')) :
    WellFormed table' :=
  upsert_wellFormed (hw.sublist (vacated_sublist table flow)) (storable_eq_ok_iff.mp (storable_of_save h)).2
    (save_eq_ok h).1

theorem save_stored (hs : Stored table) (h : (save table flow replace now supply).1 = .ok (saved, table')) :
    Stored table' :=
  upsert_stored (vacated_stored hs) entry_isStored (save_eq_ok h).1

theorem save_filter_owner (h : (save table flow replace now supply).1 = .ok (saved, table')) :
    table'.filter (fun row => row.owner != flow.owner) = table.filter fun row => row.owner != flow.owner := by
  have hu := upsert_filter_owner (save_eq_ok h).1
  exact hu.trans (vacated_filter_owner table flow)

theorem of_not_mem_vacated (hm : row ∈ table) (hgone : row ∉ vacated table flow) :
    (ownId? table flow).isSome = true ∧ row.phoneNumber ≠ flow.phoneNumber := by
  unfold vacated at hgone
  cases hid : ownId? table flow with
  | none =>
    rw [hid] at hgone
    exact absurd hm hgone
  | some id =>
    rw [hid] at hgone
    refine ⟨rfl, fun hnumber => hgone (List.mem_filter.mpr ⟨hm, ?_⟩)⟩
    simp [hnumber]

/-- What has the id of a row after a save has its first time as well, or it is the flow, which has come to another
number and has the time that it brings, if any. -/
theorem createdAt_of_save (hw : WellFormed table) (h : (save table flow replace now supply).1 = .ok (saved, table'))
    {row' : FlowRow} (hm : row ∈ table) (hm' : row' ∈ table') (hid : row'.id = row.id) : row'.createdAt =
      if row'.phoneNumber = row.phoneNumber then row.createdAt else some ((filled flow.createdAt).getD now) := by
  have hsame {old : FlowRow} (hold : old ∈ vacated table flow) (hid : old.id = row.id) : old = row :=
    List.inj_on_of_nodup_map hw.ids ((vacated_sublist table flow).mem hold) hm hid
  rcases upsert_cases (save_eq_ok h).1 with ⟨-, rfl⟩ | ⟨-, hnew, rfl⟩
  · obtain ⟨old, hold, rfl⟩ := List.mem_map.mp hm'
    obtain rfl : old = row := hsame hold ((revised_id old).symm.trans hid)
    rw [revised_phoneNumber, if_pos rfl, revised_createdAt]
  · rcases List.mem_append.mp hm' with hm' | hm'
    · rw [hsame hm' hid, if_pos rfl]
    · obtain rfl := List.mem_singleton.mp hm'
      have hgone : row ∉ vacated table flow := fun hkept => hnew (hid ▸ List.mem_map_of_mem hkept)
      obtain ⟨hknown, hnumber⟩ := of_not_mem_vacated hm hgone
      have hother : (entry table flow now supply).phoneNumber ≠ row.phoneNumber := fun hequal => hnumber hequal.symm
      have hcreated : (entry table flow now supply).createdAt =
          some ((if (ownId? table flow).isSome then filled flow.createdAt else none).getD now) := rfl
      rw [if_neg hother, hcreated, if_pos hknown]

theorem blocks_of_save (h : (save table flow replace now supply).1 = .ok (saved, table')) :
    saved.blocks = flow.blocks.map Block.reread ∧ saved.entryBlockId = filled flow.entryBlockId := by
  obtain ⟨-, row, -, hs, hrow⟩ := save_eq_ok h
  have hd : row.document = some (.arr (Value.rereadItems (flow.blocks.map Block.toValue))) := by
    rw [← document_ofFlow flow row.id now now, ← hrow]
    rfl
  have he : row.entryBlockId = flow.entryBlockId := by rw [← hrow]; rfl
  rw [FlowRow.toFlow_of_document hd] at hs
  cases hs
  exact ⟨StoredGraph.readBlocks_rereadItems flow.blocks, by rw [he]⟩

theorem texts_of_save (h : (save table flow replace now supply).1 = .ok (saved, table')) :
    saved.name = (if flow.name = "" then ("Untitled Flow" : Text) else flow.name) ∧
    saved.recordingDisclaimer = flow.recordingDisclaimer := by
  obtain ⟨-, row, -, hs, hrow⟩ := save_eq_ok h
  obtain ⟨items, hd⟩ : row.IsStored := hrow ▸ (entry_isStored : (entry table flow now supply).IsStored)
  have hn : row.name = if flow.name = "" then ("Untitled Flow" : Text) else flow.name := by rw [← hrow]; rfl
  have hr : row.recordingDisclaimer = flow.recordingDisclaimer := by rw [← hrow]; rfl
  rw [FlowRow.toFlow_of_document hd] at hs
  cases hs
  refine ⟨?_, hr⟩
  simp only [hn]
  split <;> simp_all

/-- Where the generated id is fresh, a save of a flow that can be stored fails for one reason: that the rows are not to be
replaced, and the number of the flow has the row of another one. -/
theorem save_refused (hw : WellFormed table) (hs : Stored table) (hf : Fresh table flow supply) {fault : Fault}
    (hstorable : storable flow (entry table flow now supply) = .ok ())
    (h : (save table flow replace now supply).1 = .error fault) :
    replace = false ∧ ∃ old, rowFor? table flow.owner flow.phoneNumber = some old ∧
      old.id ≠ saveId table flow supply ∧ fault = .conflict flow.phoneNumber old.id := by
  have hid : ∀ row ∈ vacated table flow, row.id = (entry table flow now supply).id →
      row.slot = (entry table flow now supply).slot := fun row hm hid => vacated_slot hw hf hm hid
  obtain ⟨kept, hu⟩ := upsert_isOk replace hid
  obtain ⟨row, hr, -⟩ := rowFor?_of_upsert hu
  have hr : rowFor? kept flow.owner flow.phoneNumber = some row := hr
  have hkept : Stored kept := upsert_stored (vacated_stored hs) entry_isStored hu
  obtain ⟨stored, hstored⟩ := (hkept row (List.mem_of_find?_eq_some hr)).toFlow
  rw [save_fst, hstorable, hu] at h
  simp only [bind, Except.bind, hr, hstored] at h
  split at h
  · rename_i hc
    cases h
    rw [Bool.and_eq_true, Bool.not_eq_true', bne_iff_ne] at hc
    obtain ⟨hreplace, hne⟩ := hc
    cases hold : rowFor? table flow.owner flow.phoneNumber with
    | some old =>
      -- the row of another flow is still there, under its id
      rw [← rowFor?_vacated] at hold
      have hsame : row = revised (entry table flow now supply) replace old :=
        Option.some.inj (hr.symm.trans (rowFor?_upsert_of_some hold hu))
      rw [hsame, revised_id] at hne ⊢
      exact ⟨hreplace, old, rfl, hne, rfl⟩
    | none =>
      rw [← rowFor?_vacated] at hold
      have hsame : row = entry table flow now supply :=
        Option.some.inj (hr.symm.trans (rowFor?_upsert_of_none hold hu))
      exact absurd (congrArg FlowRow.id hsame) hne
  · cases h

theorem save_eq_error (hw : WellFormed table) (hs : Stored table) (hf : Fresh table flow supply) {fault : Fault}
    (h : (save table flow replace now supply).1 = .error fault) :
    storable flow (entry table flow now supply) = .error fault ∨
    replace = false ∧ ∃ id, id ≠ saveId table flow supply ∧ fault = .conflict flow.phoneNumber id := by
  cases hstorable : storable flow (entry table flow now supply) with
  | error cause =>
    rw [save_fst, hstorable] at h
    obtain rfl : cause = fault := Except.error.inj h
    exact Or.inl rfl
  | ok _ =>
    obtain ⟨hreplace, old, -, hne, hfault⟩ := save_refused hw hs hf hstorable h
    exact Or.inr ⟨hreplace, old.id, hne, hfault⟩

/-- Where the rows of other owners stay and ids are distinct, an id stays with its owner. -/
theorem owner_eq_of_filter_eq {owner : Text} (hw : WellFormed table) (hw' : WellFormed table')
    (h : table'.filter (fun row => row.owner != owner) = table.filter fun row => row.owner != owner)
    {row row' : FlowRow} (hm : row ∈ table) (hm' : row' ∈ table') (hid : row'.id = row.id) :
    row'.owner = row.owner := by
  have hiff (r : FlowRow) (hr : r.owner ≠ owner) : r ∈ table' ↔ r ∈ table := by
    have hmem : r ∈ table'.filter (fun row => row.owner != owner) ↔
      r ∈ table.filter fun row => row.owner != owner := by rw [h]
    simpa [hr] using hmem
  by_cases ho : row.owner = owner
  · by_cases ho' : row'.owner = owner
    · rw [ho, ho']
    · rw [List.inj_on_of_nodup_map hw.ids ((hiff row' ho').mp hm') hm hid]
  · rw [List.inj_on_of_nodup_map hw'.ids hm' ((hiff row ho).mpr hm) hid]

def withRow (table : FlowTable) (row : FlowRow) : FlowTable :=
  table.map fun r => if r.id = row.id then row else r

theorem ownId?_of_mem (hw : table.WellFormed) (hmem : row ∈ table) (hne : row.id ≠ "") (hid : flow.id = some row.id)
    (howner : row.owner = flow.owner) : ownId? table flow = some row.id := by
  have hfilled : filled flow.id = some row.id := by simp [filled, hid, hne]
  rw [ownId?, hfilled, Option.filter_some, (row?_eq_some_iff hw).mpr ⟨hmem, rfl⟩]
  simp [howner]

theorem retire_of_mem (hw : table.WellFormed) (hmem : row ∈ table) (hnumber : row.phoneNumber = flow.phoneNumber) :
    retire table flow row.id = table := by
  refine List.filter_eq_self.mpr fun r hr => ?_
  by_cases hid : r.id = row.id
  · rw [List.inj_on_of_nodup_map hw.ids hr hmem hid]
    simp [hnumber]
  · simp [hid]

theorem upsert_own (hw : table.WellFormed) (hmem : row ∈ table) {new : FlowRow} (hid : new.id = row.id)
    (hslot : new.slot = row.slot) : upsert table new replace = .ok (table.withRow (row.overwrite new)) := by
  have hrow : rowFor? table new.owner new.phoneNumber = some row := (rowFor?_eq_some_iff hw).mpr ⟨hmem, hslot.symm⟩
  rw [upsert, if_pos (by rw [hrow]; rfl)]
  refine congrArg Except.ok (List.map_congr_left fun r hr => ?_)
  change _ = if r.id = row.id then row.overwrite new else r
  -- no other row has the id or the slot, so the id decides which row is overwritten
  by_cases hsame : r.id = row.id
  · have hgoverns : row.governs new.owner new.phoneNumber = true := FlowRow.governs_iff.mpr hslot.symm
    rw [List.inj_on_of_nodup_map hw.ids hr hmem hsame]
    simp [hgoverns, hid]
  · have hother : r.governs new.owner new.phoneNumber = false := by
      refine Bool.eq_false_iff.mpr fun hgoverns => hsame ?_
      have hr' : r.slot = row.slot := (FlowRow.governs_iff.mp hgoverns).trans hslot
      rw [List.inj_on_of_nodup_map hw.slots hr hmem hr']
    simp [hother, hsame]

theorem save_own (hw : table.WellFormed) (hmem : row ∈ table) (hne : row.id ≠ "") (hid : flow.id = some row.id)
    (hslot : row.slot = (flow.owner, flow.phoneNumber))
    (hstorable : storable flow (.ofFlow flow row.id ((filled flow.createdAt).getD now) now) = .ok ()) :
    ∃ saved, save table flow replace now supply =
      (.ok (saved, table.withRow (row.overwrite (.ofFlow flow row.id now now))), supply) := by
  obtain ⟨howner, hnumber⟩ := Prod.mk.inj hslot
  let new : FlowRow := .ofFlow flow row.id ((filled flow.createdAt).getD now) now
  let table' := table.withRow (row.overwrite new)
  have hnew : new.IsEncodable := (storable_eq_ok_iff.mp hstorable).2
  have hupsert : upsert table new replace = .ok table' := upsert_own hw hmem rfl hslot.symm
  have hmem' : row.overwrite new ∈ table' := List.mem_map.mpr ⟨row, hmem, if_pos rfl⟩
  have hfind : rowFor? table' flow.owner flow.phoneNumber = some (row.overwrite new) :=
    (rowFor?_eq_some_iff (upsert_wellFormed hw hnew hupsert)).mpr ⟨hmem', hslot⟩
  have hstored : (row.overwrite new).IsStored := ofFlow_isStored flow row.id ((filled flow.createdAt).getD now) now
  obtain ⟨saved, hsaved⟩ := hstored.toFlow
  refine ⟨saved, ?_⟩
  rw [save, ownId?_of_mem hw hmem hne hid howner]
  simp only [saveAs, if_true, retire_of_mem hw hmem hnumber]
  refine congrArg (fun answer => (answer, supply)) (Outcome.bind_eq_ok.mpr ⟨(), hstorable, ?_⟩)
  refine Outcome.bind_eq_ok.mpr ⟨table', hupsert, ?_⟩
  simp only [hfind]
  refine Outcome.bind_eq_ok.mpr ⟨saved, hsaved, ?_⟩
  have hsame : (!replace && (row.overwrite new).id != row.id) = false := by simp [FlowRow.overwrite]
  rw [hsame]
  rfl

end Switchboard.Store.FlowTable
