import Switchboard.Store.FlowTable
import Switchboard.Proofs.Flow.StoredBlock
import Switchboard.Proofs.Keyed
import Switchboard.Proofs.Outcome

/-! # The rows of the table of flows

Every row has an id and a slot, its owner and number, of its own, and its texts have bytes. An insertion is refused
where it would break the first, and what overwrites a row leaves its id and slot. An upsert touches the rows of one
owner only, and it is not refused where no row outside the slot has its id.
-/
namespace Switchboard.Store

theorem bound_eq_ok_iff {texts : List Text} : bound texts = .ok () ↔ ∀ t ∈ texts, t.isPlain = true := by
  have hall : texts.find? (fun t => !t.isPlain) = none ↔ ∀ t ∈ texts, t.isPlain = true := by simp
  rw [← hall, bound]
  split <;> simp_all

theorem bound_eq_error {texts : List Text} {fault : Fault} (h : bound texts = .error fault) :
    ∃ t ∈ texts, t.isPlain = false ∧ fault = .unencodable t := by
  unfold bound at h
  split at h
  · rename_i t ht
    obtain ⟨hp, -⟩ := List.find?_eq_some_iff_append.mp ht
    exact ⟨t, List.mem_of_find?_eq_some ht, by simpa using hp, (Except.error.inj h).symm⟩
  · cases h

namespace FlowRow

def IsEncodable (row : FlowRow) : Prop := ∀ t ∈ row.texts, t.isPlain = true

theorem IsEncodable.id {row : FlowRow} (h : row.IsEncodable) : row.id.isPlain = true :=
  h row.id (by simp [texts])

theorem IsEncodable.slot {row : FlowRow} (h : row.IsEncodable) : bound [row.owner, row.phoneNumber] = .ok () :=
  bound_eq_ok_iff.mpr fun t ht => h t (by
    simp only [List.mem_cons, List.not_mem_nil, or_false] at ht
    rcases ht with rfl | rfl <;> simp [texts])

theorem IsEncodable.overwrite {row new : FlowRow} (h : row.IsEncodable) (hnew : new.IsEncodable) :
    (row.overwrite new).IsEncodable := by
  intro t ht
  have hfrom : t ∈ row.texts ∨ t ∈ new.texts := by
    simp only [texts, FlowRow.overwrite, List.mem_append, List.mem_cons] at ht ⊢
    tauto
  exact hfrom.elim (h t) (hnew t)

def slot (row : FlowRow) : Text × Text := (row.owner, row.phoneNumber)

theorem governs_iff {row : FlowRow} {owner number : Text} :
    row.governs owner number = true ↔ row.slot = (owner, number) := by
  simp [governs, slot]

theorem governs_eq_of_slot {row row' : FlowRow} (h : row.slot = row'.slot) (owner number : Text) :
    row.governs owner number = row'.governs owner number := by
  rw [Bool.eq_iff_iff, governs_iff, governs_iff, h]

@[simp] theorem overwrite_overwrite (row new : FlowRow) :
    (row.overwrite new).overwrite new = row.overwrite new := rfl

def IsStored (row : FlowRow) : Prop := ∃ items, row.document = some (.arr items)

theorem toFlow_of_document {row : FlowRow} {items : List Value} (h : row.document = some (.arr items)) :
    row.toFlow = .ok {
      id := some row.id
      owner := row.owner
      phoneNumber := PhoneNumber.normalize row.phoneNumber
      name := if row.name = "" then "Untitled Flow" else row.name
      description := row.description.getD ""
      status := (filled row.status).getD "active"
      blocks := StoredGraph.readBlocks items
      entryBlockId := filled row.entryBlockId
      recordingEnabled := row.recordingEnabled
      recordingDisclaimer := row.recordingDisclaimer
      createdAt := row.createdAt
      updatedAt := row.updatedAt } := by
  rw [toFlow, h, StoredGraph.ofDocument?, StoredGraph.ofDocument]
  simp [bind, Except.bind, pure, Except.pure]

theorem IsStored.toFlow {row : FlowRow} (h : row.IsStored) : ∃ flow, row.toFlow = .ok flow := by
  obtain ⟨items, hd⟩ := h
  exact ⟨_, toFlow_of_document hd⟩

end FlowRow

namespace FlowTable

variable {table table' : FlowTable} {row new : FlowRow} {id owner number : Text} {replace : Bool}

/-- The constraints of the table: no two rows have one id, no two rows have one slot, and texts have bytes. -/
structure WellFormed (table : FlowTable) : Prop where
  ids : (table.map FlowRow.id).Nodup
  slots : (table.map FlowRow.slot).Nodup
  encodable : ∀ row ∈ table, row.IsEncodable

theorem WellFormed.nil : WellFormed [] :=
  ⟨List.nodup_nil, List.nodup_nil, fun _ hm => absurd hm List.not_mem_nil⟩

theorem WellFormed.sublist (h : WellFormed table) (hs : table'.Sublist table) : WellFormed table' :=
  ⟨h.ids.sublist (hs.map _), h.slots.sublist (hs.map _), fun row hm => h.encodable row (hs.mem hm)⟩

def Stored (table : FlowTable) : Prop := ∀ row ∈ table, row.IsStored

theorem id_of_row? (h : row? table id = some row) : row.id = id := by
  have hp := List.find?_some h
  exact beq_iff_eq.mp hp

theorem slot_of_rowFor? (h : rowFor? table owner number = some row) : row.slot = (owner, number) := by
  have hp := List.find?_some h
  exact FlowRow.governs_iff.mp hp

theorem row?_eq_some_iff (h : WellFormed table) : row? table id = some row ↔ row ∈ table ∧ row.id = id := by
  constructor
  · intro hr
    exact ⟨List.mem_of_find?_eq_some hr, id_of_row? hr⟩
  · rintro ⟨hm, rfl⟩
    exact find?_of_mem h.ids hm (fun b => beq_iff_eq)

theorem rowFor?_eq_some_iff (h : WellFormed table) :
    rowFor? table owner number = some row ↔ row ∈ table ∧ row.slot = (owner, number) := by
  constructor
  · intro hr
    exact ⟨List.mem_of_find?_eq_some hr, slot_of_rowFor? hr⟩
  · rintro ⟨hm, hs⟩
    exact find?_of_mem h.slots hm (fun b => FlowRow.governs_iff.trans (by rw [hs]))

theorem row?_eq_none_iff : row? table id = none ↔ id ∉ table.map FlowRow.id := by
  simp only [row?, List.find?_eq_none, beq_iff_eq, List.mem_map]
  grind

theorem rowFor?_eq_none_iff :
    rowFor? table owner number = none ↔ (owner, number) ∉ table.map FlowRow.slot := by
  simp only [rowFor?, List.find?_eq_none, FlowRow.governs_iff, List.mem_map]
  grind

theorem of_get {flow : CallFlow} (h : get table id = .ok (some flow)) : ∃ row ∈ table, row.toFlow = .ok flow := by
  obtain ⟨_, -, h⟩ := Outcome.bind_eq_ok.mp h
  cases hrow : row? table id with
  | none =>
    rw [hrow] at h
    cases h
  | some row =>
    rw [hrow, Option.mapM_some] at h
    obtain ⟨flow', hread, hsame⟩ := Outcome.map_eq_ok.mp h
    exact ⟨row, List.mem_of_find?_eq_some hrow, Option.some.inj hsame ▸ hread⟩

theorem get_of_row? (hplain : id.isPlain = true) (hrow : row? table id = some row) :
    get table id = some <$> row.toFlow := by
  rw [get, bound_eq_ok_iff.mpr (List.forall_mem_singleton.mpr hplain), hrow]
  rfl

theorem get_succeeds (h : ∀ row ∈ table, ∃ flow, row.toFlow = .ok flow) (hw : WellFormed table) (hm : row ∈ table) :
    ∃ flow, get table row.id = .ok (some flow) := by
  have hfound : (row? table row.id).isSome = true := List.find?_isSome.mpr ⟨row, hm, beq_self_eq_true row.id⟩
  obtain ⟨first, hfirst⟩ := Option.isSome_iff_exists.mp hfound
  obtain ⟨flow, hread⟩ := h first (List.mem_of_find?_eq_some hfirst)
  refine ⟨flow, ?_⟩
  rw [get_of_row? (hw.encodable row hm).id hfirst, hread]
  rfl

theorem insert_eq_ok_iff : insert table row = .ok table' ↔
    row.slot ∉ table.map FlowRow.slot ∧ row.id ∉ table.map FlowRow.id ∧ table' = table ++ [row] := by
  rw [FlowRow.slot, ← rowFor?_eq_none_iff, ← row?_eq_none_iff]
  unfold insert
  cases rowFor? table row.owner row.phoneNumber with
  | some old => simp
  | none =>
    cases row? table row.id with
    | some old => simp
    | none => simp [eq_comm]

theorem insert_wellFormed (h : WellFormed table) (hrow : row.IsEncodable) (hi : insert table row = .ok table') :
    WellFormed table' := by
  obtain ⟨hslot, hid, rfl⟩ := insert_eq_ok_iff.mp hi
  constructor
  · rw [List.map_append, List.map_singleton, ← List.concat_eq_append]
    exact h.ids.concat hid
  · rw [List.map_append, List.map_singleton, ← List.concat_eq_append]
    exact h.slots.concat hslot
  · exact List.forall_mem_append.mpr ⟨h.encodable, List.forall_mem_singleton.mpr hrow⟩

def revised (new : FlowRow) (replace : Bool) (old : FlowRow) : FlowRow :=
  if old.governs new.owner new.phoneNumber && (replace || old.id == new.id) then old.overwrite new else old

@[simp] theorem revised_id (old : FlowRow) : (revised new replace old).id = old.id := by
  unfold revised
  split <;> rfl

@[simp] theorem revised_slot (old : FlowRow) : (revised new replace old).slot = old.slot := by
  unfold revised
  split <;> rfl

@[simp] theorem revised_owner (old : FlowRow) : (revised new replace old).owner = old.owner := by
  unfold revised
  split <;> rfl

@[simp] theorem revised_phoneNumber (old : FlowRow) : (revised new replace old).phoneNumber = old.phoneNumber := by
  unfold revised
  split <;> rfl

@[simp] theorem revised_createdAt (old : FlowRow) : (revised new replace old).createdAt = old.createdAt := by
  unfold revised
  split <;> rfl

theorem rowFor?_map_revised (table : FlowTable) (new : FlowRow) (replace : Bool) (owner number : Text) :
    rowFor? (table.map (revised new replace)) owner number =
      (rowFor? table owner number).map (revised new replace) := by
  have hsame : (fun row : FlowRow => row.governs owner number) ∘ revised new replace =
      fun row => row.governs owner number := by
    funext row
    exact FlowRow.governs_eq_of_slot (revised_slot row) _ _
  rw [rowFor?, rowFor?, List.find?_map, hsame]

theorem revised_of_owner_ne {old : FlowRow} (h : old.owner ≠ new.owner) : revised new replace old = old := by
  simp [revised, FlowRow.governs, h]

theorem upsert_cases (h : upsert table new replace = .ok table') :
    (new.slot ∈ table.map FlowRow.slot ∧ table' = table.map (revised new replace)) ∨
    (new.slot ∉ table.map FlowRow.slot ∧ new.id ∉ table.map FlowRow.id ∧ table' = table ++ [new]) := by
  unfold upsert at h
  split at h
  · rename_i hs
    refine Or.inl ⟨?_, (Except.ok.inj h).symm⟩
    by_contra hn
    rw [FlowRow.slot, ← rowFor?_eq_none_iff] at hn
    simp [hn] at hs
  · exact Or.inr (insert_eq_ok_iff.mp h)

theorem revised_isEncodable {old : FlowRow} (h : old.IsEncodable) (hnew : new.IsEncodable) :
    (revised new replace old).IsEncodable := by
  unfold revised
  split
  · exact h.overwrite hnew
  · exact h

theorem upsert_wellFormed (h : WellFormed table) (hnew : new.IsEncodable) (hu : upsert table new replace = .ok table') :
    WellFormed table' := by
  rcases upsert_cases hu with ⟨-, rfl⟩ | hi
  · constructor
    · simpa [List.map_map, Function.comp_def] using h.ids
    · simpa [List.map_map, Function.comp_def] using h.slots
    · exact List.forall_mem_map.mpr fun old hm => revised_isEncodable (h.encodable old hm) hnew
  · exact insert_wellFormed h hnew (insert_eq_ok_iff.mpr hi)

/-- An upsert is not refused where no row outside its slot has its id. -/
theorem upsert_isOk (replace : Bool) (h : ∀ row ∈ table, row.id = new.id → row.slot = new.slot) :
    ∃ table', upsert table new replace = .ok table' := by
  unfold upsert
  split
  · exact ⟨_, rfl⟩
  · rename_i hs
    rw [Bool.not_eq_true, Option.isSome_eq_false_iff, Option.isNone_iff_eq_none, rowFor?_eq_none_iff] at hs
    refine ⟨_, insert_eq_ok_iff.mpr ⟨hs, ?_, rfl⟩⟩
    intro hid
    obtain ⟨row, hm, hr⟩ := List.mem_map.mp hid
    exact hs (List.mem_map.mpr ⟨row, hm, h row hm hr⟩)

theorem rowFor?_upsert_of_some {old : FlowRow} (hold : rowFor? table new.owner new.phoneNumber = some old)
    (hu : upsert table new replace = .ok table') :
    rowFor? table' new.owner new.phoneNumber = some (revised new replace old) := by
  rcases upsert_cases hu with ⟨-, rfl⟩ | ⟨hs, -, -⟩
  · rw [rowFor?_map_revised, hold, Option.map_some]
  · rw [FlowRow.slot, ← rowFor?_eq_none_iff, hold] at hs
    cases hs

theorem rowFor?_upsert_of_none (hnone : rowFor? table new.owner new.phoneNumber = none)
    (hu : upsert table new replace = .ok table') : rowFor? table' new.owner new.phoneNumber = some new := by
  have hs : new.slot ∉ table.map FlowRow.slot := rowFor?_eq_none_iff.mp hnone
  obtain ⟨-, -, rfl⟩ := (upsert_cases hu).resolve_left fun h => hs h.1
  have hg : new.governs new.owner new.phoneNumber = true := by simp [FlowRow.governs]
  simp only [rowFor?] at hnone ⊢
  rw [List.find?_append, hnone, Option.none_or, List.find?_singleton, if_pos hg]

/-- After an upsert the slot has a row. With the same id, or where rows are replaced, it has the contents of the
row. -/
theorem rowFor?_of_upsert (hu : upsert table new replace = .ok table') :
    ∃ row, rowFor? table' new.owner new.phoneNumber = some row ∧
      (replace = true ∨ row.id = new.id → row.overwrite new = row) := by
  cases hold : rowFor? table new.owner new.phoneNumber with
  | some old =>
    have hg : old.governs new.owner new.phoneNumber = true := FlowRow.governs_iff.mpr (slot_of_rowFor? hold)
    refine ⟨revised new replace old, rowFor?_upsert_of_some hold hu, ?_⟩
    intro hr
    rw [revised_id] at hr
    have hc : (replace || old.id == new.id) = true := by simpa using hr
    simp [revised, hg, hc]
  | none => exact ⟨new, rowFor?_upsert_of_none hold hu, fun _ => rfl⟩

/-- What holds of the rows, of the new row and of what it overwrites holds of the rows after an upsert. -/
theorem forall_mem_upsert {P : FlowRow → Prop} (hold : ∀ row ∈ table, P row) (hnew : P new)
    (hover : ∀ row ∈ table, row.slot = new.slot → P (row.overwrite new))
    (hu : upsert table new replace = .ok table') : ∀ row ∈ table', P row := by
  intro row hm
  rcases upsert_cases hu with ⟨-, rfl⟩ | ⟨-, -, rfl⟩
  · obtain ⟨old, hmem, rfl⟩ := List.mem_map.mp hm
    unfold revised
    split
    · rename_i hc
      exact hover old hmem (FlowRow.governs_iff.mp (Bool.and_eq_true_iff.mp hc).1)
    · exact hold old hmem
  · rcases List.mem_append.mp hm with hmem | hmem
    · exact hold row hmem
    · rw [List.mem_singleton.mp hmem]
      exact hnew

theorem upsert_stored (h : Stored table) (hn : new.IsStored) (hu : upsert table new replace = .ok table') :
    Stored table' :=
  forall_mem_upsert h hn (fun _ _ _ => hn) hu

theorem upsert_filter_owner (hu : upsert table new replace = .ok table') :
    table'.filter (fun row => row.owner != new.owner) = table.filter fun row => row.owner != new.owner := by
  rcases upsert_cases hu with ⟨-, rfl⟩ | ⟨-, -, rfl⟩
  · rw [List.filter_map]
    simp only [Function.comp_def, revised_owner]
    calc (table.filter fun row => row.owner != new.owner).map (revised new replace)
        = (table.filter fun row => row.owner != new.owner).map id :=
          List.map_congr_left fun old hold => revised_of_owner_ne (by simpa using (List.mem_filter.mp hold).2)
      _ = table.filter fun row => row.owner != new.owner := List.map_id _
  · simp [List.filter_append]

end FlowTable
end Switchboard.Store
