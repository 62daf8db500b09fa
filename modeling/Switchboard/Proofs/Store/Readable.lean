import Switchboard.Proofs.Flow.Readable
import Switchboard.Proofs.Store.FlowSaving
import Mathlib.Data.List.Sort

/-! # What one row that cannot be read does to a table

A row gives a flow exactly when its document can be read. An operation that looks up flows fails exactly when a row
that it returns cannot be read or what is looked up has no bytes, and a save only reads the row that stands in its slot.
-/
namespace Switchboard.Store

namespace FlowRow

def isReadable (row : FlowRow) : Bool :=
  row.document.all StoredGraph.documentReadable

theorem toFlow_succeeds_iff {row : FlowRow} : (∃ flow, row.toFlow = .ok flow) ↔ row.isReadable = true := by
  rw [isReadable, ← StoredGraph.ofDocument?_succeeds_iff, toFlow, Outcome.bind_succeeds_iff]
  simp

end FlowRow

@[simp] theorem mem_newestFirst {α : Type} {time : α → Option Text} {rows : List α} {row : α} :
    row ∈ newestFirst time rows ↔ row ∈ rows := by
  simp [newestFirst]

namespace FlowTable

variable {table : FlowTable} {flow : CallFlow} {replace : Bool} {now : Text} {supply : Supply}

def governing? (table : FlowTable) (number : Text) : Option FlowRow :=
  (newestFirst FlowRow.updatedAt (table.filter fun row =>
    row.phoneNumber == PhoneNumber.normalize number && row.status == some ("active" : Text))).head?

theorem rowFlow_succeeds_iff {row : Option FlowRow} :
    (∃ flow, (row.mapM FlowRow.toFlow : Outcome (Option CallFlow)) = .ok flow) ↔
      row.all FlowRow.isReadable = true := by
  cases row with
  | none => simp
  | some row =>
    rw [Option.mapM_some, Outcome.map_succeeds_iff, FlowRow.toFlow_succeeds_iff]
    rfl

theorem bound_bind_succeeds_iff {α : Type} {texts : List Text} {x : Outcome α} :
    (∃ a, (do bound texts; x) = .ok a) ↔ (∀ t ∈ texts, t.isPlain = true) ∧ ∃ a, x = .ok a := by
  rw [← bound_eq_ok_iff]
  constructor
  · rintro ⟨a, h⟩
    obtain ⟨_, hbound, h⟩ := Outcome.bind_eq_ok.mp h
    exact ⟨hbound, a, h⟩
  · rintro ⟨hbound, a, h⟩
    exact ⟨a, Outcome.bind_eq_ok.mpr ⟨(), hbound, h⟩⟩

theorem get_succeeds_iff {id : Text} : (∃ flow, table.get id = .ok flow) ↔
    id.isPlain = true ∧ (table.row? id).all FlowRow.isReadable = true := by
  rw [get, bound_bind_succeeds_iff, rowFlow_succeeds_iff, List.forall_mem_singleton]

theorem forNumber_succeeds_iff {number : Text} : (∃ flow, table.forNumber number = .ok flow) ↔
    (PhoneNumber.normalize number).isPlain = true ∧ (table.governing? number).all FlowRow.isReadable = true := by
  rw [forNumber, bound_bind_succeeds_iff, List.forall_mem_singleton]
  exact and_congr_right fun _ => rowFlow_succeeds_iff

theorem list_succeeds_iff {owner : Option Text} : (∃ flows, table.list owner = .ok flows) ↔
    (filled owner).all Text.isPlain = true ∧
    ∀ row ∈ table, ((filled owner).all fun o => row.owner == o) = true → row.isReadable = true := by
  rw [list, bound_bind_succeeds_iff]
  simp only [Outcome.mapM_succeeds_iff, mem_newestFirst, List.mem_filter, and_imp, FlowRow.toFlow_succeeds_iff]
  refine and_congr_left fun _ => ?_
  cases filled owner <;> simp

theorem upsert_eq_error {new : FlowRow} {fault : Fault} (h : upsert table new replace = .error fault) :
    ∃ columns, fault = .repeatedColumns columns := by
  unfold upsert insert at h
  split at h
  · cases h
  · split at h
    · exact ⟨_, (Except.error.inj h).symm⟩
    · cases h

/-- The only row that a save reads without writing it is the one in its slot, and only when rows are not to be
replaced. -/
theorem rowFor?_upsert_readable {kept : FlowTable} {row : FlowRow}
    (hslot : replace = true ∨ (table.rowFor? flow.owner flow.phoneNumber).all FlowRow.isReadable = true)
    (hu : upsert (vacated table flow) (entry table flow now supply) replace = .ok kept)
    (hr : rowFor? kept flow.owner flow.phoneNumber = some row) : row.isReadable = true := by
  obtain ⟨row', hr', hown⟩ := rowFor?_of_upsert hu
  obtain rfl : row' = row := Option.some.inj (hr'.symm.trans hr)
  by_cases hwritten : replace = true ∨ row'.id = (entry table flow now supply).id
  · have hstored : row'.IsStored := hown hwritten ▸ (entry_isStored : (entry table flow now supply).IsStored)
    exact FlowRow.toFlow_succeeds_iff.mp hstored.toFlow
  · -- the slot is taken by a row of another id, which stays as it is
    rw [not_or] at hwritten
    cases hold : rowFor? (vacated table flow) flow.owner flow.phoneNumber with
    | none =>
      have hfree : (entry table flow now supply).slot ∉ (vacated table flow).map FlowRow.slot :=
        rowFor?_eq_none_iff.mp hold
      obtain ⟨-, -, rfl⟩ := (upsert_cases hu).resolve_left fun h => hfree h.1
      rw [rowFor?, List.find?_append, ← rowFor?, hold, Option.none_or] at hr
      have hnew : row' = entry table flow now supply := List.mem_singleton.mp (List.mem_of_find?_eq_some hr)
      rw [hnew] at hwritten
      exact absurd rfl hwritten.2
    | some old =>
      have hrevised := rowFor?_upsert_of_some hold hu
      have hsame : revised (entry table flow now supply) replace old = row' :=
        Option.some.inj (hrevised.symm.trans hr)
      have hid : old.id ≠ (entry table flow now supply).id := by
        have hkept := congrArg FlowRow.id hsame
        rw [revised_id] at hkept
        rw [hkept]
        exact hwritten.2
      have hkeep : revised (entry table flow now supply) replace old = old := by simp [revised, hwritten.1, hid]
      rw [rowFor?_vacated] at hold
      rw [hold] at hslot
      rw [← hsame, hkeep]
      exact hslot.resolve_left hwritten.1

/-- A save of a flow that can be stored fails for the constraints of the table or for a conflict, unless the row in its
slot cannot be read and is not to be replaced. -/
theorem save_error_cases {fault : Fault}
    (hslot : replace = true ∨ (table.rowFor? flow.owner flow.phoneNumber).all FlowRow.isReadable = true)
    (hstorable : storable flow (entry table flow now supply) = .ok ())
    (h : (save table flow replace now supply).1 = .error fault) :
    (∃ columns, fault = .repeatedColumns columns) ∨ ∃ existing, fault = .conflict flow.phoneNumber existing := by
  rw [save_fst, hstorable] at h
  cases hu : upsert (vacated table flow) (entry table flow now supply) replace with
  | error refused =>
    obtain ⟨columns, rfl⟩ := upsert_eq_error hu
    rw [hu] at h
    exact Or.inl ⟨columns, (Except.error.inj h).symm⟩
  | ok kept =>
    obtain ⟨row, hr, -⟩ := rowFor?_of_upsert hu
    have hr : rowFor? kept flow.owner flow.phoneNumber = some row := hr
    obtain ⟨stored, hstored⟩ := FlowRow.toFlow_succeeds_iff.mpr (rowFor?_upsert_readable hslot hu hr)
    rw [hu] at h
    simp only [bind, Except.bind, hr, hstored] at h
    split at h
    · exact Or.inr ⟨row.id, (Except.error.inj h).symm⟩
    · cases h

end FlowTable
end Switchboard.Store
