import Switchboard.Proofs.PhoneNumber
import Switchboard.Proofs.Store.Database

/-! # Flows that are stored and read back

A save gives back the flow that was sent, with the id and the times of its row and with a default wherever its name,
its status or its entry is blank. The flow is then read back as it was given back, both by its owner and number
and by its id. A number that has a flow keeps the id of this flow and the time when it was added.
-/
namespace Switchboard

/-- The flow as it is stored in a row: what is left blank has a default, and the id and the times are the row's. -/
def CallFlow.completed (flow : CallFlow) (id : Text) (createdAt updatedAt : Option Text) : CallFlow :=
  { flow with
    id := some id
    name := if flow.name = "" then ("Untitled Flow" : Text) else flow.name
    status := if flow.status = "" then ("active" : Text) else flow.status
    entryBlockId := Store.filled flow.entryBlockId
    createdAt, updatedAt }

/-- Whether all of a flow is stored: its number is in normal form, the numbers in its blocks are finite, and the texts there
are read back as they are. -/
structure CallFlow.IsKept (flow : CallFlow) : Prop where
  normal : PhoneNumber.IsNormal flow.phoneNumber
  finite : ∀ b ∈ flow.blocks, Value.allFiniteEntries b.config = true
  joined : flow.document.isJoined = true

theorem CallFlow.isNormal_of_field {entries : Entries} {name number : Text}
    (h : Reading.field entries name readNumber = .done number) : PhoneNumber.IsNormal number := by
  obtain ⟨v, -, hread⟩ := Reading.field_eq_done.mp h
  cases v with
  | null => cases hread
  | _ =>
    simp only [readNumber, PhoneNumber.normalizeValue?] at hread
    cases htext : Value.text? _ with
    | none =>
      rw [htext] at hread
      cases hread
    | some t =>
      rw [htext] at hread
      cases hread
      exact PhoneNumber.isNormal_normalize t

theorem CallFlow.field_of_read {entries : Entries} {flow : CallFlow} (h : CallFlow.read (.obj entries) = .done flow) :
    Reading.field entries "phone_number" readNumber = .done flow.phoneNumber := by
  obtain ⟨_, _, hcreated, -, rfl⟩ := Reading.seq_eq_done.mp h
  obtain ⟨_, _, hdisclaimer, -, rfl⟩ := Reading.seq_eq_done.mp hcreated
  obtain ⟨_, _, henabled, -, rfl⟩ := Reading.seq_eq_done.mp hdisclaimer
  obtain ⟨_, _, hentry, -, rfl⟩ := Reading.seq_eq_done.mp henabled
  obtain ⟨_, _, hblocks, -, rfl⟩ := Reading.seq_eq_done.mp hentry
  obtain ⟨_, _, hstatus, -, rfl⟩ := Reading.seq_eq_done.mp hblocks
  obtain ⟨_, _, hdescription, -, rfl⟩ := Reading.seq_eq_done.mp hstatus
  obtain ⟨_, _, hname, -, rfl⟩ := Reading.seq_eq_done.mp hdescription
  obtain ⟨_, _, hnumber, -, rfl⟩ := Reading.seq_eq_done.mp hname
  obtain ⟨_, number, howner, hread, rfl⟩ := Reading.seq_eq_done.mp hnumber
  obtain ⟨_, _, hid, -, rfl⟩ := Reading.seq_eq_done.mp howner
  obtain ⟨_, -, rfl⟩ := Reading.map_eq_done.mp hid
  exact hread

theorem CallFlow.isNormal_of_read {v : Value} {flow : CallFlow} (h : CallFlow.read v = .done flow) :
    PhoneNumber.IsNormal flow.phoneNumber := by
  cases v with
  | obj entries => exact isNormal_of_field (field_of_read h)
  | _ => cases h

namespace Store

variable {flow saved : CallFlow} {replace : Bool} {now : Text}

theorem filled_getD (s alternative : Text) :
    (filled (some s)).getD alternative = if s = "" then alternative else s := by
  split <;> simp_all [filled, Option.filter]

theorem ite_blank_idem (s alternative : Text) :
    (if (if s = "" then alternative else s) = "" then alternative else if s = "" then alternative else s) =
      if s = "" then alternative else s := by
  split <;> simp_all

def FlowRow.Holds (row : FlowRow) (flow : CallFlow) (now : Text) : Prop :=
  row = { FlowRow.ofFlow flow row.id now now with createdAt := row.createdAt }

theorem FlowRow.holds_overwrite {row : FlowRow} (hslot : row.slot = (flow.owner, flow.phoneNumber))
    (id createdAt : Text) : (row.overwrite (.ofFlow flow id createdAt now)).Holds flow now := by
  obtain ⟨howner, hnumber⟩ := Prod.mk.inj hslot
  rw [Holds, overwrite, howner, hnumber]
  rfl

/-- Whether a save can have written a row: it has an id, and it holds a flow that can be stored. -/
structure FlowRow.Written (row : FlowRow) : Prop where
  named : row.id ≠ ""
  holds : ∃ flow now, flow.IsKept ∧ flow.document.isWritable = true ∧ row.Holds flow now

theorem FlowRow.Holds.document {row : FlowRow} (h : row.Holds flow now) :
    row.document = some (.arr (Value.rereadItems (flow.blocks.map Block.toValue))) := by
  rw [h]
  exact FlowTable.document_ofFlow flow row.id now now

theorem FlowRow.Holds.graph {row : FlowRow} (h : row.Holds flow now) :
    ∃ f, row.toFlow = .ok f ∧ f.blocks = flow.blocks.map Block.reread ∧ f.entryBlockId = filled flow.entryBlockId := by
  have hentry : row.entryBlockId = flow.entryBlockId := by rw [h]; rfl
  exact ⟨_, FlowRow.toFlow_of_document h.document, StoredGraph.readBlocks_rereadItems flow.blocks,
    congrArg filled hentry⟩

theorem FlowRow.Holds.toFlow {row : FlowRow} (h : row.Holds flow now) (hkept : flow.IsKept) :
    row.toFlow = .ok (flow.completed row.id row.createdAt (some now)) := by
  have hblocks : StoredGraph.readBlocks (Value.rereadItems (flow.blocks.map Block.toValue)) = flow.blocks :=
    calc StoredGraph.readBlocks (Value.rereadItems (flow.blocks.map Block.toValue))
        = flow.blocks.map Block.reread := StoredGraph.readBlocks_rereadItems flow.blocks
      _ = flow.blocks.map Block.stored := FlowTable.map_reread_of_joined hkept.joined
      _ = flow.blocks := Block.map_stored_eq_self hkept.finite
  rw [toFlow_of_document h.document, hblocks, h]
  simp only [ofFlow, hkept.normal.eq, filled_getD, ite_blank_idem, Option.getD_some]
  rw [CallFlow.completed]
  congr 2
  exact ite_blank_idem flow.name "Untitled Flow"

namespace FlowTable

variable {table table' : FlowTable} {supply : Supply}

theorem load_of_save (hn : PhoneNumber.IsNormal flow.phoneNumber)
    (h : (save table flow replace now supply).1 = .ok (saved, table')) :
    load table' flow.owner flow.phoneNumber = .ok (some saved) := by
  obtain ⟨-, row, hr, hs, -⟩ := save_eq_ok h
  have hnew : (entry table flow now supply).IsEncodable := (storable_eq_ok_iff.mp (storable_of_save h)).2
  have hbound : bound [flow.owner, flow.phoneNumber] = .ok () := hnew.slot
  rw [load, hn.eq, hbound, hr, Option.mapM_some, hs]
  rfl

theorem saveId_ne_empty (table : FlowTable) (flow : CallFlow) (supply : Supply) : saveId table flow supply ≠ "" := by
  unfold saveId
  cases ho : ownId? table flow with
  | none =>
    intro hempty
    have hlength := congrArg Text.length hempty
    simp [Supply.next, Supply.identifier, Text.length] at hlength
  | some id =>
    have hfilled := (Option.filter_eq_some_iff.mp ho).1
    simpa using (Option.filter_eq_some_iff.mp hfilled).2

/-- What all rows have after a save, if they have had it before and a row that holds the saved flow has it. -/
theorem forall_mem_of_save {P : FlowRow → Prop} (hold : ∀ row ∈ table, P row)
    (hnew : ∀ row, row.Holds flow now → (row.id = saveId table flow supply ∨ ∃ old ∈ table, old.id = row.id) → P row)
    (h : (save table flow replace now supply).1 = .ok (saved, table')) : ∀ row ∈ table', P row := by
  have hkept (row : FlowRow) (hm : row ∈ vacated table flow) : row ∈ table := (vacated_sublist table flow).mem hm
  refine forall_mem_upsert (fun row hm => hold row (hkept row hm)) ?_ ?_ (save_eq_ok h).1
  · exact hnew _ rfl (Or.inl rfl)
  · intro old hmem hslot
    exact hnew _ (FlowRow.holds_overwrite hslot _ _) (Or.inr ⟨old, hkept old hmem, rfl⟩)

theorem save_written (hw : ∀ row ∈ table, row.Written) (hkept : flow.IsKept)
    (h : (save table flow replace now supply).1 = .ok (saved, table')) : ∀ row ∈ table', row.Written := by
  have hwritable := (storable_eq_ok_iff.mp (storable_of_save h)).1
  refine forall_mem_of_save hw (fun row hholds hid => ⟨?_, flow, now, hkept, hwritable, hholds⟩) h
  rcases hid with hid | ⟨old, hmem, hid⟩
  · rw [hid]
    exact saveId_ne_empty table flow supply
  · exact hid ▸ (hw old hmem).named

end FlowTable

namespace Database

variable {db db' : Database}

theorem flowOf_of_saveFlow (hn : PhoneNumber.IsNormal flow.phoneNumber)
    (h : db.saveFlow flow replace now = (.ok saved, db')) :
    db'.flowOf (.str flow.owner) (.str flow.phoneNumber) = .ok (some saved) := by
  obtain ⟨flows, hs, rfl, hin⟩ := saveFlow_eq_ok h
  exact (flowOf_str hin flow.owner flow.phoneNumber).trans (FlowTable.load_of_save hn hs)

end Database
end Store
end Switchboard
