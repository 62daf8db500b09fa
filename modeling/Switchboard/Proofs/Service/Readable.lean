import Switchboard.Proofs.Store.Readable
import Switchboard.Service.Flows

/-! # Which stored flows the service can read

What is no document, and what is no block among blocks, is left out. Everything else is read if the check of its
parts passes, and only then: one document that does not pass makes every operation fail that returns its flow.
-/
namespace Switchboard

namespace StoredGraph

theorem decode_skips {before after : List Value} {item : Value} (h : (Block.read item).result? = none) :
    decode (.arr (before ++ item :: after)) = decode (.arr (before ++ after)) := by
  have hblocks : readBlocks (before ++ item :: after) = readBlocks (before ++ after) := by
    simp [readBlocks, List.filterMap_append, h]
  simp only [decode, ofDocument, hblocks]

theorem decode_of_read?_eq_none {text : Text} (h : Json.read? text = none) : decode (.str text) = .ok nothing := by
  rw [decode, h]
  rfl

end StoredGraph

namespace Service

open StoredGraph
open Store (Database FlowTable FlowRow filled)

theorem FlowUpload.toFlow_succeeds_iff {upload : FlowUpload} :
    (∃ flow, upload.toFlow = .ok flow) ↔ isReadable upload.blocks = true := by
  rw [toFlow, Outcome.bind_succeeds_iff, ← decode_succeeds_iff]
  simp

theorem status_success_iff {v : Value} : (success v).status = 200 ↔ v.finiteOnly.isEncodable = true := by
  rw [success, responseWith]
  split
  · rename_i h
    exact iff_of_true rfl h
  · rename_i h
    exact iff_of_false (by decide) h

def storedValue (saved : CallFlow) (warnings : List Finding) : Value :=
  .obj [("flow", saved.toValue), ("warnings", findingsValue warnings)]

theorem acceptUpload_of_unreadable {db : Database} {upload : FlowUpload} {replace : Bool} {now : Text}
    (h : isReadable upload.blocks = false) : acceptUpload db upload replace now = (failure, db) := by
  have hflow : ¬ ∃ flow, upload.toFlow = .ok flow := by
    rw [FlowUpload.toFlow_succeeds_iff, h]
    exact Bool.false_ne_true
  cases hexamine : examine upload with
  | error fault => rw [acceptUpload, hexamine]
  | ok found =>
    obtain ⟨flow, hflow', -⟩ := Outcome.bind_eq_ok.mp hexamine
    exact absurd ⟨flow, hflow'⟩ hflow

theorem acceptUpload_of_saved {db after : Database} {upload : FlowUpload} {replace : Bool} {now : Text}
    {flow saved : CallFlow} {report : Report} (hexamined : examine upload = .ok (flow, report))
    (hreport : report.ok = true) (hsaved : db.saveFlow flow replace now = (.ok saved, after)) :
    acceptUpload db upload replace now = (success (storedValue saved report.warnings), after) := by
  simp only [acceptUpload, hexamined, hreport, if_pos, storeFlow, hsaved, storedValue]

/-- A stored value, a table and an upload are read as far as their documents pass the check. Undecodable data does
no harm: a text that is no document has no blocks, and what is no block is left out. What is looked up has to have bytes,
and so does what is stored and what is answered. -/
theorem documents_readable (stored : Value) (bytes : List UInt8) (table : FlowTable) (upload : FlowUpload) :
    ((∃ graph, decode stored = .ok graph) ↔ isReadable stored = true) ∧
    ((∃ graph, decodeBytes bytes = .ok graph) ↔ (Json.readBytes? bytes).all documentReadable = true) ∧
    (∀ text, Json.read? text = none → decode (.str text) = .ok nothing) ∧
    (∀ before item after, (Block.read item).result? = none →
      decode (.arr (before ++ item :: after)) = decode (.arr (before ++ after))) ∧
    (∀ id, (∃ flow, table.get id = .ok flow) ↔
      id.isPlain = true ∧ (table.row? id).all FlowRow.isReadable = true) ∧
    (∀ number, (∃ flow, table.forNumber number = .ok flow) ↔
      (PhoneNumber.normalize number).isPlain = true ∧ (table.governing? number).all FlowRow.isReadable = true) ∧
    (∀ owner, (∃ flows, table.list owner = .ok flows) ↔ (filled owner).all Text.isPlain = true ∧
      ∀ row ∈ table, ((filled owner).all fun o => row.owner == o) = true → row.isReadable = true) ∧
    ((∃ flow, upload.toFlow = .ok flow) ↔ isReadable upload.blocks = true) ∧
    (∀ db replace now, isReadable upload.blocks = false → acceptUpload db upload replace now = (failure, db)) ∧
    (∀ flow replace now supply fault,
      replace = true ∨ (table.rowFor? flow.owner flow.phoneNumber).all FlowRow.isReadable = true →
      (table.save flow replace now supply).1 = .error fault →
      (∃ columns, fault = .repeatedColumns columns) ∨ (∃ existing, fault = .conflict flow.phoneNumber existing) ∨
        ¬ (flow.document.isWritable = true ∧ (FlowTable.entry table flow now supply).IsEncodable)) ∧
    ∀ (db : Database) replace now flow report saved after, examine upload = .ok (flow, report) → report.ok = true →
      db.saveFlow flow replace now = (.ok saved, after) →
      acceptUpload db upload replace now = (success (storedValue saved report.warnings), after) ∧
      ((success (storedValue saved report.warnings)).status = 200 ↔
        (storedValue saved report.warnings).finiteOnly.isEncodable = true) := by
  refine ⟨decode_succeeds_iff, ofDocument?_succeeds_iff, fun text => decode_of_read?_eq_none,
    fun before item after => decode_skips, fun id => FlowTable.get_succeeds_iff,
    fun number => FlowTable.forNumber_succeeds_iff, fun owner => FlowTable.list_succeeds_iff,
    FlowUpload.toFlow_succeeds_iff, fun db replace now => acceptUpload_of_unreadable, ?_, ?_⟩
  · intro flow replace now supply fault hslot herror
    by_cases hstorable : flow.document.isWritable = true ∧ (FlowTable.entry table flow now supply).IsEncodable
    · have hcases := FlowTable.save_error_cases hslot (FlowTable.storable_eq_ok_iff.mpr hstorable) herror
      exact hcases.imp_right Or.inl
    · exact Or.inr (Or.inr hstorable)
  · intro db replace now flow report saved after hexamined hreport hsaved
    exact ⟨acceptUpload_of_saved hexamined hreport hsaved, status_success_iff⟩

def deskRow (id owner : Text) (document : Value) : FlowRow where
  id := id
  owner := owner
  phoneNumber := "+15550001111"
  name := "Desk"
  status := some ("active" : Text)
  document := some document
  recordingEnabled := true

def numberedEntry : Value :=
  .obj [("blocks", .arr [.obj [("id", .str "a"), ("type", .str "say"), ("config", .obj [("text", .str "Hi")]),
    ("next", .arr [])]]), ("entry_block_id", .int 7)]

/-- Of two rows one cannot be read: the flows of its owner cannot be listed, those of the other can. -/
theorem documents_readable_desks :
    let table : FlowTable := [deskRow "a" "ann" (.arr []), deskRow "b" "bob" numberedEntry]
    (Json.read? "[1" = none ∧ StoredGraph.decode (.str "[1") = .ok nothing) ∧
    (FlowRow.isReadable (deskRow "a" "ann" (.arr [])) = true ∧ ∃ flow, table.get "a" = .ok flow) ∧
    (FlowRow.isReadable (deskRow "b" "bob" numberedEntry) = false ∧ ¬ ∃ flow, table.get "b" = .ok flow) ∧
    (∃ flows, table.list (some ("ann" : Text)) = .ok flows) ∧ ¬ ∃ flows, table.list none = .ok flows := by
  intro table
  let upload : FlowUpload := {
    id := none, owner := "ann", phoneNumber := "+15550001111", name := none, description := none, status := none
    blocks := .arr [], entryBlockId := none, recordingEnabled := true, recordingDisclaimer := none }
  obtain ⟨-, -, htext, -, hget, -, hlist, -⟩ := documents_readable (.arr []) [] table upload
  have hnone : Json.read? "[1" = none := by decide +kernel
  have ha : FlowRow.isReadable (deskRow "a" "ann" (.arr [])) = true := by decide +kernel
  have hb : FlowRow.isReadable (deskRow "b" "bob" numberedEntry) = false := by decide +kernel
  refine ⟨⟨hnone, htext "[1" hnone⟩, ⟨ha, (hget "a").mpr ?_⟩, ⟨hb, mt (hget "b").mp ?_⟩,
    (hlist (some ("ann" : Text))).mpr ?_, mt (hlist none).mp ?_⟩ <;> decide +kernel

/-- An entry that is no text keeps the blocks beside it from being read, and with them every flow in a list. -/
theorem numberedEntry_unreadable :
    let table : FlowTable := [deskRow "a" "ann" (.arr []), deskRow "b" "bob" numberedEntry]
    (∀ graph, StoredGraph.decode numberedEntry ≠ .ok graph) ∧ (∀ flow, table.get "b" ≠ .ok flow) ∧
    ∀ flows, table.list none ≠ .ok flows := by
  intro table
  have hrow : FlowRow.isReadable (deskRow "b" "bob" numberedEntry) = false := by decide +kernel
  refine ⟨?_, ?_, ?_⟩
  · intro graph h
    have hreadable := decode_succeeds_iff.mp ⟨graph, h⟩
    exact absurd hreadable (by decide +kernel)
  · intro flow h
    have hreadable := FlowTable.get_succeeds_iff.mp ⟨flow, h⟩
    exact absurd hreadable (by decide +kernel)
  · intro flows h
    have hreadable := (FlowTable.list_succeeds_iff.mp ⟨flows, h⟩).2 (deskRow "b" "bob" numberedEntry) (by simp [table]) rfl
    rw [hrow] at hreadable
    cases hreadable

end Service
end Switchboard
