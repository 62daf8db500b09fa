import Switchboard.Proofs.Editor.Saving
import Switchboard.Proofs.Store.RoundTrip

/-! # Opening a flow and saving it again

A flow that is opened and saved without an edit goes back to its own row, so no other row changes. Everything that
the row holds is carried through the editor but the status: a flow is sent as one in use. So the row of a flow in use
stays as it is, but for blanks around its name, a blank entry and the time of the save, and a flow that is not in use
comes into use.
-/
namespace Switchboard
open Store

def CallFlow.resent (flow : CallFlow) : CallFlow :=
  { flow with name := Text.trim flow.name, status := "active", updatedAt := none }

namespace Store

variable {flow : CallFlow} {row : FlowRow}

/-- The row after its flow has been opened and saved: nothing changes but blanks around the name, a blank entry and
the time of the save. -/
def FlowRow.resaved (row : FlowRow) (now : Text) : FlowRow :=
  { row with name := Text.trim row.name, entryBlockId := filled row.entryBlockId, updatedAt := some now }

/-- What a row that a save has written and the flow that it gives have in common. -/
structure FlowRow.Agrees (row : FlowRow) (flow : CallFlow) : Prop where
  id : flow.id = some row.id
  slot : row.slot = (flow.owner, flow.phoneNumber)
  normal : PhoneNumber.IsNormal flow.phoneNumber
  name : row.name = flow.name
  description : row.description = some flow.description
  document : row.document = some flow.document
  joined : flow.document.isJoined = true
  writable : flow.document.isWritable = true
  entry : filled row.entryBlockId = flow.entryBlockId
  createdAt : row.createdAt = flow.createdAt
  recorded : row.recordingEnabled = flow.recordingEnabled
  disclaimer : row.recordingDisclaimer = flow.recordingDisclaimer

theorem FlowRow.Written.agrees (h : row.Written) : ∃ flow, row.toFlow = .ok flow ∧ row.Agrees flow := by
  obtain ⟨held, earlier, hkept, hwritable, hholds⟩ := h.holds
  refine ⟨_, hholds.toFlow hkept, ?_⟩
  constructor
  · rfl
  · exact congrArg FlowRow.slot hholds
  · exact hkept.normal
  · exact congrArg FlowRow.name hholds
  · exact congrArg FlowRow.description hholds
  · have hdocument : row.document = some held.document.reread := congrArg FlowRow.document hholds
    rw [hdocument, Value.reread_of_isJoined held.document hkept.joined]
    rfl
  · exact hkept.joined
  · exact hwritable
  · exact congrArg (fun row => filled row.entryBlockId) hholds
  · rfl
  · exact congrArg FlowRow.recordingEnabled hholds
  · exact congrArg FlowRow.recordingDisclaimer hholds

/-- A row takes back the flow that it gives, with blanks around its name trimmed, as a flow in use. -/
theorem FlowRow.overwrite_resent (h : row.Agrees flow) (htitle : Text.trim flow.name ≠ "") (id createdAt now : Text) :
    row.overwrite (.ofFlow flow.resent id createdAt now) =
      { row.resaved now with status := some ("active" : Text) } := by
  have hdocument : flow.resent.document.reread = flow.document := Value.reread_of_isJoined flow.document h.joined
  rw [overwrite, resaved, h.name, h.description, h.document, h.entry, h.recorded, h.disclaimer]
  simp only [ofFlow, hdocument]
  simp [CallFlow.resent, htitle]

theorem FlowRow.Agrees.storable (h : row.Agrees flow) (hrow : row.IsEncodable) (htitle : Text.trim flow.name ≠ "")
    (now : String) : FlowTable.storable flow.resent
      (.ofFlow flow.resent row.id ((filled flow.resent.createdAt).getD now) now) = .ok () := by
  refine FlowTable.storable_eq_ok_iff.mpr ⟨h.writable, ?_⟩
  obtain ⟨howner, hnumber⟩ := Prod.mk.inj h.slot
  have hown (t : Text) (ht : t ∈ row.texts) : t.isPlain = true := hrow t ht
  have hname : (Text.trim flow.name).isPlain = true := by
    rw [← h.name]
    exact Text.isPlain_trim (hown _ (by simp [texts]))
  have hcreated : ((filled flow.createdAt).getD now).isPlain = true := by
    rw [← h.createdAt]
    cases hcreated : filled row.createdAt with
    | none => rfl
    | some t => exact hown t (by simp [texts, (Option.filter_eq_some_iff.mp hcreated).1])
  have hentry (t : Text) (ht : flow.entryBlockId = some t) : t.isPlain = true := by
    rw [← h.entry] at ht
    exact hown t (by simp [texts, (Option.filter_eq_some_iff.mp ht).1])
  intro t ht
  simp only [texts, ofFlow, CallFlow.resent, htitle, if_false, List.mem_append, List.mem_cons, List.not_mem_nil, or_false,
    Option.toList_some, Option.mem_toList, or_assoc, ← howner, ← hnumber, ← h.disclaimer] at ht
  rcases ht with rfl | rfl | rfl | rfl | rfl | hstatus | hentered | hdisclaimer | rfl | rfl
  · exact hown _ (by simp [texts])
  · exact hown _ (by simp [texts])
  · exact hown _ (by simp [texts])
  · exact hname
  · exact hown _ (by simp [texts, h.description])
  · rw [hstatus]
    split <;> rfl
  · exact hentry t hentered
  · exact hown t (by simp [texts, hdisclaimer])
  · exact hcreated
  · rfl

end Store

namespace EditorState

variable {s : EditorState} {flow : CallFlow}

theorem validate_of_checkNumber {number : Text} {replace : Bool} (h : s.checkNumber number replace = .ok none) :
    ∃ report, Validation.validate s.blocks s.entryBlockId = .ok report := by
  unfold checkNumber at h
  split at h
  · cases h
  · split at h
    · cases h
    · split at h
      · cases h
      · obtain ⟨report, hreport, -⟩ := Outcome.bind_eq_ok.mp h
        exact ⟨report, hreport⟩

theorem of_checkSave {number : Value} {replace : Bool} (h : s.checkSave number replace = .ok none) :
    (∃ title, s.title = .ok title ∧ title ≠ "") ∧ ∃ report, Validation.validate s.blocks s.entryBlockId = .ok report := by
  unfold checkSave at h
  split at h
  · cases h
  · obtain ⟨title, htitle, h⟩ := Outcome.bind_eq_ok.mp h
    split at h
    · cases h
    · rename_i hne
      refine ⟨⟨title, htitle, hne⟩, ?_⟩
      obtain ⟨chosen, -, h⟩ := Outcome.bind_eq_ok.mp h
      split at h
      · cases h
      · exact validate_of_checkNumber h

def opened (flow : CallFlow) : EditorState where
  status := .editing
  flowName := .str flow.name
  selectedNumber := some flow.phoneNumber
  blocks := flow.blocks
  entryBlockId := flow.entryBlockId
  currentFlow := some flow
  recordingEnabled := .bool flow.recordingEnabled
  recordingDisclaimer := .ofText? flow.recordingDisclaimer

theorem record_opened (hn : PhoneNumber.IsNormal flow.phoneNumber) :
    (opened flow).record (.str flow.owner) (.str flow.phoneNumber) (.bool flow.recordingEnabled) =
      .ok flow.resent := by
  let given : Entries := [("owner", .str flow.owner), ("phone_number", .str flow.phoneNumber),
    ("recording_enabled", .bool flow.recordingEnabled),
    ("recording_disclaimer", .ofText? flow.recordingDisclaimer)]
  have howner : Reading.field given "owner" Reading.text = .done flow.owner := rfl
  have hnumber : Reading.field given "phone_number" CallFlow.readNumber = .done flow.phoneNumber :=
    congrArg (fun number => Reading.under (.field "phone_number") (.done number)) hn.eq
  have hrecorded : Reading.field given "recording_enabled" Reading.bool = .done flow.recordingEnabled := rfl
  have hread : Reading.nullable Reading.text (.ofText? flow.recordingDisclaimer) =
      .done flow.recordingDisclaimer := by
    cases flow.recordingDisclaimer <;> rfl
  have hdisclaimer : Reading.field given "recording_disclaimer" (Reading.nullable Reading.text) =
      .done flow.recordingDisclaimer := congrArg (Reading.under (.field "recording_disclaimer")) hread
  change ((opened flow).asFlow (Text.trim flow.name) <$> Reading.field given "owner" Reading.text
    <*> Reading.field given "phone_number" CallFlow.readNumber
    <*> Reading.field given "recording_enabled" Reading.bool
    <*> Reading.field given "recording_disclaimer" (Reading.nullable Reading.text)).outcome = _
  rw [howner, hnumber, hrecorded, hdisclaimer]
  rfl

theorem sendSave_opened (hn : PhoneNumber.IsNormal flow.phoneNumber)
    (h : (opened flow).checkSave .null false = .ok none) : ∃ request sending,
      (opened flow).sendSave (.str flow.owner) .null .null false = .ok (.ok (request, sending)) ∧
      request.record = flow.resent := by
  obtain ⟨-, report, hreport⟩ := of_checkSave h
  -- the number is normalised once more, which leaves it as it is
  have hnumber : (opened flow).numberToSave .null = .ok (some flow.phoneNumber) :=
    congrArg (fun number => Except.ok (some number)) hn.eq
  refine ⟨{ snapshot := opened flow, record := flow.resent, warnings := report.warnings },
    { opened flow with status := .saving, lastError := none }, Outcome.bind_eq_ok.mpr ⟨none, h, ?_⟩, rfl⟩
  refine Outcome.bind_eq_ok.mpr ⟨some flow.phoneNumber, hnumber, ?_⟩
  exact Outcome.bind_eq_ok.mpr ⟨flow.resent, record_opened hn, Outcome.bind_eq_ok.mpr ⟨report, hreport, rfl⟩⟩

end EditorState

namespace Session

variable {db : Database} {row : FlowRow} {flow : CallFlow}

theorem openNumber_of_toFlow (hin : db.hasFlows = true) (hw : db.flows.WellFormed) (hmem : row ∈ db.flows)
    (hn : PhoneNumber.IsNormal row.phoneNumber) (hflow : row.toFlow = .ok flow) :
    ({ database := db } : Session).openNumber (.str row.owner) (.str row.phoneNumber) {} =
      .ok ({ state := .opened flow, event := some .flowLoaded }, { editor := .opened flow, database := db }) := by
  have hnumber : PhoneNumber.normalizeValue? (.str row.phoneNumber) = some (.str row.phoneNumber) :=
    congrArg (fun number => some (Value.str number)) hn.eq
  have hload : db.flowOf (.str row.owner) (.str row.phoneNumber) = .ok (some flow) := by
    have hrow := (FlowTable.rowFor?_eq_some_iff hw).mpr ⟨hmem, rfl⟩
    rw [Database.flowOf_str hin, FlowTable.load, hn.eq, (hw.encodable row hmem).slot, hrow, Option.mapM_some, hflow]
    rfl
  rw [openNumber, EditorState.selectNumber, hnumber]
  change Except.ok (EditorState.receiveFlow _ (db.flowOf (.str row.owner) (.str row.phoneNumber)), _) = _
  rw [hload]
  rfl

/-- A flow that is saved as it has been opened overwrites its row and no other. -/
theorem saveFlow_opened (hin : db.hasFlows = true) (hw : db.flows.WellFormed) (hmem : row ∈ db.flows)
    (hne : row.id ≠ "") (hagrees : row.Agrees flow) (htitle : Text.trim flow.name ≠ "")
    (h : (EditorState.opened flow).checkSave .null false = .ok none) (now : String) : ∃ outcome after,
      ({ editor := .opened flow, database := db } : Session).saveFlow (.str flow.owner) .null .null false now {} =
        .ok (outcome, after) ∧ outcome.ok = true ∧
      after.database = { db with flows := db.flows.withRow (row.overwrite (.ofFlow flow.resent row.id now now)) } := by
  obtain ⟨request, sending, hsent, hrecord⟩ := EditorState.sendSave_opened hagrees.normal h
  have hstorable := hagrees.storable (hw.encodable row hmem) htitle now
  let table' := db.flows.withRow (row.overwrite (.ofFlow flow.resent row.id now now))
  obtain ⟨saved, hsave⟩ : ∃ saved, db.flows.save flow.resent false now db.supply =
      (.ok (saved, table'), db.supply) := FlowTable.save_own hw hmem hne hagrees.id hagrees.slot hstorable
  have hstore : store db request.record false now {} = (.ok saved, { db with flows := table' }) := by
    simp only [store, hrecord, Database.saveFlow, if_pos hin, hsave, table']
  -- a save ends with a look at all flows, which leaves the database alone
  let after : Session := { editor := request.stateAfter (.ok saved), database := { db with flows := table' } }
  refine ⟨request.outcome (.ok saved), (after.loadFlows (.str flow.owner) {}).2,
    Outcome.bind_eq_ok.mpr ⟨.ok (request, sending), hsent, ?_⟩, rfl, rfl⟩
  simp only [hstore]
  rfl

/-- Opening a flow in use and saving it unedited succeeds and changes nothing: all rows stay, the one of the flow but
for blanks around its name, a blank entry and the time of the save. -/
theorem saveFlow_reopened {edit : Edit} {reopened : Session} (hin : db.hasFlows = true) (hw : db.flows.WellFormed)
    (hmem : row ∈ db.flows) (hwritten : row.Written) (hactive : row.status = some ("active" : Text))
    (hopen : ({ database := db } : Session).openNumber (.str row.owner) (.str row.phoneNumber) {} = .ok (edit, reopened))
    (hcheck : reopened.editor.checkSave .null false = .ok none) (now : String) :
    edit.ok = true ∧ ∃ outcome after,
      reopened.saveFlow (.str row.owner) .null .null false now {} = .ok (outcome, after) ∧ outcome.ok = true ∧
      after.database = { db with flows := db.flows.withRow (row.resaved now) } := by
  obtain ⟨flow, hflow, h⟩ := hwritten.agrees
  obtain ⟨howner, hnumber⟩ := Prod.mk.inj h.slot
  have hnormal : PhoneNumber.IsNormal row.phoneNumber := hnumber ▸ h.normal
  rw [openNumber_of_toFlow hin hw hmem hnormal hflow, Except.ok.injEq, Prod.mk.injEq] at hopen
  obtain ⟨rfl, rfl⟩ := hopen
  obtain ⟨⟨title, htitle, hne⟩, -⟩ := EditorState.of_checkSave hcheck
  cases htitle
  have hrow : row.overwrite (.ofFlow flow.resent row.id now now) = row.resaved now := by
    rw [FlowRow.overwrite_resent h hne]
    simp only [FlowRow.resaved, hactive]
  rw [howner, ← hrow]
  exact ⟨rfl, saveFlow_opened hin hw hmem hwritten.named h hne hcheck now⟩

def deskFlow (status : Text) : CallFlow where
  id := none
  owner := "ann"
  phoneNumber := "+15550001111"
  name := "Desk "
  description := "Front desk"
  status := status
  blocks := [hello]
  entryBlockId := some ("hello" : Text)
  recordingEnabled := false
  recordingDisclaimer := some ("This call is recorded." : Text)

def desk (status : Text) : FlowRow :=
  .ofFlow (deskFlow status) (Supply.identifier 1) "t0" "t0"

def afterOpening (row : FlowRow) : Outcome (Edit × Session) :=
  ({ database := { flows := [row], supply := ⟨1⟩ } } : Session).openNumber (.str row.owner) (.str row.phoneNumber) {}

theorem saveFlow_reopened_desk : ∃ edit reopened outcome after,
    afterOpening (desk "active") = .ok (edit, reopened) ∧
    reopened.saveFlow (.str (desk "active").owner) .null .null false "t1" {} = .ok (outcome, after) ∧
    outcome.ok = true ∧ after.database.flows = [(desk "active").resaved "t1"] := by
  let db : Database := { flows := [desk "active"], supply := ⟨1⟩ }
  have hin : db.hasFlows = true := rfl
  have hmem : desk "active" ∈ db.flows := List.mem_cons_self
  have hnormal : PhoneNumber.IsNormal (deskFlow "active").phoneNumber := by
    unfold PhoneNumber.IsNormal
    decide +kernel
  have hkept : (deskFlow "active").IsKept := ⟨hnormal, by decide +kernel, by decide +kernel⟩
  have hsaves : (FlowTable.save [] (deskFlow "active") false "t0" ⟨0⟩).1.toOption.isSome = true := by decide +kernel
  obtain ⟨⟨saved, table⟩, hsaved⟩ := Option.isSome_iff_exists.mp hsaves
  have hsaved := Outcome.eq_ok_of_toOption hsaved
  obtain rfl : table = [desk "active"] := (Except.ok.inj (FlowTable.save_eq_ok hsaved).1).symm
  have hw : db.flows.WellFormed := FlowTable.save_wellFormed .nil hsaved
  have hwritten : (desk "active").Written :=
    FlowTable.save_written (fun row hm => absurd hm List.not_mem_nil) hkept hsaved _ hmem
  have hholds : (desk "active").Holds (deskFlow "active") "t0" := rfl
  have hopened := openNumber_of_toFlow hin hw hmem hnormal (hholds.toFlow hkept)
  have hchecked : ((EditorState.opened ((deskFlow "active").completed (desk "active").id (desk "active").createdAt
      (some ("t0" : Text)))).checkSave .null false).toOption = some none := by decide +kernel
  have hcheck := Outcome.eq_ok_of_toOption hchecked
  obtain ⟨-, outcome, after, hsave, hok, hdatabase⟩ :=
    saveFlow_reopened hin hw hmem hwritten rfl hopened hcheck "t1"
  refine ⟨_, _, outcome, after, hopened, hsave, hok, ?_⟩
  rw [hdatabase]
  simp [db, FlowTable.withRow, FlowRow.resaved]

/-- A flow that is not in use does not stay so: opened and saved unedited it comes into use. -/
theorem saveFlow_activates_desk : (desk "inactive").status = some ("inactive" : Text) ∧
    ((afterOpening (desk "inactive")).toOption.bind fun opened =>
      (opened.2.saveFlow (.str "ann") .null .null false "t1" {}).toOption.map fun saved =>
        (saved.1.ok, saved.2.database.flows.map FlowRow.status)) = some (true, [some ("active" : Text)]) := by
  decide +kernel

end Session
end Switchboard
