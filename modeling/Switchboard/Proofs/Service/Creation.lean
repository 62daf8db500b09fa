import Switchboard.Proofs.Service.Requests

/-! # When flows have come into the table

An upload names no first time. So a flow that stays at its number keeps the time at which it came there, through all
requests; and a flow that an upload moves to another number has the time of the move.
-/
namespace Switchboard
open Store

namespace Service
open Http (Request)

variable {settings : Settings} {db after : Database} {now : String} {request : Request} {requests : List Request}
  {row row' : FlowRow}

theorem Uploads.createdAt {flow : CallFlow} (h : Uploads request flow) : flow.createdAt = none := by
  obtain ⟨⟨_, upload, -, hflow⟩, -⟩ := h
  obtain ⟨stored, -, hmade⟩ := Outcome.bind_eq_ok.mp hflow
  rw [← Outcome.pure_eq_ok.mp hmade]

/-- What has the id of a row after a request has its first time as well, or it has come to another number just now. -/
theorem createdAt_of_respond (hw : db.flows.WellFormed) (hm : row ∈ db.flows)
    (hm' : row' ∈ (respond settings db now request).2.flows) (hid : row'.id = row.id) :
    row'.createdAt = if row'.phoneNumber = row.phoneNumber then row.createdAt else some (now : Text) := by
  have hkept (other : FlowRow) (hother : other ∈ db.flows) (hid : other.id = row.id) :
      other.createdAt = if other.phoneNumber = row.phoneNumber then row.createdAt else some (now : Text) := by
    rw [List.inj_on_of_nodup_map hw.ids hother hm hid, if_pos rfl]
  refine respond_keeps (P := fun table => ∀ other ∈ table, other.id = row.id →
    other.createdAt = if other.phoneNumber = row.phoneNumber then row.createdAt else some (now : Text)) hkept ?_ ?_ row' hm' hid
  · intro flow replace saved flows huploads hsaved other hother hid
    rw [FlowTable.createdAt_of_save hw hsaved hm hother hid, huploads.createdAt]
    rfl
  · exact fun p other hother hid => hkept other (List.mem_filter.mp hother).1 hid

inductive Stays (flow number : Text) : Database → Database → Prop
  | refl (db : Database) : Stays flow number db db
  | answer {db during : Database} (before : Stays flow number db during) (settings : Settings) (now : String)
      (request : Request)
      (hstays : ∃ row ∈ (respond settings during now request).2.flows, row.id = flow ∧ row.phoneNumber = number) :
      Stays flow number db (respond settings during now request).2

theorem Stays.served {flow number : Text} (h : Stays flow number db after) (run : Served requests db) :
    ∃ requests, Served requests after := by
  induction h with
  | refl => exact ⟨requests, run⟩
  | answer before settings now request hstays ih =>
    obtain ⟨earlier, run⟩ := ih
    exact ⟨request :: earlier, run.answer settings now request⟩

/-- Where a flow stays at its number there is a row for it, with the time at which it came there. -/
theorem Stays.exists_row (h : Stays row.id row.phoneNumber db after) (run : Served requests db) (hm : row ∈ db.flows) :
    ∃ row' ∈ after.flows, row'.id = row.id ∧ row'.phoneNumber = row.phoneNumber ∧ row'.createdAt = row.createdAt := by
  induction h with
  | refl => exact ⟨row, hm, rfl, rfl, rfl⟩
  | answer before settings now request hstays ih =>
    obtain ⟨_, hserved⟩ := before.served run
    obtain ⟨old, hold, hid, hnumber, hcreated⟩ := ih
    obtain ⟨row', hm', hid', hnumber'⟩ := hstays
    refine ⟨row', hm', hid', hnumber', ?_⟩
    rw [createdAt_of_respond hserved.wellFormed hold hm' (hid'.trans hid.symm), if_pos (hnumber'.trans hnumber.symm),
      hcreated]

/-- Whatever is asked of a service, a flow keeps the time at which it has come to its number for as long as it stays
there. Once it has moved to another number, it has the time of the move. -/
theorem Served.createdAt_kept (run : Served requests db) (hm : row ∈ db.flows) :
    (∀ settings now request, ∀ row' ∈ (respond settings db now request).2.flows, row'.id = row.id →
      row'.createdAt = if row'.phoneNumber = row.phoneNumber then row.createdAt else some (now : Text)) ∧
    ∀ after, Stays row.id row.phoneNumber db after →
      ∀ row' ∈ after.flows, row'.id = row.id → row'.createdAt = row.createdAt := by
  constructor
  · intro settings now request row' hm' hid
    exact createdAt_of_respond run.wellFormed hm hm' hid
  · intro after hstays row' hm' hid
    obtain ⟨_, hserved⟩ := hstays.served run
    obtain ⟨kept, hkept, hsame, -, hcreated⟩ := hstays.exists_row run hm
    rw [List.inj_on_of_nodup_map hserved.wellFormed.ids hm' hkept (hid.trans hsame.symm), hcreated]

def deskUpload (number : String) : Request where
  method := .post
  path := "/api/call-flows/"
  headers := [("Content-Type", "application/json")]
  body := ["\x7b\"id\": \"desk\", \"owner\": \"ann\", \"phone_number\": \"", number,
    "\", \"blocks\": [\x7b\"id\": \"bye\", \"type\": \"hangup\"\x7d]\x7d"].flatMap fun piece => Text.bytesOf piece.toList

theorem Served.createdAt_kept_updated :
    let first := (respond {} {} "t0" (deskUpload "1")).2
    let second := (respond {} first "t1" (deskUpload "1")).2
    Served [deskUpload "1"] first ∧ ∃ row row', first.flows = [row] ∧ second.flows = [row'] ∧ row'.id = row.id ∧
      row.createdAt = some ("t0" : Text) ∧ row'.updatedAt = some ("t1" : Text) ∧
      Stays row.id row.phoneNumber first second ∧ row'.createdAt = row.createdAt := by
  intro first second
  have run : Served [deskUpload "1"] first := .answer (.start rfl) {} "t0" (deskUpload "1")
  have hfirst : first.flows.map (fun row => [some row.id, some row.phoneNumber, row.createdAt]) =
      [["desk", "1", "t0"].map fun s => some (Text.plain s)] := by decide +kernel
  have hsecond : second.flows.map (fun row => [some row.id, some row.phoneNumber, row.updatedAt]) =
      [["desk", "1", "t1"].map fun s => some (Text.plain s)] := by decide +kernel
  obtain ⟨row, hrow, hsame⟩ := List.map_eq_singleton_iff.mp hfirst
  obtain ⟨row', hrow', hsame'⟩ := List.map_eq_singleton_iff.mp hsecond
  obtain ⟨hid, hnumber, hcreated⟩ : row.id = "desk" ∧ row.phoneNumber = "1" ∧ row.createdAt = some ("t0" : Text) := by
    simpa using hsame
  obtain ⟨hid', hnumber', hupdated⟩ : row'.id = "desk" ∧ row'.phoneNumber = "1" ∧
      row'.updatedAt = some ("t1" : Text) := by
    simpa using hsame'
  have hm : row ∈ first.flows := hrow ▸ List.mem_cons_self
  have hm' : row' ∈ second.flows := hrow' ▸ List.mem_cons_self
  have hstays : Stays row.id row.phoneNumber first second :=
    .answer (.refl first) {} "t1" (deskUpload "1") ⟨row', hm', hid'.trans hid.symm, hnumber'.trans hnumber.symm⟩
  exact ⟨run, row, row', hrow, hrow', hid'.trans hid.symm, hcreated, hupdated, hstays,
    (run.createdAt_kept hm).2 second hstays row' hm' (hid'.trans hid.symm)⟩

/-- A flow that is uploaded again for another number has the time of this upload. -/
theorem Served.createdAt_moved :
    let first := respond {} {} "t0" (deskUpload "1")
    let second := respond {} first.2 "t1" (deskUpload "2")
    first.1.status = 200 ∧ second.1.status = 200 ∧
      first.2.flows.map (fun row => [some row.id, some row.phoneNumber, row.createdAt]) =
        [["desk", "1", "t0"].map fun s => some (Text.plain s)] ∧
      second.2.flows.map (fun row => [some row.id, some row.phoneNumber, row.createdAt]) =
        [["desk", "2", "t1"].map fun s => some (Text.plain s)] := by
  decide +kernel

end Service
end Switchboard
