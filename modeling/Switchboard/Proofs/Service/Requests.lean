import Switchboard.Proofs.Flow.StoredGraph
import Switchboard.Proofs.Store.RoundTrip
import Switchboard.Service.Routing

/-! # What requests leave in the table of flows

Only two kinds of requests change the flows of a service: uploads, which store a flow that a validation has accepted,
and removals. So whatever requests are made of a service without flows, every row holds a flow that one of them has
uploaded, as far as it can be stored.
-/
namespace Switchboard
open Store

namespace Service
open Http (Payload Request Response)

variable {settings : Settings} {db : Database} {now : String} {request : Request}

def Uploads (request : Request) (flow : CallFlow) : Prop :=
  (∃ replace upload, readUpload request = .done (replace, upload) ∧ upload.toFlow = .ok flow) ∧
    Validation.Accepts flow.blocks flow.entryBlockId

theorem failure_ne_ok : failure.status ≠ 200 := by decide

theorem responseWith_ne_ok {status : Nat} (h : status ≠ 200) (v : Value) : (responseWith status v).status ≠ 200 := by
  unfold responseWith
  split
  · exact h
  · exact failure_ne_ok

theorem unreadable_ne_ok (issues : List Issue) : (unreadable issues).status ≠ 200 :=
  responseWith_ne_ok (by decide) _

theorem unreadableDocument_ne_ok (v : Value) (issues : List Issue) : (unreadableDocument v issues).status ≠ 200 := by
  rw [unreadableDocument]
  split
  · exact unreadable_ne_ok issues
  · exact failure_ne_ok

/-- Whether a request is refused, and nothing is changed. -/
def Refuses {σ : Type} (state : σ) (answered : Response × σ) : Prop := answered.1.status ≠ 200 ∧ answered.2 = state

section
variable {α σ : Type} (state : σ) (payload : Payload) (reading : Reading α) (answer : α → Response × σ)

theorem answering_cases : Refuses state (answering state reading answer) ∨
    ∃ a, reading = .done a ∧ answering state reading answer = answer a := by
  cases reading with
  | done a => exact Or.inr ⟨a, rfl, rfl⟩
  | refused issues => exact Or.inl ⟨unreadable_ne_ok issues, rfl⟩

theorem answeringBody_cases : Refuses state (answeringBody state payload reading answer) ∨
    ∃ a, reading = .done a ∧ answeringBody state payload reading answer = answer a := by
  cases payload with
  | document v =>
    cases reading with
    | done a => exact Or.inr ⟨a, rfl, rfl⟩
    | refused issues => exact Or.inl ⟨unreadableDocument_ne_ok v issues, rfl⟩
  | garbled =>
    refine Or.inl ⟨?_, rfl⟩
    rw [answeringBody, problem]
    exact responseWith_ne_ok (by decide) _
  | malformed place =>
    obtain ⟨issues, hread⟩ : ∃ issues, Payload.read (fun _ => reading) (.malformed place) = .refused issues := ⟨_, rfl⟩
    rw [answeringBody, hread]
    exact Or.inl ⟨unreadable_ne_ok issues, rfl⟩
  | absent => exact answering_cases state reading answer
  | bytes => exact answering_cases state reading answer

end

theorem answering_same {α σ : Type} {state : σ} {reading : Reading α} {answer : α → Response × σ}
    (h : ∀ a, (answer a).2 = state) : (answering state reading answer).2 = state := by
  cases reading with
  | done a => exact h a
  | refused issues => rfl

theorem storeFlow_database (db : Database) (flow : CallFlow) (replace : Bool) (now : Text) (warnings : List Finding) :
    (storeFlow db flow replace now warnings).2 = (db.saveFlow flow replace now).2 := by
  unfold storeFlow
  split <;> simp_all

theorem of_examine {upload : FlowUpload} {flow : CallFlow} {report : Report} (h : examine upload = .ok (flow, report)) :
    upload.toFlow = .ok flow ∧ Validation.validate flow.blocks flow.entryBlockId = .ok report := by
  obtain ⟨_, hflow, h⟩ := Outcome.bind_eq_ok.mp h
  obtain ⟨_, hreport, h⟩ := Outcome.bind_eq_ok.mp h
  cases h
  exact ⟨hflow, hreport⟩

theorem acceptUpload_cases (db : Database) (upload : FlowUpload) (replace : Bool) (now : Text) :
    Refuses db (acceptUpload db upload replace now) ∨
      ∃ flow report, upload.toFlow = .ok flow ∧
        (Validation.validate flow.blocks flow.entryBlockId = .ok report ∧ report.ok = true) ∧
        acceptUpload db upload replace now = storeFlow db flow replace now report.warnings := by
  unfold acceptUpload
  split
  · exact Or.inl ⟨failure_ne_ok, rfl⟩
  · rename_i flow report hexamined
    obtain ⟨hflow, hreport⟩ := of_examine hexamined
    split
    · rename_i hok
      exact Or.inr ⟨flow, report, hflow, ⟨hreport, hok⟩, rfl⟩
    · exact Or.inl ⟨responseWith_ne_ok (by decide) _, rfl⟩

/-- An upload is refused, or it holds a flow that is accepted, and the flow is stored. -/
theorem takeFlow_cases (db : Database) (now : Text) (request : Request) : Refuses db (takeFlow db now request) ∨
    ∃ replace upload flow report, readUpload request = .done (replace, upload) ∧ upload.toFlow = .ok flow ∧
      (Validation.validate flow.blocks flow.entryBlockId = .ok report ∧ report.ok = true) ∧
      takeFlow db now request = storeFlow db flow replace now report.warnings := by
  have htakes : Refuses db (takeFlow db now request) ∨ ∃ upload, readUpload request = .done upload ∧
      takeFlow db now request = acceptUpload db upload.2 upload.1 now := answeringBody_cases ..
  rcases htakes with hrefused | ⟨⟨replace, upload⟩, hread, htaken⟩
  · exact Or.inl hrefused
  · rw [htaken]
    rcases acceptUpload_cases db upload replace now with hrefused | ⟨flow, report, hflow, haccepted, hstored⟩
    · exact Or.inl hrefused
    · exact Or.inr ⟨replace, upload, flow, report, hread, hflow, haccepted, hstored⟩

theorem flows_of_logCall? {after : Database} {event : CallEvent} {sid : Text} {flow : Option CallFlow}
    {last : Option Text} (h : logCall? db event sid flow last now = .ok after) : after.flows = db.flows := by
  unfold logCall? at h
  split at h
  · split at h
    · obtain ⟨_, -, h⟩ := Outcome.bind_eq_ok.mp h
      obtain ⟨_, -, h⟩ := Outcome.bind_eq_ok.mp h
      obtain ⟨calls, -, h⟩ := Outcome.bind_eq_ok.mp h
      cases h
      rfl
    · cases h
      rfl
  · obtain ⟨call, -, h⟩ := Outcome.bind_eq_ok.mp h
    obtain ⟨⟨row, _⟩, hstart, h⟩ := Outcome.bind_eq_ok.mp h
    obtain ⟨calls, -, hstart⟩ := Outcome.bind_eq_ok.mp hstart
    cases hstart
    cases h
    rfl

theorem logCall_flows (db : Database) (event : CallEvent) (flow : Option CallFlow) (script : CallScript) (now : String) :
    (logCall db event flow script now).flows = db.flows := by
  unfold logCall
  split
  · rfl
  · rename_i sid _
    cases hlog : logCall? db event sid flow script.visited.getLast? now with
    | error fault => rfl
    | ok after => exact flows_of_logCall? hlog

theorem answerCall_flows : (answerCall settings db now request).2.flows = db.flows := by
  unfold answerCall
  split
  · rfl
  · unfold answerEvent
    split
    · rfl
    · exact logCall_flows ..

theorem flows_of_updateCall {after : Database} {sid : String} {status duration : Value} {known : Bool}
    (h : db.updateCall sid status duration now = .ok (known, after)) : after.flows = db.flows := by
  obtain ⟨calls, -, h⟩ := Outcome.bind_eq_ok.mp h
  obtain ⟨updated, -, h⟩ := Outcome.bind_eq_ok.mp h
  cases h
  rfl

theorem takeReport_flows (parameters : List (Text × Text)) : (takeReport db now parameters).2.flows = db.flows := by
  unfold takeReport
  split
  · dsimp only
    split
    · rename_i hupdate
      obtain ⟨_, -, hupdate⟩ := Outcome.bind_eq_ok.mp hupdate
      exact flows_of_updateCall hupdate
    · rfl
  · rfl

theorem takeStatus_flows : (takeStatus settings db now request).2.flows = db.flows := by
  unfold takeStatus
  split
  · rfl
  · exact takeReport_flows _

theorem authenticated_flows {answer : Response × Database} (h : answer.2.flows = db.flows) :
    (authenticated settings db request answer).2.flows = db.flows := by
  unfold authenticated
  split
  · rfl
  · split
    · exact h
    · rfl
    · rfl

theorem checkFlow_database : (checkFlow db request).2 = db := by
  have hchecks : Refuses db (checkFlow db request) ∨ ∃ graph, request.payload.read readBlocks = .done graph ∧
      checkFlow db request =
        (respondWith ((examineGraph graph.1 graph.2).map fun report => success (reportValue report)), db) :=
    answeringBody_cases ..
  rcases hchecks with hrefused | ⟨_, -, hchecked⟩
  · exact hrefused.2
  · rw [hchecked]

theorem showFlow_database (id : Text) : (showFlow db id).2 = db := by
  unfold showFlow
  split
  · rfl
  · split <;> rfl

theorem removeFlow_cases (db : Database) (request : Request) (id : Text) : (removeFlow db request id).2 = db ∨
    ∃ owner, (removeFlow db request id).2 = (Database.FlowOperation.delete id owner).apply db := by
  unfold removeFlow
  split
  · rename_i after hdeleted
    refine Or.inr ⟨request.queryParameters.texts.lookup ("owner" : Text), ?_⟩
    rw [Database.FlowOperation.apply, hdeleted]
  · rename_i after hdeleted
    refine Or.inr ⟨request.queryParameters.texts.lookup ("owner" : Text), ?_⟩
    rw [Database.FlowOperation.apply, hdeleted]
  · exact Or.inl rfl

/-- What a request keeps of the table, if it is kept when an accepted flow is saved and when rows are removed. -/
theorem respond_keeps {P : FlowTable → Prop} (h : P db.flows)
    (hsave : ∀ flow replace saved flows, Uploads request flow →
      (db.flows.save flow replace now db.supply).1 = .ok (saved, flows) → P flows)
    (hremove : ∀ p : FlowRow → Bool, P (db.flows.filter p)) : P (respond settings db now request).2.flows := by
  have hsame {answer : Response × Database} (hflows : answer.2.flows = db.flows) : P answer.2.flows :=
    hflows ▸ h
  unfold respond
  simp only
  -- uploads and removals apart, the flows stay as they are
  split
  · rename_i resource _
    cases resource with
    | flows =>
      rw [answerAt]
      split
      · rcases takeFlow_cases db now request with hrefused | ⟨replace, upload, flow, report, hread, hflow, haccepted, hstored⟩
        · exact hsame (congrArg Database.flows hrefused.2)
        · have huploads : Uploads request flow := ⟨⟨replace, upload, hread, hflow⟩, report, haccepted⟩
          rw [hstored, storeFlow_database]
          exact Database.saveFlow_flows h fun saved flows => hsave flow replace saved flows huploads
      · exact hsame (congrArg Database.flows (answering_same fun _ => rfl))
    | flow id =>
      rw [answerAt]
      split
      · rcases removeFlow_cases db request id with hkept | ⟨owner, hremoved⟩
        · exact hsame (congrArg Database.flows hkept)
        · rw [hremoved]
          exact Database.FlowOperation.apply_delete_flows id owner h hremove
      · exact hsame (congrArg Database.flows (showFlow_database id))
    | voice => exact hsame (authenticated_flows answerCall_flows)
    | status => exact hsame (authenticated_flows takeStatus_flows)
    | outbound => exact hsame (authenticated_flows rfl)
    | lookup => exact hsame (congrArg Database.flows (answering_same fun _ => rfl))
    | check => exact hsame (congrArg Database.flows checkFlow_database)
    | calls => exact hsame (congrArg Database.flows (answering_same fun _ => rfl))
    | home => exact h
    | health => exact h
  · split
    · exact h
    · split <;> exact h

/-- The requests that a service has answered, the last one first, and its database, which has had no flows. -/
inductive Served : List Request → Database → Prop
  | start {db : Database} (hempty : db.flows = []) : Served [] db
  | answer {requests : List Request} {db : Database} (before : Served requests db) (settings : Settings) (now : String)
      (request : Request) : Served (request :: requests) (respond settings db now request).2

theorem Served.wellFormed {requests : List Request} (run : Served requests db) : db.flows.WellFormed := by
  induction run with
  | start hempty =>
    rw [hempty]
    exact .nil
  | answer before settings now request ih =>
    refine respond_keeps ih (fun flow replace saved flows _ hsaved => ?_) fun p => ?_
    · exact FlowTable.save_wellFormed ih hsaved
    · exact ih.sublist List.filter_sublist

theorem Served.rows_uploaded {requests : List Request} (run : Served requests db) :
    ∀ row ∈ db.flows, ∃ request ∈ requests, ∃ flow now, Uploads request flow ∧ row.Holds flow now := by
  induction run with
  | start hempty =>
    rw [hempty]
    exact fun row hm => absurd hm List.not_mem_nil
  | @answer requests db before settings now request ih =>
    have hearlier (row : FlowRow) (hm : row ∈ db.flows) :
        ∃ earlier ∈ request :: requests, ∃ flow now, Uploads earlier flow ∧ row.Holds flow now := by
      obtain ⟨earlier, hmem, hholds⟩ := ih row hm
      exact ⟨earlier, List.mem_cons_of_mem request hmem, hholds⟩
    refine respond_keeps (P := fun table => ∀ row ∈ table, ∃ earlier ∈ request :: requests, ∃ flow now,
      Uploads earlier flow ∧ row.Holds flow now) hearlier ?_ fun p row hm => hearlier row (List.mem_filter.mp hm).1
    intro flow replace saved flows huploads hsaved
    -- the rows of the saved table have been there before, or they hold the flow of this request
    refine FlowTable.forall_mem_of_save hearlier (fun row hholds _ => ?_) hsaved
    exact ⟨request, List.mem_cons_self, flow, now, huploads, hholds⟩

theorem accepts_filled {blocks : List Block} {entry : Option Text} :
    Validation.Accepts blocks (filled entry) ↔ Validation.Accepts blocks entry := by
  have hfilled : (filled entry).filter (· != ("" : Text)) = entry.filter (· != ("" : Text)) := by
    rw [filled, Option.filter_filter]
    simp
  have hentry : Graph.explicitEntry? blocks (filled entry) = Graph.explicitEntry? blocks entry := by
    rw [Graph.explicitEntry?, hfilled, Graph.explicitEntry?]
  simp only [Validation.Accepts, Validation.validate, Validation.checkExplicitEntry, Validation.checkEntry, Graph.entryBlock,
    hfilled, hentry]

/-- Whatever is asked of a service, the flow of every row can be read back, and it comes from an upload that was
accepted. Where its texts are read back as they are, a validation still accepts it exactly when its settings are in
order, which they are if every number of the upload was finite. -/
theorem Served.flows_valid {requests : List Request} (run : Served requests db) :
    (db.hasFlows = true → ∀ row ∈ db.flows, ∃ f, db.flowWithId (.str row.id) = .ok (some f)) ∧
    ∀ id f, db.flowWithId (.str id) = .ok (some f) →
      ∃ request ∈ requests, ∃ flow, Uploads request flow ∧ f.blocks = flow.blocks.map Block.reread ∧
        f.entryBlockId = filled flow.entryBlockId ∧
        (flow.document.isJoined = true →
          f.blocks = flow.blocks.map Block.stored ∧
          (Validation.Accepts f.blocks f.entryBlockId ↔ ∀ b ∈ f.blocks, Validation.checkConfig b = .ok []) ∧
          ((∀ b ∈ flow.blocks, Value.allFiniteEntries b.config = true) →
            Validation.Accepts f.blocks f.entryBlockId)) := by
  have hreads : ∀ row ∈ db.flows, ∃ f, row.toFlow = .ok f := by
    intro row hm
    obtain ⟨_, -, flow, now, -, hholds⟩ := run.rows_uploaded row hm
    obtain ⟨f, hf, -⟩ := hholds.graph
    exact ⟨f, hf⟩
  constructor
  · intro hin row hm
    rw [Database.flowWithId_str hin]
    exact FlowTable.get_succeeds hreads run.wellFormed hm
  · intro id f hread
    obtain ⟨row, hm, hf⟩ := Database.flowWithId_eq_ok hread
    obtain ⟨request, hmem, flow, now, huploads, hholds⟩ := run.rows_uploaded row hm
    obtain ⟨f', hf', hblocks, hentry⟩ := hholds.graph
    obtain rfl : f' = f := Except.ok.inj (hf'.symm.trans hf)
    refine ⟨request, hmem, flow, huploads, hblocks, hentry, fun hjoined => ?_⟩
    rw [FlowTable.map_reread_of_joined hjoined] at hblocks
    refine ⟨hblocks, ?_, ?_⟩
    · rw [hblocks, hentry, accepts_filled, huploads.2.stored_iff, List.forall_mem_map]
    · intro hfinite
      rw [hblocks, hentry, accepts_filled, Block.map_stored_eq_self hfinite]
      exact huploads.2

def pauseUpload (seconds : String) : Request where
  method := .post
  path := "/api/call-flows/"
  headers := [("Content-Type", "application/json")]
  body := ["\x7b\"id\": \"f\", \"owner\": \"ann\", \"phone_number\": \"1\", \"blocks\": [",
    "\x7b\"id\": \"wait\", \"type\": \"pause\", \"config\": \x7b\"seconds\": ", seconds, "\x7d\x7d]\x7d"].flatMap
    fun piece => Text.bytesOf piece.toList

theorem Served.flows_valid_pause :
    let db := (respond {} {} "t0" (pauseUpload "2")).2
    Served [pauseUpload "2"] db ∧
      ∃ f, db.flowWithId (.str "f") = .ok (some f) ∧ Validation.Accepts f.blocks f.entryBlockId := by
  intro db
  have run : Served [pauseUpload "2"] db := .answer (.start rfl) {} "t0" (pauseUpload "2")
  have hchecked : (db.flowWithId (.str "f")).toOption.any (Option.any fun f =>
      f.blocks.all fun b => decide ((Validation.checkConfig b).toOption = some [])) = true := by decide +kernel
  obtain ⟨f, hread, hsettings⟩ := Outcome.exists_of_any hchecked
  have hsent : (readUpload (pauseUpload "2")).outcome.toOption.any (fun sent =>
      sent.2.toFlow.toOption.any fun flow => flow.document.isJoined) = true := by decide +kernel
  obtain ⟨request, hmem, flow, ⟨⟨replace, upload, hupload, hflow⟩, -⟩, -, -, hvalid⟩ := run.flows_valid.2 "f" f hread
  rw [← List.mem_singleton.mp hmem, hupload] at hsent
  have hjoined : flow.document.isJoined = true := by simpa [Reading.outcome, Except.toOption, hflow] using hsent
  obtain ⟨-, hvalid, -⟩ := hvalid hjoined
  refine ⟨run, f, hread, hvalid.mpr fun b hb => ?_⟩
  exact Outcome.eq_ok_of_toOption (of_decide_eq_true (List.all_eq_true.mp hsettings b hb))

/-- A pause without end is accepted, but it is stored as one of no length, and a validation refuses that. -/
theorem Served.endless_pause_invalid :
    let db := (respond {} {} "t0" (pauseUpload "Infinity")).2
    Served [pauseUpload "Infinity"] db ∧
      ∃ f, db.flowWithId (.str "f") = .ok (some f) ∧ ¬ Validation.Accepts f.blocks f.entryBlockId := by
  intro db
  have run : Served [pauseUpload "Infinity"] db := .answer (.start rfl) {} "t0" (pauseUpload "Infinity")
  have hrefused : (db.flowWithId (.str "f")).toOption.any (Option.any fun f =>
      !decide (Validation.Accepts f.blocks f.entryBlockId)) = true := by decide +kernel
  obtain ⟨f, hread, hinvalid⟩ := Outcome.exists_of_any hrefused
  exact ⟨run, f, hread, by simpa using hinvalid⟩

end Service
end Switchboard
