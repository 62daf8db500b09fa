import Switchboard.Proofs.Editor.Command
import Switchboard.Proofs.Editor.Reopening

/-! # The course of a session

A session begins with an empty editor and a database. Any command may be given in it, and while a save is under way
too: it is sent, other commands follow, and the answer is built on the state that was sent. What the empty editor
upholds and everything that is done to the editor keeps is upheld in the course of every session.
-/
namespace Switchboard
open Store

namespace EditorState

variable {s sending : EditorState} {owner number recording : Value} {replace : Bool} {flow saved : CallFlow}
  {request : SaveRequest} {db db' : Database} {now : Text} {outage : Outage}

/-- What a state and the flow that a save gives back for it have in common. -/
structure StoredAs (s : EditorState) (saved : CallFlow) : Prop where
  ids : saved.blocks.map Block.id = (s.blocks.map Block.id).map Text.joined
  name : ∃ name, s.flowName = .str name ∧ saved.name = Text.trim name
  disclaimer : s.recordingDisclaimer = .ofText? saved.recordingDisclaimer

theorem ofText?_of_nullable {v : Value} {text : Option Text}
    (h : Reading.nullable Reading.text v = .done text) : v = .ofText? text := by
  cases v with
  | null =>
    cases h
    rfl
  | str s =>
    cases h
    rfl
  | _ =>
    obtain ⟨_, h, -⟩ := Reading.map_eq_done.mp h
    cases h

theorem texts_of_record (h : s.record owner number recording = .ok flow) :
    s.title = .ok flow.name ∧ s.recordingDisclaimer = .ofText? flow.recordingDisclaimer := by
  obtain ⟨title, htitle, hread⟩ := Outcome.bind_eq_ok.mp h
  obtain ⟨_, disclaimer, hrecording, hdisclaimer, rfl⟩ := Reading.seq_eq_done.mp (Reading.outcome_eq_ok.mp hread)
  obtain ⟨_, _, hnumber, -, rfl⟩ := Reading.seq_eq_done.mp hrecording
  obtain ⟨_, _, howner, -, rfl⟩ := Reading.seq_eq_done.mp hnumber
  obtain ⟨_, -, rfl⟩ := Reading.map_eq_done.mp howner
  have hnullable : Reading.nullable Reading.text s.recordingDisclaimer = .done disclaimer := by
    change Reading.under _ (Reading.nullable Reading.text s.recordingDisclaimer) = _ at hdisclaimer
    cases hread : Reading.nullable Reading.text s.recordingDisclaimer with
    | done text =>
      rw [hread] at hdisclaimer
      exact hdisclaimer
    | refused issues =>
      rw [hread] at hdisclaimer
      cases hdisclaimer
  exact ⟨htitle, ofText?_of_nullable hnullable⟩

theorem sendSave_cases (h : s.sendSave owner number recording replace = .ok (.ok (request, sending))) :
    s.checkSave number replace = .ok none ∧
    (∃ chosen recording, s.numberToSave number = .ok chosen ∧
      s.record owner (.ofText? chosen) recording = .ok request.record) ∧
    sending = { s with status := .saving, lastError := none } := by
  obtain ⟨refusal, hcheck, h⟩ := Outcome.bind_eq_ok.mp h
  cases refusal with
  | some error => cases h
  | none =>
    obtain ⟨chosen, hchosen, h⟩ := Outcome.bind_eq_ok.mp h
    obtain ⟨record, hrecord, h⟩ := Outcome.bind_eq_ok.mp h
    obtain ⟨report, -, h⟩ := Outcome.bind_eq_ok.mp h
    cases h
    exact ⟨hcheck, ⟨chosen, _, hchosen, hrecord⟩, rfl⟩

theorem texts_of_sendSave (h : s.sendSave owner number recording replace = .ok (.ok (request, sending))) :
    request.record.name ≠ "" ∧ s.title = .ok request.record.name ∧
      s.recordingDisclaimer = .ofText? request.record.recordingDisclaimer := by
  obtain ⟨hcheck, ⟨_, _, -, hrecord⟩, -⟩ := sendSave_cases h
  obtain ⟨htitle, hdisclaimer⟩ := texts_of_record hrecord
  obtain ⟨⟨title, htitle', hne⟩, -⟩ := of_checkSave hcheck
  rw [htitle, Except.ok.injEq] at htitle'
  exact ⟨htitle' ▸ hne, htitle, hdisclaimer⟩

theorem title_eq_ok {title : Text} (h : s.title = .ok title) :
    ∃ name, s.flowName = .str name ∧ title = Text.trim name := by
  unfold EditorState.title at h
  split at h
  · rename_i name hname
    exact ⟨name, hname, (Except.ok.inj h).symm⟩
  · cases h

theorem storedAs_of_store (hsent : s.sendSave owner number recording replace = .ok (.ok (request, sending)))
    (hstore : Session.store db request.record replace now outage = (.ok saved, db')) : s.StoredAs saved := by
  obtain ⟨-, hblocks, -⟩ := sendSave_eq_ok hsent
  obtain ⟨hne, htitle, hdisclaimer⟩ := texts_of_sendSave hsent
  obtain ⟨flows, hsave, -, -⟩ := Database.saveFlow_eq_ok (Session.store_eq_ok hstore)
  obtain ⟨hsaved, -⟩ := FlowTable.blocks_of_save hsave
  obtain ⟨hname, hkept⟩ := FlowTable.texts_of_save hsave
  refine ⟨?_, ?_, hkept ▸ hdisclaimer⟩
  · rw [hsaved, hblocks, List.map_map, List.map_map]
    rfl
  · rw [hname, if_neg hne]
    exact title_eq_ok htitle

end EditorState

/-- A property of editors that everything in a session keeps. `allowed` says which transitions are made, and `known`
what is known of the flows that come from the database. -/
structure EditorState.Upheld (allowed : EditorState → EditorCommand → Prop) (known : CallFlow → Prop)
    (P : EditorState → Prop) : Prop where
  edit : ∀ {s : EditorState} {c : EditorCommand} {e : Edit}, P s → allowed s c → s.perform c = .ok e → P e.state
  frame : ∀ {s : EditorState} (status : EditorStatus) (flows : List CallFlow) (lastError : Option EditorError),
    P s → P { s with status, flows, lastError }
  select : ∀ {s : EditorState} {number : Value} {e : Edit}, P s → s.selectNumber number = .ok e → P e.state
  load : ∀ {s : EditorState} {flow : CallFlow}, P s → known flow → P (s.loadFlow flow).state
  forget : ∀ {s : EditorState} (id : Value), P s → P (s.forget id)
  settle : ∀ {s : EditorState} {saved : CallFlow}, P s → s.StoredAs saved → P (s.settled saved)

namespace EditorState.Upheld

variable {allowed : EditorState → EditorCommand → Prop} {known : CallFlow → Prop} {P : EditorState → Prop}
  {s after : Session} {owner number recording id : Value} {replace : Bool} {now : Text} {outage : Outage}
  {request : SaveRequest} {sending : EditorState} {outcome : SaveOutcome}

theorem withError (hP : Upheld allowed known P) {s : EditorState} (h : P s) (error : EditorError) :
    P (s.withError error) :=
  hP.frame s.status s.flows (some error) h

theorem keepError (hP : Upheld allowed known P) {e : Edit} (h : P e.state) : P (keepError e).state := by
  unfold EditorState.keepError
  split
  · exact hP.withError h _
  · exact h

/-- The answer to a save is built on the state that was sent. -/
theorem stateAfter (hP : Upheld allowed known P) {s : EditorState} {db db' : Database} {answer : Outcome CallFlow}
    (h : P s) (hsent : s.sendSave owner number recording replace = .ok (.ok (request, sending)))
    (hstore : Session.store db request.record replace now outage = (answer, db')) : P (request.stateAfter answer) := by
  obtain ⟨hsnapshot, -, -⟩ := sendSave_eq_ok hsent
  cases answer with
  | error fault =>
    rw [SaveRequest.stateAfter, hsnapshot]
    exact hP.withError h _
  | ok saved =>
    rw [SaveRequest.stateAfter, hsnapshot]
    exact hP.settle h (storedAs_of_store hsent hstore)

theorem loadFlows (hP : Upheld allowed known P) (h : P s.editor) (owner : Value) :
    P (s.loadFlows owner outage).2.editor := by
  unfold Session.loadFlows
  cases Outage.orElse outage.list (s.database.flowsOf owner) with
  | ok flows => exact hP.frame s.editor.status flows s.editor.lastError h
  | error fault => exact hP.withError h _

theorem receiveFlow (hP : Upheld allowed known P) {selected : Edit} (h : P selected.state)
    {answer : Outcome (Option CallFlow)} (hknown : ∀ flow, answer = .ok (some flow) → known flow) :
    P (receiveFlow selected answer).state := by
  cases answer with
  | ok flow =>
    cases flow with
    | some flow => exact hP.load h (hknown flow rfl)
    | none => exact h
  | error fault => exact hP.keepError h

theorem openNumber (hP : Upheld allowed known P) (h : P s.editor)
    (hknown : ∀ number flow, s.database.flowOf owner number = .ok (some flow) → known flow) {e : Edit}
    (hopened : s.openNumber owner number outage = .ok (e, after)) : P after.editor := by
  obtain ⟨selected, hselected, hopened⟩ := Outcome.bind_eq_ok.mp hopened
  have hselected : P selected.state := hP.select h hselected
  split at hopened
  · obtain ⟨normal, -, hopened⟩ := Outcome.bind_eq_ok.mp hopened
    cases hopened
    exact hP.receiveFlow hselected fun flow hload => hknown normal flow (Outage.eq_ok_of_orElse hload)
  · cases hopened
    exact hP.keepError hselected

theorem saveFlow (hP : Upheld allowed known P) (h : P s.editor)
    (hsaved : s.saveFlow owner number recording replace now outage = .ok (outcome, after)) : P after.editor := by
  obtain ⟨sent, hsent, hsaved⟩ := Outcome.bind_eq_ok.mp hsaved
  cases sent with
  | error error =>
    cases hsaved
    exact hP.withError h error
  | ok sent =>
    obtain ⟨request, sending⟩ := sent
    cases hstore : Session.store s.database request.record replace now outage with
    | mk answer database =>
      simp only [hstore] at hsaved
      have hafter := hP.stateAfter h hsent hstore
      cases answer with
      | error fault =>
        cases hsaved
        exact hafter
      | ok saved =>
        cases hsaved
        exact hP.loadFlows (s := { editor := _, database }) hafter owner

theorem deleteFlow (hP : Upheld allowed known P) (h : P s.editor) (id owner : Value) :
    P (s.deleteFlow id owner outage).2.editor := by
  unfold Session.deleteFlow
  split
  · exact hP.withError h _
  · exact h
  · rename_i database _
    exact hP.loadFlows (s := { editor := s.editor.forget id, database }) (hP.forget id h) owner

theorem perform (hP : Upheld allowed known P) {c : SessionCommand} {answer : SessionAnswer} (h : P s.editor)
    (hallowed : ∀ e, c = .edit e → allowed s.editor e)
    (hknown : ∀ owner number flow, s.database.flowOf owner number = .ok (some flow) → known flow)
    (hc : s.perform now outage c = .ok (answer, after)) : P after.editor := by
  cases c with
  | edit c =>
    obtain ⟨e, he, hc⟩ := Outcome.bind_eq_ok.mp hc
    cases hc
    exact hP.keepError (hP.edit h (hallowed c rfl) he)
  | checkSave number replace =>
    obtain ⟨error, -, hc⟩ := Outcome.bind_eq_ok.mp hc
    cases hc
    exact h
  | loadFlows owner =>
    cases hc
    exact hP.loadFlows h _
  | openNumber owner number =>
    obtain ⟨⟨e, s'⟩, hopened, hc⟩ := Outcome.bind_eq_ok.mp hc
    cases hc
    exact hP.openNumber h (hknown _) hopened
  | saveFlow owner number recording replace =>
    obtain ⟨⟨outcome, s'⟩, hsaved, hc⟩ := Outcome.bind_eq_ok.mp hc
    cases hc
    exact hP.saveFlow h hsaved
  | deleteFlow id owner =>
    cases hc
    exact hP.deleteFlow h _ _

end EditorState.Upheld

namespace Session

structure Pending where
  request : SaveRequest
  replace : Bool

/-- The course of a session that begins with an empty editor: what it comes to, and the saves that are under way.
Commands are carried out, and between the sending of a save and its answer there may be others. -/
inductive Course (allowed : EditorState → EditorCommand → Prop) (db : Database) : Session → List Pending → Prop where
  | start : Course allowed db { database := db } []
  | perform {s after : Session} {pending : List Pending} {now : Text} {outage : Outage} {c : SessionCommand}
      {answer : SessionAnswer} (before : Course allowed db s pending)
      (admitted : ∀ e, c = .edit e → allowed s.editor e)
      (performed : s.perform now outage c = .ok (answer, after)) : Course allowed db after pending
  | send {s : Session} {pending : List Pending} {owner number recording : Value} {replace : Bool}
      {request : SaveRequest} {sending : EditorState} (before : Course allowed db s pending)
      (sent : s.editor.sendSave owner number recording replace = .ok (.ok (request, sending))) :
      Course allowed db { s with editor := sending } (⟨request, replace⟩ :: pending)
  | answer {s : Session} {earlier later : List Pending} {p : Pending} {now : Text} {outage : Outage}
      {result : Outcome CallFlow} {database : Database} (before : Course allowed db s (earlier ++ p :: later))
      (stored : store s.database p.request.record p.replace now outage = (result, database)) :
      Course allowed db { editor := p.request.stateAfter result, database } (earlier ++ later)

namespace Course

variable {allowed : EditorState → EditorCommand → Prop} {known : CallFlow → Prop} {P : EditorState → Prop}
  {db : Database} {s : Session} {pending : List Pending}

def SentFrom (P : EditorState → Prop) (p : Pending) : Prop :=
  ∃ (s sending : EditorState) (owner number recording : Value), P s ∧
    s.sendSave owner number recording p.replace = .ok (.ok (p.request, sending))

/-- What the empty editor upholds is upheld in the course of every session. The states that have been sent are as
good as the present one, so that the answers keep it too. -/
theorem upholds (hP : EditorState.Upheld allowed known P) (hstart : P {})
    (hknown : ∀ {s pending}, Course allowed db s pending →
      ∀ owner number flow, s.database.flowOf owner number = .ok (some flow) → known flow)
    (run : Course allowed db s pending) : P s.editor ∧ ∀ p ∈ pending, SentFrom P p := by
  induction run with
  | start => exact ⟨hstart, fun p hp => absurd hp List.not_mem_nil⟩
  | perform before admitted performed ih =>
    exact ⟨hP.perform ih.1 admitted (hknown before) performed, ih.2⟩
  | @send s pending owner number recording replace request sending before sent ih =>
    obtain ⟨-, -, hsending⟩ := EditorState.sendSave_cases sent
    refine ⟨hsending ▸ hP.frame .saving s.editor.flows none ih.1, ?_⟩
    intro p hp
    rcases List.mem_cons.mp hp with rfl | hp
    · exact ⟨s.editor, sending, owner, number, recording, ih.1, sent⟩
    · exact ih.2 p hp
  | @answer s earlier later p now outage result database before stored ih =>
    obtain ⟨sent, sending, owner, number, recording, hsent, hrequest⟩ :=
      ih.2 p (List.mem_append_right _ List.mem_cons_self)
    refine ⟨hP.stateAfter hsent hrequest stored, ?_⟩
    intro p' hp'
    refine ih.2 p' ?_
    rcases List.mem_append.mp hp' with hp' | hp'
    · exact List.mem_append_left _ hp'
    · exact List.mem_append_right _ (List.mem_cons_of_mem _ hp')

theorem sent (run : Course allowed db s pending) : ∀ p ∈ pending, SentFrom (fun _ => True) p := by
  have hP : EditorState.Upheld allowed (fun _ => True) fun _ => True :=
    ⟨fun _ _ _ => trivial, fun _ _ _ _ => trivial, fun _ _ => trivial, fun _ _ => trivial, fun _ _ => trivial,
      fun _ _ => trivial⟩
  exact (run.upholds hP trivial fun _ _ _ _ _ => trivial).2

end Course
end Session
end Switchboard
