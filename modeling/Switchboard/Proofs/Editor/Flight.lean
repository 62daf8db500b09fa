import Switchboard.Proofs.Editor.Course

/-! # What is done while a save is in flight

Between the sending of a save and its answer the editor refuses to edit the flow, but it takes new numbers, another
selection, the beginning and the end of a connection, lists and removals of flows. The answer is built on the state
that was sent: it undoes all of this, and it leaves what a save does not concern exactly where that is as it was when
the save was sent.
-/
namespace Switchboard
open Store

namespace EditorState

def draft (s : EditorState) : List Block × Option Text × Value × Value × Value :=
  (s.blocks, s.entryBlockId, s.flowName, s.recordingEnabled, s.recordingDisclaimer)

/-- What a save does not concern, the list of flows apart. -/
def aside (s : EditorState) : List NumberOption × Option Text × Option Text × Bool × Value × Value :=
  (s.numbers, s.selectedBlockId, s.connectingFrom, s.connectionMode, s.flowName, s.recordingDisclaimer)

/-- A state in which the flow is as it was, but that may no longer be saving. -/
def SameDraft (s t : EditorState) : Prop :=
  t.status = .saving → s.status = .saving ∧ t.draft = s.draft

variable {s t : EditorState}

theorem SameDraft.keepError {e : Edit} (h : s.SameDraft e.state) : s.SameDraft (EditorState.keepError e).state := by
  unfold EditorState.keepError
  split <;> exact h

theorem SameDraft.receiveFlows (h : s.SameDraft t) (answer : Outcome (List CallFlow)) :
    s.SameDraft (t.receiveFlows answer).2 := by
  cases answer <;> exact h

theorem selectBlock_draft {id : Value} {e : Edit} (he : s.selectBlock id = .ok e) : s.SameDraft e.state := by
  obtain ⟨selected, hselected⟩ := selectBlock_eq_ok he
  rw [hselected]
  exact fun h => ⟨h, rfl⟩

theorem beginConnection_draft {id : Value} {e : Edit} (he : s.beginConnection id = .ok e) : s.SameDraft e.state := by
  rcases beginConnection_eq_ok he with hsame | ⟨b, -, hbegun⟩
  · rw [hsame]
    exact fun h => ⟨h, rfl⟩
  · rw [hbegun]
    exact fun h => ⟨h, rfl⟩

theorem forget_draft (s : EditorState) (id : Value) : s.SameDraft (s.forget id) := by
  unfold forget
  split <;> exact fun h => ⟨h, rfl⟩

end EditorState

def SessionCommand.isTaken : SessionCommand → Bool
  | .edit (.setNumbers _) | .edit (.selectBlock _) | .edit (.beginConnection _) | .edit .cancelConnection
  | .edit .reset | .loadFlows _ | .deleteFlow .. => true
  | _ => false

/-- Whether a command is one of a session: flows that are stored are only loaded by opening their number, and editing
has started with the session. -/
def SessionCommand.isOffered : SessionCommand → Bool
  | .edit .startEditing | .edit (.loadFlow _) => false
  | _ => true

namespace Session

variable {sent s mid after : Session} {owner number recording : Value} {replace : Bool} {now : Text} {outage : Outage}
  {request : SaveRequest} {sending : EditorState} {c : SessionCommand} {answer : SessionAnswer}

/-- The sessions that come of one in which a save has been sent, by commands that are taken in flight and, while the
editor is saving, by any others. -/
inductive Flight (sent : Session) : Session → Prop
  | begun : Flight sent sent
  | perform {s after : Session} {now : Text} {outage : Outage} {c : SessionCommand} {answer : SessionAnswer}
      (before : Flight sent s) (admitted : c.isTaken = true ∨ s.editor.status = .saving ∧ c.isOffered = true)
      (performed : s.perform now outage c = .ok (answer, after)) : Flight sent after

theorem perform_taken (taken : c.isTaken = true) (h : s.perform now outage c = .ok (answer, after)) :
    s.editor.SameDraft after.editor := by
  have hsame : s.editor.SameDraft s.editor := fun hsaving => ⟨hsaving, rfl⟩
  cases c with
  | edit c =>
    obtain ⟨e, he, h⟩ := Outcome.bind_eq_ok.mp h
    cases h
    refine EditorState.SameDraft.keepError ?_
    cases c with
    | setNumbers numbers =>
      cases he
      exact hsame
    | selectBlock id => exact EditorState.selectBlock_draft he
    | beginConnection id => exact EditorState.beginConnection_draft he
    | cancelConnection =>
      cases he
      exact hsame
    | reset =>
      cases he
      exact fun hsaving => by cases hsaving
    | _ => cases taken
  | loadFlows owner =>
    cases h
    exact hsame.receiveFlows _
  | deleteFlow id owner =>
    cases h
    split
    · exact hsame
    · exact hsame
    · exact (EditorState.forget_draft _ _).receiveFlows _
  | _ => cases taken

/-- A command that is not taken is refused while a save is in flight: nothing changes but the error that is told. -/
theorem perform_refused (hsaving : s.editor.status = .saving) (offered : c.isOffered = true) (refused : c.isTaken = false)
    (h : s.perform now outage c = .ok (answer, after)) :
    ∃ error, after = { s with editor := { s.editor with lastError := error } } := by
  have hbusy (e : Edit) : s.editor.unlessSaving e = { state := s.editor, error := some EditorState.busy } :=
    if_pos hsaving
  have hbusy? (x : Outcome Edit) :
      s.editor.unlessSaving? x = .ok { state := s.editor, error := some EditorState.busy } := if_pos hsaving
  cases c with
  | edit c =>
    obtain ⟨e, he, h⟩ := Outcome.bind_eq_ok.mp h
    cases h
    have hrefused : s.editor.perform c = .ok { state := s.editor, error := some EditorState.busy } := by
      cases c with
      | startEditing | loadFlow => cases offered
      | setFlowName | setRecording | setBlocks => exact congrArg Except.ok (hbusy _)
      | selectNumber | addBlock | updateBlock | deleteBlock | connectBlocks | disconnectBlocks => exact hbusy? _
      | _ => cases refused
    rw [hrefused] at he
    cases he
    exact ⟨some EditorState.busy, rfl⟩
  | checkSave number replace =>
    obtain ⟨error, -, h⟩ := Outcome.bind_eq_ok.mp h
    cases h
    exact ⟨s.editor.lastError, rfl⟩
  | openNumber owner number =>
    have hselect : s.editor.selectNumber (.str number) = .ok { state := s.editor, error := some EditorState.busy } :=
      hbusy? _
    rw [perform, openNumber, hselect] at h
    cases h
    exact ⟨some EditorState.busy, rfl⟩
  | saveFlow owner number recording replace =>
    obtain ⟨⟨outcome, s'⟩, hsaved, h⟩ := Outcome.bind_eq_ok.mp h
    cases h
    rw [saveFlow, EditorState.sendSave, EditorState.checkSave, if_pos hsaving] at hsaved
    cases hsaved
    exact ⟨some EditorState.busy, rfl⟩
  | _ => cases refused

theorem perform_draft (admitted : c.isTaken = true ∨ s.editor.status = .saving ∧ c.isOffered = true)
    (h : s.perform now outage c = .ok (answer, after)) : s.editor.SameDraft after.editor := by
  cases htaken : c.isTaken with
  | true => exact perform_taken htaken h
  | false =>
    obtain ⟨hsaving, offered⟩ := admitted.resolve_left (by simp [htaken])
    obtain ⟨error, rfl⟩ := perform_refused hsaving offered htaken h
    exact fun hsaving => ⟨hsaving, rfl⟩

theorem Flight.draft (flight : Flight sent mid) : sent.editor.SameDraft mid.editor := by
  induction flight with
  | begun => exact fun hsaving => ⟨hsaving, rfl⟩
  | perform before admitted performed ih =>
    intro hsaving
    obtain ⟨hbefore, hsame⟩ := perform_draft admitted performed hsaving
    exact ⟨(ih hbefore).1, hsame.trans (ih hbefore).2⟩

def finish (s : Session) (request : SaveRequest) (owner : Value) (replace : Bool) (now : Text) (outage : Outage) :
    SaveOutcome × Session :=
  let (answer, database) := store s.database request.record replace now outage
  let after : Session := { editor := request.stateAfter answer, database }
  match answer with
  | .ok _ => (request.outcome answer, (after.loadFlows owner outage).2)
  | .error _ => (request.outcome answer, after)

theorem saveFlow_eq_finish (hsent : s.editor.sendSave owner number recording replace = .ok (.ok (request, sending))) :
    s.saveFlow owner number recording replace now outage =
      .ok (finish { s with editor := sending } request owner replace now outage) := by
  rw [saveFlow, hsent]
  simp only [bind, Except.bind, finish]
  cases store s.database request.record replace now outage with
  | mk answer database => cases answer <;> rfl

/-- Whatever has been done since a save was sent, its answer leaves what was there when it was sent; if the save has
succeeded, the flows are listed again. -/
theorem finish_aside (mid : Session) (request : SaveRequest) (owner : Value) (replace : Bool) (now : Text)
    (outage : Outage) :
    let (outcome, after) := mid.finish request owner replace now outage
    after.editor.aside = request.snapshot.aside ∧
    (outcome.ok = false → after.editor.flows = request.snapshot.flows) ∧
    (outcome.ok = true → ∀ flows, Outage.orElse outage.list (after.database.flowsOf owner) = .ok flows →
      after.editor.flows = flows) := by
  unfold finish
  cases store mid.database request.record replace now outage with
  | mk answer database =>
    cases answer with
    | error fault => exact ⟨rfl, fun _ => rfl, (by cases ·)⟩
    | ok saved =>
      simp only [loadFlows]
      cases Outage.orElse outage.list (database.flowsOf owner) with
      | error fault => exact ⟨rfl, (by cases ·), fun _ flows hflows => by cases hflows⟩
      | ok flows => exact ⟨rfl, (by cases ·), fun _ flows' hflows => Except.ok.inj hflows⟩

/-- While a save is in flight the flow is not edited, unless the editor is emptied. The answer leaves what a save does
not concern as it finds it exactly when that is as it was when the save was sent; and so with the list of flows, which
is made anew when the save succeeds. -/
theorem Flight.answered (hsent : s.editor.sendSave owner number recording replace = .ok (.ok (request, sending)))
    (flight : Flight { s with editor := sending } mid) (now : Text) (outage : Outage) :
    let (outcome, after) := mid.finish request owner replace now outage
    (mid.editor.status = .saving → mid.editor.draft = s.editor.draft) ∧
    (after.editor.aside = mid.editor.aside ↔ mid.editor.aside = s.editor.aside) ∧
    (outcome.ok = false → (after.editor.flows = mid.editor.flows ↔ mid.editor.flows = s.editor.flows)) ∧
    (outcome.ok = true → ∀ flows, Outage.orElse outage.list (after.database.flowsOf owner) = .ok flows →
      after.editor.flows = flows) := by
  obtain ⟨hsnapshot, -, -⟩ := EditorState.sendSave_eq_ok hsent
  obtain ⟨haside, hflows, hlisted⟩ := finish_aside mid request owner replace now outage
  rw [hsnapshot] at haside hflows
  have hdraft : mid.editor.status = .saving → mid.editor.draft = s.editor.draft := by
    intro hsaving
    obtain ⟨-, -, rfl⟩ := EditorState.sendSave_cases hsent
    exact (flight.draft hsaving).2
  refine ⟨hdraft, ?_, ?_, hlisted⟩
  · rw [haside, eq_comm]
  · intro hfails
    rw [hflows hfails, eq_comm]

def greetingAfter (sending : EditorState) (c : EditorCommand) : Outcome Session := do
  let (_, after) ← ({ greeting with editor := sending } : Session).perform "t0" {} (.edit c)
  return after

theorem exists_greetingAfter {c : EditorCommand} {p : SaveRequest → Session → Bool}
    (h : (greeting.editor.sendSave (.str "ann") (.str "+15550001111") .null false).toOption.any (fun sent =>
      sent.toOption.any fun (request, sending) => (greetingAfter sending c).toOption.any (p request)) = true) :
    ∃ request sending mid,
      greeting.editor.sendSave (.str "ann") (.str "+15550001111") .null false = .ok (.ok (request, sending)) ∧
      greetingAfter sending c = .ok mid ∧ p request mid = true := by
  obtain ⟨sent, hsent, h⟩ := (Option.any_eq_true _ _).mp h
  cases sent with
  | error error => cases h
  | ok sent =>
    obtain ⟨request, sending⟩ := sent
    obtain ⟨mid, hmid, h⟩ := (Option.any_eq_true (p request) (greetingAfter sending c).toOption).mp h
    exact ⟨request, sending, mid, Outcome.eq_ok_of_toOption hsent, Outcome.eq_ok_of_toOption hmid, h⟩

theorem Flight.of_greetingAfter {c : EditorCommand} (taken : (SessionCommand.edit c).isTaken = true)
    (h : greetingAfter sending c = .ok mid) : Flight { greeting with editor := sending } mid := by
  obtain ⟨⟨_, after⟩, hperformed, h⟩ := Outcome.bind_eq_ok.mp h
  rw [← Outcome.pure_eq_ok.mp h]
  exact .perform .begun (Or.inl taken) hperformed

theorem Flight.answered_cancelled : ∃ request sending mid,
    greeting.editor.sendSave (.str "ann") (.str "+15550001111") .null false = .ok (.ok (request, sending)) ∧
    greetingAfter sending .cancelConnection = .ok mid ∧
    (mid.finish request (.str "ann") false "t0" {}).2.editor.aside = mid.editor.aside := by
  obtain ⟨request, sending, mid, hsent, hmid, -⟩ := exists_greetingAfter
    (c := .cancelConnection) (p := fun _ _ => true) (by decide +kernel)
  have hsame : mid.editor.aside = greeting.editor.aside := by
    obtain ⟨-, -, rfl⟩ := EditorState.sendSave_cases hsent
    cases hmid
    rfl
  obtain ⟨-, hkept, -, -⟩ := Flight.answered hsent (Flight.of_greetingAfter rfl hmid) "t0" {}
  exact ⟨request, sending, mid, hsent, hmid, hkept.mpr hsame⟩

/-- Numbers that become known while a save is in flight are lost with the answer. -/
theorem Flight.numbers_lost : ∃ request sending mid,
    greeting.editor.sendSave (.str "ann") (.str "+15550001111") .null false = .ok (.ok (request, sending)) ∧
    greetingAfter sending (.setNumbers [{ phoneNumber := "+15550001111" }]) = .ok mid ∧
    mid.editor.numbers = [{ phoneNumber := "+15550001111" }] ∧
    (mid.finish request (.str "ann") false "t0" {}).1.ok = true ∧
    (mid.finish request (.str "ann") false "t0" {}).2.editor.numbers = [] := by
  obtain ⟨request, sending, mid, hsent, hmid, h⟩ := exists_greetingAfter
    (c := .setNumbers [{ phoneNumber := "+15550001111" }])
    (p := fun request mid => decide (mid.editor.numbers = [{ phoneNumber := "+15550001111" }]) &&
      (mid.finish request (.str "ann") false "t0" {}).1.ok &&
      (mid.finish request (.str "ann") false "t0" {}).2.editor.numbers.isEmpty) (by decide +kernel)
  simp only [Bool.and_eq_true, decide_eq_true_eq, List.isEmpty_iff] at h
  obtain ⟨⟨hnumbers, hok⟩, hlost⟩ := h
  exact ⟨request, sending, mid, hsent, hmid, hnumbers, hok, hlost⟩

end Session
end Switchboard
