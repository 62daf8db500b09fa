import Switchboard.Proofs.Editor.Course

/-! # What a clean editor shows

An editor without unsaved edits shows its current flow as it is stored: the blocks, the entry, the settings for
recording and, up to blanks around it, the name. It shows the number of the flow too, as long as the numbers that it is
given while it is clean have this number: if they do not, another number is selected, and the editor stays clean.
-/
namespace Switchboard
open Store

namespace Store

namespace FlowTable

def Named (table : FlowTable) : Prop := ∀ row ∈ table, Text.trim row.name = row.name

theorem Named.save {table table' : FlowTable} {flow saved : CallFlow} {replace : Bool} {now : Text} {supply : Supply}
    (h : table.Named) (hname : Text.trim flow.name = flow.name)
    (hsave : (save table flow replace now supply).1 = .ok (saved, table')) : table'.Named := by
  have hentry : Text.trim (entry table flow now supply).name = (entry table flow now supply).name := by
    simp only [entry, FlowRow.ofFlow]
    split
    · decide +kernel
    · exact hname
  refine forall_mem_upsert ?_ hentry (fun _ _ _ => hentry) (save_eq_ok hsave).1
  intro row hm
  exact h row ((vacated_sublist table flow).mem hm)

theorem Named.load {table : FlowTable} {flow : CallFlow} {owner number : Text} (h : table.Named)
    (hload : load table owner number = .ok (some flow)) : Text.trim flow.name = flow.name := by
  unfold FlowTable.load at hload
  cases hrow : rowFor? table owner (PhoneNumber.normalize number) with
  | none =>
    rw [hrow] at hload
    obtain ⟨_, -, hload⟩ := Outcome.bind_eq_ok.mp hload
    cases hload
  | some row =>
    rw [hrow] at hload
    obtain ⟨_, -, hload⟩ := Outcome.bind_eq_ok.mp hload
    obtain ⟨_, hflow, hload⟩ := Outcome.map_eq_ok.mp ((Option.mapM_some ..).symm.trans hload)
    cases hload
    obtain ⟨stored, -, hflow⟩ := Outcome.bind_eq_ok.mp hflow
    cases hflow
    dsimp only
    split
    · decide +kernel
    · exact h row (List.mem_of_find?_eq_some hrow)

end FlowTable

namespace Database

variable {db : Database}

theorem named_of_flowOf {owner number : Value} {flow : CallFlow} (h : db.flows.Named)
    (hload : db.flowOf owner number = .ok (some flow)) : Text.trim flow.name = flow.name := by
  obtain ⟨numberText, -, hload⟩ := Outcome.bind_eq_ok.mp hload
  obtain ⟨table, htable, hload⟩ := Outcome.bind_eq_ok.mp hload
  obtain ⟨ownerText, -, hload⟩ := Outcome.bind_eq_ok.mp hload
  split at hload
  · exact (flows?_eq_ok htable ▸ h).load hload
  · cases hload

end Database
end Store

namespace EditorState

variable {s t : EditorState} {e : Edit} {f : CallFlow}

/-- Whether what an editor shows is a flow, up to its number and to blanks around its name. -/
structure Mirrors (s : EditorState) (f : CallFlow) : Prop where
  blocks : s.blocks = f.blocks
  entry : s.entryBlockId = f.entryBlockId
  recorded : s.recordingEnabled = .bool f.recordingEnabled
  disclaimer : s.recordingDisclaimer = .ofText? f.recordingDisclaimer
  name : ∃ name, s.flowName = .str name ∧ Text.trim name = Text.trim f.name

def ShowsFlow (s : EditorState) : Prop :=
  s.dirty = false → ∀ f, s.currentFlow = some f → s.Mirrors f

def ShowsNumber (s : EditorState) : Prop :=
  s.dirty = false → ∀ f, s.currentFlow = some f → s.selectedNumber = some f.phoneNumber

def NamesFlow (s : EditorState) : Prop :=
  ∀ f, s.currentFlow = some f → Text.trim f.name = f.name

/-- Whether a transition leaves a clean editor the number of its flow. -/
def KeepsNumber (s : EditorState) : EditorCommand → Prop
  | .setNumbers numbers =>
    s.dirty = false → ∀ f, s.currentFlow = some f → f.phoneNumber ∈ ownedNumbers numbers
  | _ => True

/-- What a step makes of what is shown of the current flow: it stays, or it becomes unsaved, or there is no current
flow any more. -/
inductive Reshows (s t : EditorState) : Prop where
  | same (dirty : t.dirty = s.dirty) (flow : t.currentFlow = s.currentFlow) (name : t.flowName = s.flowName)
      (number : t.selectedNumber = s.selectedNumber) (blocks : t.blocks = s.blocks)
      (entry : t.entryBlockId = s.entryBlockId) (recorded : t.recordingEnabled = s.recordingEnabled)
      (disclaimer : t.recordingDisclaimer = s.recordingDisclaimer)
  | unsaved (dirty : t.dirty = true) (flow : t.currentFlow = s.currentFlow)
  | cleared (flow : t.currentFlow = none)

theorem Reshows.refl (s : EditorState) : Reshows s s := .same rfl rfl rfl rfl rfl rfl rfl rfl

theorem Reworks.reshows (h : s.Reworks t) : Reshows s t := by
  cases h with
  | points selectedBlockId connectingFrom connectionMode => exact .same rfl rfl rfl rfl rfl rfl rfl rfl
  | edits blocks entryBlockId selectedBlockId connectingFrom connectionMode => exact .unsaved rfl rfl

theorem Reshows.unlessSaving (h : Reshows s e.state) : Reshows s (s.unlessSaving e).state := by
  rcases unlessSaving_cases s e with hsame | hsame
  · rw [hsame]
    exact .refl s
  · rwa [hsame]

theorem Reshows.showsFlow (h : Reshows s t) (hs : s.ShowsFlow) : t.ShowsFlow := by
  intro hclean f hflow
  cases h with
  | same dirty flow name number blocks entry recorded disclaimer =>
    obtain ⟨hblocks, hentry, hrecorded, hdisclaimer, hname⟩ := hs (dirty ▸ hclean) f (flow ▸ hflow)
    exact ⟨blocks ▸ hblocks, entry ▸ hentry, recorded ▸ hrecorded, disclaimer ▸ hdisclaimer, name ▸ hname⟩
  | unsaved dirty flow =>
    rw [dirty] at hclean
    cases hclean
  | cleared flow =>
    rw [flow] at hflow
    cases hflow

theorem Reshows.showsNumber (h : Reshows s t) (hs : s.ShowsNumber) : t.ShowsNumber := by
  intro hclean f hflow
  cases h with
  | same dirty flow name number blocks entry recorded disclaimer =>
    rw [number]
    exact hs (dirty ▸ hclean) f (flow ▸ hflow)
  | unsaved dirty flow =>
    rw [dirty] at hclean
    cases hclean
  | cleared flow =>
    rw [flow] at hflow
    cases hflow

theorem Reshows.namesFlow (h : Reshows s t) (hs : s.NamesFlow) : t.NamesFlow := by
  intro f hflow
  cases h with
  | same dirty flow name number blocks entry recorded disclaimer => exact hs f (flow ▸ hflow)
  | unsaved dirty flow => exact hs f (flow ▸ hflow)
  | cleared flow =>
    rw [flow] at hflow
    cases hflow

theorem selectNumber_reshows {number : Value} (he : s.selectNumber number = .ok e) : Reshows s e.state := by
  rcases selectNumber_eq_ok he with rfl | ⟨selectedNumber, rfl⟩
  · exact .refl s
  · exact .unsaved rfl rfl

/-- A transition keeps what is shown, or makes it unsaved, or leaves no current flow; but for the two that say what
numbers there are, and what flow is edited. -/
theorem perform_reshows {c : EditorCommand} (he : s.perform c = .ok e) :
    Reshows s e.state ∨ (∃ numbers, c = .setNumbers numbers) ∨ ∃ flow, c = .loadFlow flow := by
  cases c with
  | setNumbers numbers => exact Or.inr (Or.inl ⟨numbers, rfl⟩)
  | loadFlow flow => exact Or.inr (Or.inr ⟨flow, rfl⟩)
  | startEditing =>
    cases he
    exact Or.inl (.same rfl rfl rfl rfl rfl rfl rfl rfl)
  | setFlowName name | setRecording enabled disclaimer =>
    cases he
    exact Or.inl (Reshows.unlessSaving (.unsaved rfl rfl))
  | selectNumber number => exact Or.inl (selectNumber_reshows he)
  | setBlocks blocks =>
    cases he
    exact Or.inl (setBlocks_reworks s blocks).reshows
  | addBlock b => exact Or.inl (addBlock_reworks he).reshows
  | updateBlock id updates => exact Or.inl (updateBlock_reworks he).reshows
  | deleteBlock id => exact Or.inl (deleteBlock_reworks he).reshows
  | selectBlock id => exact Or.inl (selectBlock_reworks he).reshows
  | beginConnection id => exact Or.inl (beginConnection_reworks he).reshows
  | cancelConnection =>
    cases he
    exact Or.inl (Reworks.points _ _ _).reshows
  | connectBlocks source target digit => exact Or.inl (connectBlocks_reworks he).reshows
  | disconnectBlocks source target => exact Or.inl (disconnectBlocks_reworks he).reshows
  | reset =>
    cases he
    exact Or.inl (.cleared rfl)

theorem setNumbers_selects {number : Text} (h : s.selectedNumber = some number) (numbers : List NumberOption) :
    (s.setNumbers numbers).state.selectedNumber = some number ↔ number ∈ ownedNumbers numbers := by
  have hselected : (s.setNumbers numbers).state.selectedNumber =
      (s.selectedNumber.filter (ownedNumbers numbers).contains).or (ownedNumbers numbers).head? := rfl
  rw [hselected, h]
  by_cases howned : number ∈ ownedNumbers numbers
  · simp [howned, Option.filter_some]
  · simp only [Option.filter_some, List.contains_eq_mem, howned, decide_false, Bool.false_eq_true, if_false,
      Option.none_or, iff_false]
    exact fun hhead => howned (List.mem_of_head? hhead)

section
variable {allowed : EditorState → EditorCommand → Prop} {known : CallFlow → Prop}

/-- What only depends on what is shown is upheld if it stands the steps by which this is shown anew. -/
theorem Upheld.of_reshows {P : EditorState → Prop} (hstep : ∀ {s t : EditorState}, Reshows s t → P s → P t)
    (hnumbers : ∀ {s : EditorState} {numbers : List NumberOption}, P s → allowed s (.setNumbers numbers) →
      P (s.setNumbers numbers).state)
    (hload : ∀ {s : EditorState} {flow : CallFlow}, known flow ∨ allowed s (.loadFlow flow) →
      P (s.loadFlow flow).state)
    (hsettle : ∀ {s : EditorState} {saved : CallFlow}, s.StoredAs saved → P (s.settled saved)) :
    Upheld allowed known P where
  edit {s c e} hs hc he := by
    rcases perform_reshows he with h | ⟨numbers, rfl⟩ | ⟨flow, rfl⟩
    · exact hstep h hs
    · cases he
      exact hnumbers hs hc
    · cases he
      exact hload (Or.inr hc)
  frame {s} _ _ _ hs := hstep (s := s) (.same rfl rfl rfl rfl rfl rfl rfl rfl) hs
  select hs he := hstep (selectNumber_reshows he) hs
  load _ hknown := hload (Or.inl hknown)
  forget {s} id hs := by
    refine hstep (s := s) ?_ hs
    unfold EditorState.forget
    split
    · exact .cleared rfl
    · exact .refl s
  settle _ hstored := hsettle hstored

theorem showsFlow_upheld : Upheld allowed (fun _ => True) ShowsFlow := by
  refine .of_reshows Reshows.showsFlow ?_ ?_ ?_
  · intro s numbers hs _ hclean f hflow
    obtain ⟨hblocks, hentry, hrecorded, hdisclaimer, hname⟩ := hs hclean f hflow
    exact ⟨hblocks, hentry, hrecorded, hdisclaimer, hname⟩
  · intro s flow _ _ f hflow
    cases hflow
    exact ⟨rfl, rfl, rfl, rfl, flow.name, rfl, rfl⟩
  · intro s saved hstored _ f hflow
    cases hflow
    obtain ⟨name, hname, hsaved⟩ := hstored.name
    refine ⟨rfl, rfl, rfl, hstored.disclaimer, name, hname, ?_⟩
    rw [hsaved, Text.trim_trim]

theorem showsNumber_upheld (hkeeps : ∀ t c, allowed t c → t.KeepsNumber c) :
    Upheld allowed (fun _ => True) ShowsNumber := by
  refine .of_reshows Reshows.showsNumber ?_ ?_ ?_
  · intro s numbers hs hc hclean f hflow
    exact (setNumbers_selects (hs hclean f hflow) numbers).mpr (hkeeps s _ hc hclean f hflow)
  · intro s flow _ _ f hflow
    cases hflow
    rfl
  · intro s saved _ _ f hflow
    cases hflow
    rfl

theorem namesFlow_upheld (hload : ∀ t flow, allowed t (.loadFlow flow) → Text.trim flow.name = flow.name) :
    Upheld allowed (fun flow => Text.trim flow.name = flow.name) NamesFlow := by
  refine .of_reshows Reshows.namesFlow ?_ ?_ ?_
  · intro s numbers hs _ f hflow
    exact hs f hflow
  · rintro s flow (hknown | hallowed) f hflow
    · cases hflow
      exact hknown
    · cases hflow
      exact hload s flow hallowed
  · intro s saved hstored f hflow
    cases hflow
    obtain ⟨name, -, hsaved⟩ := hstored.name
    rw [hsaved, Text.trim_trim]

end
end EditorState

namespace Session

variable {s after : Session} {owner number recording : Value} {replace : Bool} {now : Text} {outage : Outage}
  {db db' : Database}

theorem store_named {editor sending : EditorState} {request : SaveRequest} {answer : Outcome CallFlow}
    (h : db.flows.Named) (hsent : editor.sendSave owner number recording replace = .ok (.ok (request, sending)))
    (hstore : store db request.record replace now outage = (answer, db')) : db'.flows.Named := by
  cases answer with
  | error fault =>
    rw [store_eq_error hstore]
    exact h
  | ok saved =>
    obtain ⟨-, htitle, -⟩ := EditorState.texts_of_sendSave hsent
    obtain ⟨name, -, hname⟩ := EditorState.title_eq_ok htitle
    obtain ⟨flows, hsave, rfl, -⟩ := Database.saveFlow_eq_ok (store_eq_ok hstore)
    exact h.save (by rw [hname, Text.trim_trim]) hsave

theorem openNumber_database {e : Edit} (h : s.openNumber owner number outage = .ok (e, after)) :
    after.database = s.database := by
  obtain ⟨selected, -, h⟩ := Outcome.bind_eq_ok.mp h
  split at h
  · obtain ⟨_, -, h⟩ := Outcome.bind_eq_ok.mp h
    cases h
    rfl
  · cases h
    rfl

theorem deleteFlow_named (h : s.database.flows.Named) (id owner : Value) :
    (s.deleteFlow id owner outage).2.database.flows.Named := by
  unfold deleteFlow
  split
  · exact h
  · exact h
  · rename_i database hremoved
    have hsublist : database.flows.Sublist s.database.flows :=
      Database.removeFlow_sublist (Outage.eq_ok_of_orElse hremoved)
    exact fun row hm => h row (hsublist.mem hm)

theorem saveFlow_named {outcome : SaveOutcome} (h : s.database.flows.Named)
    (hsaved : s.saveFlow owner number recording replace now outage = .ok (outcome, after)) :
    after.database.flows.Named := by
  obtain ⟨sent, hsent, hsaved⟩ := Outcome.bind_eq_ok.mp hsaved
  cases sent with
  | error error =>
    cases hsaved
    exact h
  | ok sent =>
    obtain ⟨request, sending⟩ := sent
    cases hstore : store s.database request.record replace now outage with
    | mk answer database =>
      have hnamed := store_named h hsent hstore
      simp only [hstore] at hsaved
      cases answer <;> cases hsaved <;> exact hnamed

theorem perform_named {c : SessionCommand} {answer : SessionAnswer} (h : s.database.flows.Named)
    (hc : s.perform now outage c = .ok (answer, after)) : after.database.flows.Named := by
  cases c with
  | edit c =>
    obtain ⟨e, -, hc⟩ := Outcome.bind_eq_ok.mp hc
    cases hc
    exact h
  | checkSave number replace =>
    obtain ⟨error, -, hc⟩ := Outcome.bind_eq_ok.mp hc
    cases hc
    exact h
  | loadFlows owner =>
    cases hc
    exact h
  | openNumber owner number =>
    obtain ⟨⟨e, s'⟩, hopened, hc⟩ := Outcome.bind_eq_ok.mp hc
    cases hc
    rw [openNumber_database hopened]
    exact h
  | saveFlow owner number recording replace =>
    obtain ⟨⟨outcome, s'⟩, hsaved, hc⟩ := Outcome.bind_eq_ok.mp hc
    cases hc
    exact saveFlow_named h hsaved
  | deleteFlow id owner =>
    cases hc
    exact deleteFlow_named h _ _

namespace Course

variable {allowed : EditorState → EditorCommand → Prop} {pending : List Pending} {f : CallFlow}

theorem named (hdb : db.flows.Named) (run : Course allowed db s pending) : s.database.flows.Named := by
  induction run with
  | start => exact hdb
  | perform before admitted performed ih => exact perform_named ih performed
  | send before sent ih => exact ih
  | answer before stored ih =>
    obtain ⟨_, _, _, _, _, -, hsent⟩ := before.sent _ (List.mem_append_right _ List.mem_cons_self)
    exact store_named ih hsent stored

/-- In the course of every session, an editor without unsaved edits shows its current flow as it is stored, up to blanks
around the name; these are not there unless the database had them before or a flow that has them is handed in. The
number is the one exception: numbers that are given to a clean editor and do not have the number of its flow make it
select another one, and it stays clean. As long as none are given, the number is shown too. -/
theorem clean_shows_flow (run : Course allowed db s pending) (hclean : s.editor.dirty = false)
    (hflow : s.editor.currentFlow = some f) :
    s.editor.Mirrors f ∧
    ((∀ t c, allowed t c → t.KeepsNumber c) → s.editor.selectedNumber = some f.phoneNumber) ∧
    (db.flows.Named → (∀ t flow, allowed t (.loadFlow flow) → Text.trim flow.name = flow.name) →
      Text.trim f.name = f.name) ∧
    ∀ numbers, (s.editor.setNumbers numbers).state.dirty = false ∧
      (s.editor.setNumbers numbers).state.currentFlow = some f ∧
      (s.editor.selectedNumber = some f.phoneNumber →
        ((s.editor.setNumbers numbers).state.selectedNumber = some f.phoneNumber ↔
          s.editor.KeepsNumber (.setNumbers numbers))) := by
  refine ⟨?_, ?_, ?_, ?_⟩
  · have hshows := (run.upholds EditorState.showsFlow_upheld ?_ ?_).1
    · exact hshows hclean f hflow
    · intro _ f hf
      cases hf
    · exact fun _ _ _ _ _ => trivial
  · intro hkeeps
    have hshows := (run.upholds (EditorState.showsNumber_upheld hkeeps) ?_ ?_).1
    · exact hshows hclean f hflow
    · intro _ f hf
      cases hf
    · exact fun _ _ _ _ _ => trivial
  · intro hdb hload
    refine (run.upholds (EditorState.namesFlow_upheld hload) ?_ ?_).1 f hflow
    · intro f hf
      cases hf
    · exact fun before owner number flow hread => Database.named_of_flowOf (before.named hdb) hread
  · intro numbers
    refine ⟨hclean, hflow, fun hnumber => ?_⟩
    rw [EditorState.setNumbers_selects hnumber]
    constructor
    · intro howned _ g hg
      rw [hflow, Option.some.injEq] at hg
      exact hg ▸ howned
    · exact fun hkeeps => hkeeps hclean f hflow

def opening : Session :=
  (({ database := Database.withOneFlow } : Session).openNumber (.str "ann") (.str "+15550001111") {}).toOption.elim {}
    Prod.snd

theorem course_opening : Course allowed Database.withOneFlow opening [] := by
  have hopen : ({ database := Database.withOneFlow } : Session).perform "t1" {} (.openNumber "ann" "+15550001111") =
      .ok (.edited _, opening) := rfl
  exact .perform .start (fun e he => by cases he) hopen

theorem clean_shows_flow_opened : ∃ f, opening.editor.dirty = false ∧ opening.editor.currentFlow = some f ∧
    f.phoneNumber = "+15550001111" ∧ opening.editor.Mirrors f ∧
    opening.editor.selectedNumber = some f.phoneNumber ∧ Text.trim f.name = f.name := by
  have hclean : opening.editor.dirty = false := by decide +kernel
  have hnumber : opening.editor.currentFlow.map CallFlow.phoneNumber = some ("+15550001111" : Text) := by decide +kernel
  have hnamed : Database.withOneFlow.flows.Named := by
    unfold FlowTable.Named
    decide +kernel
  obtain ⟨f, hflow, hf⟩ := Option.map_eq_some_iff.mp hnumber
  let allowed : EditorState → EditorCommand → Prop := fun t c => t.KeepsNumber c ∧ ∀ flow, c ≠ .loadFlow flow
  have run : Course allowed Database.withOneFlow opening [] := course_opening
  obtain ⟨hmirrors, hselected, htrim, -⟩ := clean_shows_flow run hclean hflow
  refine ⟨f, hclean, hflow, hf, hmirrors, hselected fun t c hc => hc.1, htrim hnamed ?_⟩
  exact fun t flow hc => absurd rfl (hc.2 flow)

/-- A clean editor with the flow of one number has another number selected. -/
theorem clean_hides_number : ∃ s, Course (fun _ _ => True) Database.withOneFlow s [] ∧
    s.editor.dirty = false ∧ s.editor.currentFlow.map CallFlow.phoneNumber = some ("+15550001111" : Text) ∧
    s.editor.selectedNumber = some ("+15550002222" : Text) := by
  have hnumbers : opening.perform "t2" {} (.edit (.setNumbers [{ phoneNumber := "+15550002222" }])) =
      .ok (.edited _, _) := rfl
  refine ⟨_, .perform course_opening (fun _ _ => trivial) hnumbers, ?_, ?_, ?_⟩ <;> decide +kernel

end Course
end Session
end Switchboard
