import Switchboard.Proofs.Editor.Course
import Switchboard.Proofs.Editor.SoundGraph
import Switchboard.Proofs.Flow.Checkable

/-! # What the editor always answers

Whatever is done in the editor is answered, and what is wrong is told in the answer, as long as the options that it
looks at can be read and a place that it looks for is found; a save and its check look at all the settings that a
validation looks at. No failure of the database gets through.
-/
namespace Switchboard

namespace Edge

variable {K : Type} {b : Block K}

theorem add_succeeds (h : b.hasReadableOptions = true) (target : Text) (digit : Option Text) :
    ∃ b', add b target digit = .ok b' := by
  by_cases htype : b.type = .menu
  · have hoptions : Block.optionsReadable b.config = true := by simpa [Block.hasReadableOptions, htype] using h
    obtain ⟨options, hoptions⟩ := Block.menuOptions_succeeds_iff.mpr hoptions
    exact ⟨_, by rw [add, if_pos htype, hoptions]; rfl⟩
  · exact ⟨_, by rw [add, if_neg htype]; rfl⟩

theorem addAt_succeeds (h : b.hasReadableOptions = true) (target : Text) (digit : Option Text) :
    ∃ b', addAt b target (.ofText? digit) = .ok b' := by
  rw [addAt_ofText?]
  exact add_succeeds h target digit

theorem strip_succeeds (h : b.hasReadableOptions = true) (gone : Value) : ∃ b', strip b gone = .ok b' := by
  have hconfig : ∃ config, stripOptions b gone = .ok config := by
    unfold stripOptions
    split
    · rename_i hmenu
      have hoptions : Block.optionsReadable b.config = true := by simpa [Block.hasReadableOptions, hmenu.1] using h
      obtain ⟨options, hoptions⟩ := Block.menuOptions_succeeds_iff.mpr hoptions
      rw [hoptions]
      exact ⟨_, rfl⟩
    · exact ⟨_, rfl⟩
  obtain ⟨config, hconfig⟩ := hconfig
  rw [strip, hconfig]
  exact ⟨_, rfl⟩

theorem changeAt_succeeds {blocks : List (Block K)} {id : Text} {change : Block K → Outcome (Block K)}
    (h : ∀ b ∈ blocks, b.id = id → ∃ b', change b = .ok b') : ∃ blocks', changeAt blocks id change = .ok blocks' := by
  refine Outcome.mapM_succeeds fun b hb => ?_
  split
  · rename_i hid
    exact h b hb hid
  · exact ⟨b, rfl⟩

end Edge

namespace EditorState

variable {s : EditorState}

/-- The blocks whose options a command looks at. -/
def readBy (s : EditorState) : EditorCommand → List Block
  | .addBlock _ => s.blocks.filter fun b => some b.id == s.connectingFrom
  | .deleteBlock id => s.blocks.filter fun b => b.id != id
  | .connectBlocks source _ _ => s.blocks.filter fun b => b.id == source
  | .disconnectBlocks source _ => s.blocks.filter fun b => b.id == source
  | _ => []

/-- Whether the search for a place ends, if a command begins one. -/
def FindsPlace (s : EditorState) : EditorCommand → Prop
  | .addBlock _ => ¬ s.Crowded
  | _ => True

structure IsTyped (s : EditorState) : Prop where
  name : ∃ name, s.flowName = .str name
  recording : ∃ recording, s.recordingEnabled = .bool recording
  disclaimer : ∃ disclaimer, s.recordingDisclaimer = .ofText? disclaimer

theorem isTyped_of_read {v : Value} (h : EditorState.read v = .done s) : s.IsTyped := by
  cases v with
  | obj entries =>
    -- the fields are read in order, so the last one is taken off first
    replace h : readEntries entries = .done s := h
    obtain ⟨_, _, hdirty, -, rfl⟩ := Reading.seq_eq_done.mp h
    obtain ⟨_, _, hdisclaimed, -, rfl⟩ := Reading.seq_eq_done.mp hdirty
    obtain ⟨_, _, hrecorded, hdisclaimer, rfl⟩ := Reading.seq_eq_done.mp hdisclaimed
    obtain ⟨_, _, hcurrent, hrecording, rfl⟩ := Reading.seq_eq_done.mp hrecorded
    obtain ⟨_, _, hflows, -, rfl⟩ := Reading.seq_eq_done.mp hcurrent
    obtain ⟨_, _, hmode, -, rfl⟩ := Reading.seq_eq_done.mp hflows
    obtain ⟨_, _, hconnecting, -, rfl⟩ := Reading.seq_eq_done.mp hmode
    obtain ⟨_, _, hselected, -, rfl⟩ := Reading.seq_eq_done.mp hconnecting
    obtain ⟨_, _, hentry, -, rfl⟩ := Reading.seq_eq_done.mp hselected
    obtain ⟨_, _, hblocks, -, rfl⟩ := Reading.seq_eq_done.mp hentry
    obtain ⟨_, _, hnumbers, -, rfl⟩ := Reading.seq_eq_done.mp hblocks
    obtain ⟨_, _, hnumber, -, rfl⟩ := Reading.seq_eq_done.mp hnumbers
    obtain ⟨_, _, hname, -, rfl⟩ := Reading.seq_eq_done.mp hnumber
    obtain ⟨_, _, hstatus, htitle, rfl⟩ := Reading.seq_eq_done.mp hname
    obtain ⟨_, -, rfl⟩ := Reading.map_eq_done.mp hstatus
    obtain ⟨title, -, rfl⟩ := Reading.map_eq_done.mp htitle
    obtain ⟨recording, -, rfl⟩ := Reading.map_eq_done.mp hrecording
    obtain ⟨disclaimer, -, rfl⟩ := Reading.map_eq_done.mp hdisclaimer
    exact ⟨⟨title, rfl⟩, ⟨recording, rfl⟩, ⟨disclaimer, rfl⟩⟩
  | _ => cases h

theorem withEdge_succeeds {source : Block}
    (h : ∀ b ∈ s.blocks, b.id = source.id → b.hasReadableOptions = true) (target : Text)
    (digit : Option Text) : ∃ e, s.withEdge source target (.ofText? digit) = .ok e := by
  unfold withEdge
  split
  · exact ⟨_, rfl⟩
  · obtain ⟨blocks, hblocks⟩ := Edge.changeAt_succeeds fun b hb hid => Edge.addAt_succeeds (h b hb hid) target digit
    rw [hblocks]
    exact ⟨_, rfl⟩

theorem connectBlocks_succeeds {source : Text} (h : ∀ b ∈ s.blocks, b.id = source → b.hasReadableOptions = true)
    (target : Text) (digit : Option Text) :
    ∃ e, s.connectBlocks (.str source) (.str target) (.ofText? digit) = .ok e := by
  refine unlessSaving?_succeeds ?_
  rw [blockAt?_str, blockAt?_str]
  cases hb : s.block? source with
  | none => exact notFound_str_succeeds s source
  | some b =>
    cases s.block? target with
    | none => exact notFound_str_succeeds s target
    | some t =>
      refine withEdge_succeeds ?_ t.id _
      rw [(block?_eq_some hb).2]
      exact h

theorem disconnectBlocks_succeeds {source : Text}
    (h : ∀ b ∈ s.blocks, b.id = source → b.hasReadableOptions = true) (target : Value) :
    ∃ e, s.disconnectBlocks (.str source) target = .ok e := by
  refine unlessSaving?_succeeds ?_
  rw [blockAt?_str]
  cases hb : s.block? source with
  | none => exact ⟨_, rfl⟩
  | some b =>
    obtain ⟨hmem, hid⟩ := block?_eq_some hb
    obtain ⟨edges, hedges⟩ := Block.edges_succeeds_iff.mpr (h b hmem hid)
    obtain ⟨blocks, hblocks⟩ := Edge.changeAt_succeeds fun b hb hid => Edge.strip_succeeds (h b hb hid) target
    simp only [hedges, hid, bind, Except.bind]
    split
    · rw [hblocks]
      exact ⟨_, rfl⟩
    · exact ⟨_, rfl⟩

theorem deleteBlock_succeeds {id : Text} (h : ∀ b ∈ s.blocks, b.id ≠ id → b.hasReadableOptions = true) :
    ∃ e, s.deleteBlock (.str id) = .ok e := by
  refine unlessSaving?_succeeds ?_
  rw [blockAt?_str]
  cases hb : s.block? id with
  | none => exact ⟨_, rfl⟩
  | some b =>
    have hstrip : ∀ b ∈ s.blocks.filter fun b => b.id != id, ∃ b', Edge.strip b (.str id) = .ok b' := by
      intro b hb
      obtain ⟨hmem, hne⟩ := List.mem_filter.mp hb
      exact Edge.strip_succeeds (h b hmem (bne_iff_ne.mp hne)) _
    obtain ⟨blocks, hblocks⟩ := Outcome.mapM_succeeds hstrip
    dsimp only
    rw [(block?_eq_some hb).2, withoutBlock, hblocks]
    exact ⟨_, rfl⟩

theorem addBlock_succeeds (h : ∀ b ∈ s.blocks, some b.id = s.connectingFrom → b.hasReadableOptions = true)
    (hplace : ¬ s.Crowded) (b : Block) : ∃ e, s.addBlock b = .ok e := by
  refine unlessSaving?_succeeds ?_
  split
  · exact ⟨_, rfl⟩
  · cases hsource : s.source? with
    | none =>
      rw [placeBlock, hsource]
      exact ⟨_, rfl⟩
    | some source =>
      obtain ⟨place, hfound⟩ : ∃ place, Layout.positionBelow source s.blocks = some place := by
        refine Option.ne_none_iff_exists'.mp fun hnone => hplace ?_
        exact ⟨source, hsource, Layout.positionBelow_eq_none_iff.mp hnone⟩
      obtain ⟨begun, hbegun, hblock⟩ := Option.bind_eq_some_iff.mp hsource
      have hid : some source.id = s.connectingFrom := by
        rw [(Option.filter_eq_some_iff.mp hbegun).1, (block?_eq_some hblock).2]
      have hadd : ∀ old ∈ s.blocks, old.id = source.id → ∃ old', Edge.add old b.id none = .ok old' :=
        fun old hold hsame => Edge.add_succeeds (h old hold (hsame ▸ hid)) b.id none
      obtain ⟨blocks, hblocks⟩ := Edge.changeAt_succeeds hadd
      rw [placeBlock_of_place hsource hfound, hblocks]
      exact ⟨_, rfl⟩

theorem normalizeValue?_ofText?_succeeds (number : Option Text) :
    ∃ normal, PhoneNumber.normalizeValue? (.ofText? number) = some normal := by
  cases number <;> exact ⟨_, rfl⟩

theorem selectNumber_succeeds (s : EditorState) (number : Option Text) :
    ∃ e, s.selectNumber (.ofText? number) = .ok e := by
  refine unlessSaving?_succeeds ?_
  obtain ⟨normal, hnormal⟩ := normalizeValue?_ofText?_succeeds number
  rw [hnormal]
  exact ⟨_, rfl⟩

theorem selectBlock_succeeds (s : EditorState) (id : Option Text) : ∃ e, s.selectBlock (.ofText? id) = .ok e := by
  cases id with
  | none => exact ⟨_, rfl⟩
  | some id =>
    rw [Value.ofText?, selectBlock, blockAt?_str, if_neg (by simp [Value.isNull])]
    cases s.block? id with
    | none => exact notFound_str_succeeds s id
    | some b => exact ⟨_, rfl⟩

theorem beginConnection_succeeds (s : EditorState) (id : Text) : ∃ e, s.beginConnection (.str id) = .ok e := by
  rw [beginConnection, blockAt?_str]
  cases s.block? id with
  | none => exact notFound_str_succeeds s id
  | some b => exact ⟨_, rfl⟩

theorem perform_succeeds {c : EditorCommand} (h : ∀ b ∈ s.readBy c, b.hasReadableOptions = true)
    (hplace : s.FindsPlace c) : ∃ e, s.perform c = .ok e := by
  cases c with
  | addBlock b =>
    refine addBlock_succeeds (fun old hold hid => h old ?_) hplace b
    exact List.mem_filter.mpr ⟨hold, beq_iff_eq.mpr hid⟩
  | deleteBlock id =>
    refine deleteBlock_succeeds fun b hb hne => h b ?_
    exact List.mem_filter.mpr ⟨hb, bne_iff_ne.mpr hne⟩
  | connectBlocks source target digit =>
    refine connectBlocks_succeeds (fun b hb hid => h b ?_) _ _
    exact List.mem_filter.mpr ⟨hb, beq_iff_eq.mpr hid⟩
  | disconnectBlocks source target =>
    refine disconnectBlocks_succeeds (fun b hb hid => h b ?_) _
    exact List.mem_filter.mpr ⟨hb, beq_iff_eq.mpr hid⟩
  | updateBlock id updates =>
    refine unlessSaving?_succeeds ?_
    rw [blockAt?_str]
    cases s.block? id with
    | none => exact notFound_str_succeeds s id
    | some b => exact ⟨_, rfl⟩
  | selectNumber number => exact selectNumber_succeeds s number
  | selectBlock id => exact selectBlock_succeeds s id
  | beginConnection id => exact beginConnection_succeeds s id
  | _ => exact ⟨_, rfl⟩

def SameSettings (s t : EditorState) : Prop :=
  t.flowName = s.flowName ∧ t.recordingEnabled = s.recordingEnabled ∧ t.recordingDisclaimer = s.recordingDisclaimer

theorem IsTyped.of_same {t : EditorState} (h : s.IsTyped) (hsame : s.SameSettings t) : t.IsTyped := by
  obtain ⟨hname, hrecording, hdisclaimer⟩ := hsame
  exact ⟨hname ▸ h.name, hrecording ▸ h.recording, hdisclaimer ▸ h.disclaimer⟩

theorem Reworks.sameSettings {t : EditorState} (h : s.Reworks t) : s.SameSettings t := by
  cases h <;> exact ⟨rfl, rfl, rfl⟩

theorem IsTyped.unlessSaving {e : Edit} (h : s.IsTyped) (he : e.state.IsTyped) : (s.unlessSaving e).state.IsTyped := by
  rcases unlessSaving_cases s e with hsame | hsame
  · rwa [hsame]
  · rwa [hsame]

theorem IsTyped.selectNumber (h : s.IsTyped) {number : Value} {e : Edit} (he : s.selectNumber number = .ok e) :
    e.state.IsTyped := by
  rcases selectNumber_eq_ok he with rfl | ⟨selectedNumber, rfl⟩
  · exact h
  · exact h.of_same ⟨rfl, rfl, rfl⟩

theorem setRecording_typed (h : s.IsTyped) (enabled : Bool) (disclaimer : Option Text) :
    (s.setRecording (.bool enabled) (.ofText? disclaimer)).state.IsTyped := by
  refine h.unlessSaving ⟨h.name, ⟨enabled, rfl⟩, ?_⟩
  cases disclaimer with
  | none => exact h.disclaimer
  | some disclaimer => exact ⟨some disclaimer, rfl⟩

theorem loadFlow_typed (s : EditorState) (flow : CallFlow) : (s.loadFlow flow).state.IsTyped :=
  ⟨⟨flow.name, rfl⟩, ⟨flow.recordingEnabled, rfl⟩, ⟨flow.recordingDisclaimer, rfl⟩⟩

theorem IsTyped.perform (h : s.IsTyped) {c : EditorCommand} {e : Edit} (he : s.perform c = .ok e) :
    e.state.IsTyped := by
  cases c with
  | startEditing | setNumbers numbers | cancelConnection =>
    cases he
    exact h.of_same ⟨rfl, rfl, rfl⟩
  | setFlowName name =>
    cases he
    exact h.unlessSaving ⟨⟨name, rfl⟩, h.recording, h.disclaimer⟩
  | selectNumber number => exact h.selectNumber he
  | setRecording enabled disclaimer =>
    cases he
    exact setRecording_typed h enabled disclaimer
  | setBlocks blocks =>
    cases he
    exact h.of_same (setBlocks_reworks s blocks).sameSettings
  | addBlock b => exact h.of_same (addBlock_reworks he).sameSettings
  | updateBlock id updates => exact h.of_same (updateBlock_reworks he).sameSettings
  | deleteBlock id => exact h.of_same (deleteBlock_reworks he).sameSettings
  | selectBlock id => exact h.of_same (selectBlock_reworks he).sameSettings
  | beginConnection id => exact h.of_same (beginConnection_reworks he).sameSettings
  | connectBlocks source target digit => exact h.of_same (connectBlocks_reworks he).sameSettings
  | disconnectBlocks source target => exact h.of_same (disconnectBlocks_reworks he).sameSettings
  | loadFlow flow =>
    cases he
    exact loadFlow_typed s flow
  | reset =>
    cases he
    exact ⟨⟨"", rfl⟩, ⟨true, rfl⟩, ⟨none, rfl⟩⟩

theorem isTyped_upheld : Upheld (fun _ _ => True) (fun _ => True) IsTyped where
  edit h _ he := h.perform he
  frame _ _ _ h := h.of_same ⟨rfl, rfl, rfl⟩
  select h he := h.selectNumber he
  load _ _ := loadFlow_typed _ _
  forget id h := by
    unfold forget
    split
    · exact h.of_same ⟨rfl, rfl, rfl⟩
    · exact h
  settle {_ saved} h _ := ⟨h.name, ⟨saved.recordingEnabled, rfl⟩, h.disclaimer⟩

theorem title_of_isTyped (h : s.IsTyped) : ∃ title, s.title = .ok title := by
  obtain ⟨name, hname⟩ := h.name
  rw [title, hname]
  exact ⟨_, rfl⟩

theorem numberToSave_succeeds (s : EditorState) (number : Option Text) :
    ∃ chosen, s.numberToSave (.ofText? number) = .ok chosen := by
  have hgiven : (Value.ofText? number).orElse (.ofText? s.selectedNumber) = .ofText? number ∨
      (Value.ofText? number).orElse (.ofText? s.selectedNumber) = .ofText? s.selectedNumber := by
    unfold Value.orElse
    split
    · exact Or.inl rfl
    · exact Or.inr rfl
  obtain ⟨text, htext⟩ : ∃ text, (Value.ofText? number).orElse (.ofText? s.selectedNumber) = .ofText? text :=
    hgiven.elim (fun h => ⟨number, h⟩) fun h => ⟨s.selectedNumber, h⟩
  obtain ⟨normal, hnormal⟩ := normalizeValue?_ofText?_succeeds text
  rw [numberToSave, htext, hnormal]
  exact ⟨_, rfl⟩

theorem checkSave_succeeds (h : s.IsTyped) (hcheck : ∀ b ∈ Graph.distinct s.blocks, b.isCheckable = true)
    (number : Option Text) (replace : Bool) : ∃ error, s.checkSave (.ofText? number) replace = .ok error := by
  obtain ⟨title, htitle⟩ := title_of_isTyped h
  obtain ⟨chosen, hchosen⟩ := numberToSave_succeeds s number
  obtain ⟨report, hreport⟩ : ∃ report, Validation.validate s.blocks s.entryBlockId = .ok report :=
    Validation.validate_succeeds_iff.mpr hcheck
  have hnumber (number : Text) : ∃ error, s.checkNumber number replace = .ok error := by
    unfold checkNumber
    split
    · exact ⟨_, rfl⟩
    · split
      · exact ⟨_, rfl⟩
      · split
        · exact ⟨_, rfl⟩
        · simp only [hreport, bind, Except.bind]
          split <;> exact ⟨_, rfl⟩
  unfold checkSave
  split
  · exact ⟨_, rfl⟩
  · simp only [htitle, bind, Except.bind]
    split
    · exact ⟨_, rfl⟩
    · simp only [hchosen]
      split
      · exact ⟨_, rfl⟩
      · exact hnumber _

theorem number_of_checkSave {number : Value} {replace : Bool} (h : s.checkSave number replace = .ok none) :
    ∃ n, s.numberToSave number = .ok (some n) := by
  unfold checkSave at h
  split at h
  · cases h
  · obtain ⟨title, -, h⟩ := Outcome.bind_eq_ok.mp h
    split at h
    · cases h
    · obtain ⟨chosen, hchosen, h⟩ := Outcome.bind_eq_ok.mp h
      split at h
      · cases h
      · rename_i n hn
        exact ⟨n, hchosen.trans (congrArg Except.ok (Option.filter_eq_some_iff.mp hn).1)⟩

theorem record_succeeds (h : s.IsTyped) (owner number : Text) (recording : Bool) :
    ∃ flow, s.record (.str owner) (.str number) (.bool recording) = .ok flow := by
  obtain ⟨title, htitle⟩ := title_of_isTyped h
  obtain ⟨disclaimer, hdisclaimer⟩ := h.disclaimer
  let given : Entries := [("owner", .str owner), ("phone_number", .str number), ("recording_enabled", .bool recording),
    ("recording_disclaimer", s.recordingDisclaimer)]
  have howner : Reading.field given "owner" Reading.text = .done owner := rfl
  have hnumber : Reading.field given "phone_number" CallFlow.readNumber = .done (PhoneNumber.normalize number) := rfl
  have hrecording : Reading.field given "recording_enabled" Reading.bool = .done recording := rfl
  have hread : Reading.nullable Reading.text s.recordingDisclaimer = .done disclaimer := by
    rw [hdisclaimer]
    cases disclaimer <;> rfl
  have hdisclaimer : Reading.field given "recording_disclaimer" (Reading.nullable Reading.text) = .done disclaimer :=
    congrArg (Reading.under (.field "recording_disclaimer")) hread
  rw [record, htitle]
  refine ⟨s.asFlow title owner (PhoneNumber.normalize number) recording disclaimer, ?_⟩
  change (s.asFlow title <$> Reading.field given "owner" Reading.text
    <*> Reading.field given "phone_number" CallFlow.readNumber
    <*> Reading.field given "recording_enabled" Reading.bool
    <*> Reading.field given "recording_disclaimer" (Reading.nullable Reading.text)).outcome = _
  rw [howner, hnumber, hrecording, hdisclaimer]
  rfl

theorem sendSave_succeeds (h : s.IsTyped) (hcheck : ∀ b ∈ Graph.distinct s.blocks, b.isCheckable = true)
    (owner : Text) (number : Option Text) (recording : Option Bool) (replace : Bool) :
    ∃ sent, s.sendSave (.str owner) (.ofText? number) ((recording.map Value.bool).getD .null) replace = .ok sent := by
  obtain ⟨error, herror⟩ := checkSave_succeeds h hcheck number replace
  rw [sendSave, herror]
  cases error with
  | some error => exact ⟨_, rfl⟩
  | none =>
    obtain ⟨n, hn⟩ := number_of_checkSave herror
    obtain ⟨kept, hkept⟩ := h.recording
    have hrecording : ∃ recorded, (if ((recording.map Value.bool).getD .null).isNull then s.recordingEnabled
        else (recording.map Value.bool).getD .null) = .bool recorded := by
      cases recording with
      | none => exact ⟨kept, hkept⟩
      | some recorded => exact ⟨recorded, rfl⟩
    obtain ⟨recorded, hrecorded⟩ := hrecording
    obtain ⟨flow, hflow⟩ : ∃ flow, s.record (.str owner) (.ofText? (some n)) (.bool recorded) = .ok flow :=
      record_succeeds h owner n recorded
    obtain ⟨report, hreport⟩ : ∃ report, Validation.validate s.blocks s.entryBlockId = .ok report :=
      Validation.validate_succeeds_iff.mpr hcheck
    simp only [bind, Except.bind, hn, hrecorded, hflow, hreport]
    exact ⟨_, rfl⟩

end EditorState

namespace Session

open EditorState

variable {s : Session} {now : Text} {outage : Outage}

/-- The commands whose answers can be made: what they look at can be read, and what they look for is found. -/
def Answerable (s : Session) : SessionCommand → Prop
  | .edit c => (∀ b ∈ s.editor.readBy c, b.hasReadableOptions = true) ∧ s.editor.FindsPlace c
  | .checkSave _ _ | .saveFlow _ _ _ _ => ∀ b ∈ Graph.distinct s.editor.blocks, b.isCheckable = true
  | _ => True

inductive Reaches (s : Session) : Session → Prop where
  | start : Reaches s s
  | step {t after : Session} {now : Text} {outage : Outage} {c : SessionCommand} {answer : SessionAnswer}
    (before : Reaches s t) (performed : t.perform now outage c = .ok (answer, after)) : Reaches s after

theorem saveFlow_succeeds (h : s.editor.IsTyped)
    (hcheck : ∀ b ∈ Graph.distinct s.editor.blocks, b.isCheckable = true) (owner : Text)
    (number : Option Text) (recording : Option Bool) (replace : Bool) :
    ∃ saved, s.saveFlow (.str owner) (.ofText? number) ((recording.map Value.bool).getD .null) replace now outage =
      .ok saved := by
  obtain ⟨sent, hsent⟩ := sendSave_succeeds h hcheck owner number recording replace
  rw [saveFlow, hsent]
  cases sent with
  | error error => exact ⟨_, rfl⟩
  | ok sent =>
    obtain ⟨request, sending⟩ := sent
    simp only [bind, Except.bind]
    cases hstore : store s.database request.record replace now outage with
    | mk answer database => cases answer <;> exact ⟨_, rfl⟩

theorem openNumber_succeeds (s : Session) (owner number : Text) (outage : Outage) :
    ∃ opened, s.openNumber (.str owner) (.str number) outage = .ok opened := by
  obtain ⟨selected, hselected⟩ : ∃ selected, s.editor.selectNumber (.str number) = .ok selected :=
    selectNumber_succeeds s.editor (some number)
  obtain ⟨normal, hnormal⟩ : ∃ normal, PhoneNumber.normalizeValue? (.str number) = some normal := ⟨_, rfl⟩
  rw [openNumber, hselected, hnormal]
  by_cases hok : selected.ok = true
  · exact ⟨_, if_pos hok⟩
  · exact ⟨_, if_neg hok⟩

theorem perform_answers (h : s.editor.IsTyped) {c : SessionCommand} (hc : s.Answerable c) :
    ∃ answer after, s.perform now outage c = .ok (answer, after) := by
  cases c with
  | edit c =>
    obtain ⟨e, he⟩ := perform_succeeds hc.1 hc.2
    exact ⟨.edited e, s.apply e, Outcome.bind_eq_ok.mpr ⟨e, he, rfl⟩⟩
  | checkSave number replace =>
    obtain ⟨error, herror⟩ := checkSave_succeeds h hc number replace
    exact ⟨.checked error, s, Outcome.bind_eq_ok.mpr ⟨error, herror, rfl⟩⟩
  | loadFlows owner => exact ⟨_, _, rfl⟩
  | openNumber owner number =>
    obtain ⟨⟨e, after⟩, hopened⟩ := openNumber_succeeds s owner number outage
    exact ⟨.edited e, after, Outcome.bind_eq_ok.mpr ⟨(e, after), hopened, rfl⟩⟩
  | saveFlow owner number recording replace =>
    obtain ⟨⟨outcome, after⟩, hsaved⟩ := saveFlow_succeeds h hc owner number recording replace
    exact ⟨.saved outcome, after, Outcome.bind_eq_ok.mpr ⟨(outcome, after), hsaved, rfl⟩⟩
  | deleteFlow id owner => exact ⟨_, _, rfl⟩

theorem Reaches.typed {t : Session} (hrun : s.Reaches t) (h : s.editor.IsTyped) : t.editor.IsTyped := by
  induction hrun with
  | start => exact h
  | step before performed ih => exact isTyped_upheld.perform ih (fun _ _ => trivial) (fun _ _ _ _ => trivial) performed

/-- In a session whose editor is read from a value, whatever has been done before, a command is answered if the
options and the settings that it looks at can be read and the place that it looks for is found. Nothing else fails: most
commands look at none and for none, and what the database does when it fails becomes an answer. -/
theorem Reaches.answers {v : Value} {s t : Session} (hread : EditorState.read v = .done s.editor) (hrun : s.Reaches t)
    {c : SessionCommand} (hc : t.Answerable c) (now : Text) (outage : Outage) :
    ∃ answer after, t.perform now outage c = .ok (answer, after) :=
  perform_answers (hrun.typed (isTyped_of_read hread)) hc

theorem Reaches.answers_menu :
    let v : Value := .obj [("flow_name", .str "Desk"), ("blocks", .arr [
      .obj [("id", .str "main"), ("type", .str "menu"), ("next", .str "bye"), ("config", .obj [
        ("prompt", .str "Press 1"), ("timeout", .str "soon"), ("options", .obj [("1", .str "bye"), ("", .int 5)])])],
      .obj [("id", .str "bye"), ("type", .str "hangup"), ("config", .obj [("options", .int 5)])]])]
    ∃ e, EditorState.read v = .done e ∧ (∀ b ∈ Graph.distinct e.blocks, b.isCheckable = true) ∧
      (∀ b ∈ e.readBy (.deleteBlock "bye"), b.hasReadableOptions = true) ∧
      (∃ answer after, ({ editor := e } : Session).perform "t1" { save := some ("down" : Text) }
        (.saveFlow "ann" (some ("+15550001111" : Text)) none false) = .ok (answer, after)) ∧
      ∃ answer after, ({ editor := e } : Session).perform "t1" {} (.edit (.deleteBlock "bye")) =
        .ok (answer, after) := by
  intro v
  have hcheckable : ((EditorState.read v).result?.any fun e =>
      (Graph.distinct e.blocks).all Block.isCheckable && (e.readBy (.deleteBlock "bye")).all Block.hasReadableOptions) =
      true := by decide +kernel
  cases hread : EditorState.read v with
  | refused issues =>
    rw [hread] at hcheckable
    cases hcheckable
  | done e =>
    rw [hread] at hcheckable
    obtain ⟨hall, hread'⟩ := Bool.and_eq_true_iff.mp hcheckable
    have hcheck := List.all_eq_true.mp hall
    have hreadable := List.all_eq_true.mp hread'
    have hstart : ({ editor := e } : Session).Reaches { editor := e } := .start
    refine ⟨e, rfl, hcheck, hreadable, ?_, ?_⟩
    · exact Reaches.answers hread hstart (c := .saveFlow "ann" (some ("+15550001111" : Text)) none false) hcheck "t1" _
    · exact Reaches.answers hread hstart (c := .edit (.deleteBlock "bye")) ⟨hreadable, trivial⟩ "t1" _

/-- Options that are a number keep a menu from being disconnected, deleted from and checked. -/
theorem numbered_options_fail :
    let main : Block := {
      id := "main", type := .menu, position := ⟨.ofInt 0, .ofInt 0⟩, next := [], config := [("options", .int 5)] }
    let s : Session := { editor := { flowName := .str "Desk", blocks := [main] } }
    ∀ now outage answer, s.perform now outage (.edit (.disconnectBlocks "main" "bye")) ≠ .ok answer ∧
      s.perform now outage (.checkSave (some ("+15550001111" : Text)) false) ≠ .ok answer := by
  intro main s now outage answer
  have hedit : (s.editor.disconnectBlocks (.str "main") (.str "bye")).toOption.isNone = true := by decide +kernel
  have hcheck : (s.editor.checkSave (.str "+15550001111") false).toOption.isNone = true := by decide +kernel
  constructor
  · intro h
    obtain ⟨e, he, -⟩ := Outcome.bind_eq_ok.mp h
    rw [show s.editor.perform (.disconnectBlocks "main" "bye") = s.editor.disconnectBlocks (.str "main") (.str "bye")
      from rfl] at he
    rw [he] at hedit
    cases hedit
  · intro h
    obtain ⟨error, herror, -⟩ := Outcome.bind_eq_ok.mp h
    rw [show Value.ofText? (some ("+15550001111" : Text)) = .str "+15550001111" from rfl] at herror
    rw [herror] at hcheck
    cases hcheck

end Session
end Switchboard
