import Switchboard.Editor.Session
import Switchboard.Proofs.Outcome

/-! # What is done in the editor

The transitions of the editor with the arguments that they are made for, as one type, so that a statement can be about
all of them and about every sequence of them. A session adds the operations that go to the database. The transitions
that are about the blocks are told together: they leave the rest of the flow, and what they edit is unsaved.
-/
namespace Switchboard

/-- A transition of the editor and its arguments. -/
inductive EditorCommand where
  | startEditing
  | setFlowName (name : Text)
  | setNumbers (numbers : List NumberOption)
  | selectNumber (number : Option Text)
  | setRecording (enabled : Bool) (disclaimer : Option Text)
  | setBlocks (blocks : List Block)
  | addBlock (b : Block)
  | updateBlock (id : Text) (updates : Entries)
  | deleteBlock (id : Text)
  | selectBlock (id : Option Text)
  | beginConnection (id : Text)
  | cancelConnection
  | connectBlocks (source target : Text) (digit : Option Text)
  | disconnectBlocks (source target : Text)
  | loadFlow (flow : CallFlow)
  | reset

def EditorState.perform (s : EditorState) : EditorCommand → Outcome Edit
  | .startEditing => .ok s.startEditing
  | .setFlowName name => .ok (s.setFlowName (.str name))
  | .setNumbers numbers => .ok (s.setNumbers numbers)
  | .selectNumber number => s.selectNumber (.ofText? number)
  | .setRecording enabled disclaimer => .ok (s.setRecording (.bool enabled) (.ofText? disclaimer))
  | .setBlocks blocks => .ok (s.setBlocks blocks)
  | .addBlock b => s.addBlock b
  | .updateBlock id updates => s.updateBlock (.str id) (.obj updates)
  | .deleteBlock id => s.deleteBlock (.str id)
  | .selectBlock id => s.selectBlock (.ofText? id)
  | .beginConnection id => s.beginConnection (.str id)
  | .cancelConnection => .ok s.cancelConnection
  | .connectBlocks source target digit => s.connectBlocks (.str source) (.str target) (.ofText? digit)
  | .disconnectBlocks source target => s.disconnectBlocks (.str source) (.str target)
  | .loadFlow flow => .ok (s.loadFlow flow)
  | .reset => .ok s.reset

inductive SessionCommand where
  | edit (c : EditorCommand)
  | checkSave (number : Option Text) (replace : Bool)
  | loadFlows (owner : Text)
  | openNumber (owner number : Text)
  | saveFlow (owner : Text) (number : Option Text) (recordingEnabled : Option Bool) (replace : Bool)
  | deleteFlow (id owner : Text)

inductive SessionAnswer where
  | edited (e : Edit)
  | checked (error : Option EditorError)
  | saved (outcome : SaveOutcome)
  | done (ok : Bool)

def Session.perform (s : Session) (now : Text) (outage : Outage) : SessionCommand → Outcome (SessionAnswer × Session)
  | .edit c => do
    let e ← s.editor.perform c
    return (.edited e, s.apply e)
  | .checkSave number replace => do
    let error ← s.editor.checkSave (.ofText? number) replace
    return (.checked error, s)
  | .loadFlows owner =>
    let (ok, s) := s.loadFlows (.str owner) outage
    .ok (.done ok, s)
  | .openNumber owner number => do
    let (e, s) ← s.openNumber (.str owner) (.str number) outage
    return (.edited e, s)
  | .saveFlow owner number recordingEnabled replace => do
    let recordingEnabled := (recordingEnabled.map Value.bool).getD .null
    let (outcome, s) ← s.saveFlow (.str owner) (.ofText? number) recordingEnabled replace now outage
    return (.saved outcome, s)
  | .deleteFlow id owner =>
    let (ok, s) := s.deleteFlow (.str id) (.str owner) outage
    .ok (.done ok, s)

namespace EditorState

section
variable {K : Type} {s : EditorState K} {e : Edit K}

theorem blockAt?_str (s : EditorState K) (id : Text) : s.blockAt? (.str id) = s.block? id := rfl

theorem block?_eq_some {id : Text} {b : Block K} (h : s.block? id = some b) : b ∈ s.blocks ∧ b.id = id := by
  have hid := List.find?_some h
  exact ⟨List.mem_of_find?_eq_some h, by simpa using hid⟩

theorem exists_block?_of_mem {id : Text} (h : id ∈ s.blocks.map Block.id) : ∃ c, s.block? id = some c ∧ c.id = id := by
  obtain ⟨c, hc, hid⟩ := List.mem_map.mp h
  have hfound : (s.block? id).isSome = true := List.find?_isSome.mpr ⟨c, hc, beq_iff_eq.mpr hid⟩
  obtain ⟨first, hfirst⟩ := Option.isSome_iff_exists.mp hfound
  exact ⟨first, hfirst, (block?_eq_some hfirst).2⟩

theorem unlessSaving_cases (s : EditorState K) (e : Edit K) :
    (s.unlessSaving e).state = s ∨ s.unlessSaving e = e := by
  unfold unlessSaving
  split
  · exact Or.inl rfl
  · exact Or.inr rfl

theorem unlessSaving?_eq_ok {x : Outcome (Edit K)} (h : s.unlessSaving? x = .ok e) :
    e = { state := s, error := some busy } ∨ x = .ok e := by
  unfold unlessSaving? at h
  split at h
  · exact Or.inl (Except.ok.inj h).symm
  · exact Or.inr h

theorem unlessSaving?_succeeds {x : Outcome (Edit K)} (h : ∃ e, x = .ok e) : ∃ e, s.unlessSaving? x = .ok e := by
  unfold unlessSaving?
  split
  · exact ⟨_, rfl⟩
  · exact h

theorem notFound_eq_ok {id : Value} (h : s.notFound id = .ok e) : e.ok = false ∧ e.state = s := by
  obtain ⟨text, -, h⟩ := Outcome.bind_eq_ok.mp h
  cases h
  exact ⟨rfl, rfl⟩

theorem notFound_str_succeeds (s : EditorState K) (id : Text) : ∃ e, s.notFound (.str id) = .ok e := ⟨_, rfl⟩

theorem withoutBlock_eq_ok {id : Text} (h : s.withoutBlock id = .ok e) : ∃ blocks,
    ((s.blocks.filter fun b => b.id != id).mapM fun b => Edge.strip b (.str id)) = .ok blocks ∧
      e = edited { s with
        blocks
        selectedBlockId := otherThan id s.selectedBlockId
        connectingFrom := otherThan id s.connectingFrom
        connectionMode := s.connectionMode && s.connectingFrom != some id
        entryBlockId := otherThan id s.entryBlockId } .blockDeleted := by
  obtain ⟨blocks, hblocks, h⟩ := Outcome.bind_eq_ok.mp h
  exact ⟨blocks, hblocks, (Outcome.pure_eq_ok.mp h).symm⟩

theorem deleteBlock_eq_ok {id : Value} (h : s.deleteBlock id = .ok e) :
    e.state = s ∨ ∃ b, s.blockAt? id = some b ∧ s.withoutBlock b.id = .ok e := by
  rcases unlessSaving?_eq_ok h with rfl | h
  · exact Or.inl rfl
  · split at h
    · exact Or.inl (notFound_eq_ok h).2
    · exact Or.inr ⟨_, ‹_›, h⟩

theorem withEdge_eq_ok {source : Block K} {target : Text} {digit : Value}
    (h : s.withEdge source target digit = .ok e) : e.state = s.unconnecting ∨ ∃ blocks,
      Edge.changeAt s.blocks source.id (fun b => Edge.addAt b target digit) = .ok blocks ∧
        e = edited { s.unconnecting with blocks } .blocksConnected := by
  unfold withEdge at h
  split at h
  · cases h
    exact Or.inl rfl
  · obtain ⟨blocks, hblocks, h⟩ := Outcome.bind_eq_ok.mp h
    exact Or.inr ⟨blocks, hblocks, (Outcome.pure_eq_ok.mp h).symm⟩

theorem connectBlocks_eq_ok {source target digit : Value} (h : s.connectBlocks source target digit = .ok e) :
    e.state = s ∨ ∃ b t, s.blockAt? source = some b ∧ s.blockAt? target = some t ∧
      s.withEdge b t.id digit = .ok e := by
  rcases unlessSaving?_eq_ok h with rfl | h
  · exact Or.inl rfl
  · split at h
    · exact Or.inl (notFound_eq_ok h).2
    · exact Or.inl (notFound_eq_ok h).2
    · exact Or.inr ⟨_, _, ‹_›, ‹_›, h⟩

theorem disconnectBlocks_eq_ok {source target : Value} (h : s.disconnectBlocks source target = .ok e) :
    e.state = s ∨ ∃ b blocks, s.blockAt? source = some b ∧
      Edge.changeAt s.blocks b.id (fun b => Edge.strip b target) = .ok blocks ∧
        e = edited { s with blocks } .blocksDisconnected := by
  rcases unlessSaving?_eq_ok h with rfl | h
  · exact Or.inl rfl
  · split at h
    · cases h
      exact Or.inl rfl
    · obtain ⟨edges, -, h⟩ := Outcome.bind_eq_ok.mp h
      split at h
      · obtain ⟨blocks, hblocks, h⟩ := Outcome.bind_eq_ok.mp h
        exact Or.inr ⟨_, blocks, ‹_›, hblocks, (Outcome.pure_eq_ok.mp h).symm⟩
      · cases h
        exact Or.inl rfl

theorem selectNumber_eq_ok {number : Value} (h : s.selectNumber number = .ok e) :
    e = { state := s, error := some busy } ∨
      ∃ selectedNumber, e = edited { s with selectedNumber } .numberSelected := by
  rcases unlessSaving?_eq_ok h with rfl | h
  · exact Or.inl rfl
  · obtain ⟨normal, -, h⟩ := Outcome.bind_eq_ok.mp h
    exact Or.inr ⟨normal.asText?, (Outcome.pure_eq_ok.mp h).symm⟩

theorem selectBlock_eq_ok {id : Value} (h : s.selectBlock id = .ok e) :
    ∃ selectedBlockId, e.state = { s with selectedBlockId } := by
  unfold selectBlock at h
  split at h
  · cases h
    exact ⟨none, rfl⟩
  · split at h
    · exact ⟨s.selectedBlockId, (notFound_eq_ok h).2⟩
    · cases h
      exact ⟨some _, rfl⟩

theorem beginConnection_eq_ok {id : Value} (h : s.beginConnection id = .ok e) : e.state = s ∨
    ∃ b, s.blockAt? id = some b ∧ e.state = { s with connectingFrom := some b.id, connectionMode := true } := by
  unfold beginConnection at h
  split at h
  · exact Or.inl (notFound_eq_ok h).2
  · cases h
    exact Or.inr ⟨_, ‹_›, rfl⟩

variable [Coordinate K] {b : Block K}

/-- A block that is added is put below the one that a connection begins at, to which an edge leads from there, or in a
cell of the grid. -/
theorem placeBlock_eq_ok (h : s.placeBlock b = .ok e) :
    (∃ source position blocks, s.source? = some source ∧ Layout.positionBelow source s.blocks = some position ∧
      Edge.changeAt s.blocks source.id (fun old => Edge.add old b.id none) = .ok blocks ∧
        e = edited { s with
          blocks := blocks ++ [{ b with position }]
          connectingFrom := none
          connectionMode := false } .blockAddedAndConnected) ∨
    (s.source? = none ∧ e = edited { s with
      blocks := s.blocks ++ [{ b with position := Layout.nextFreePosition s.blocks }] } .blockAdded) := by
  unfold placeBlock at h
  split at h
  · split at h
    · cases h
    · obtain ⟨blocks, hblocks, h⟩ := Outcome.bind_eq_ok.mp h
      exact Or.inl ⟨_, _, blocks, ‹_›, ‹_›, hblocks, (Outcome.pure_eq_ok.mp h).symm⟩
  · exact Or.inr ⟨‹_›, (Except.ok.inj h).symm⟩

theorem placeBlock_of_place {source : Block K} {place : Position K} (hsource : s.source? = some source)
    (hplace : Layout.positionBelow source s.blocks = some place) : s.placeBlock b = (do
      let blocks ← Edge.changeAt s.blocks source.id fun old => Edge.add old b.id none
      return edited { s with
        blocks := blocks ++ [{ b with position := place }]
        connectingFrom := none
        connectionMode := false } .blockAddedAndConnected) := by
  simp only [placeBlock, hsource, hplace]

theorem addBlock_eq_ok (h : s.addBlock b = .ok e) : e.ok = false ∧ e.state = s ∨ s.placeBlock b = .ok e := by
  rcases unlessSaving?_eq_ok h with rfl | h
  · exact Or.inl ⟨rfl, rfl⟩
  · split at h
    · cases h
      exact Or.inl ⟨rfl, rfl⟩
    · exact Or.inr h

end

variable {s : EditorState} {e : Edit}

theorem updateBlock_eq_ok {id updates : Value} (h : s.updateBlock id updates = .ok e) :
    e.state = s ∨ ∃ b entries updated, s.blockAt? id = some b ∧ updatedBlock b entries = .done updated ∧
      e = edited { s with blocks := s.blocks.map fun old => if old.id = b.id then updated else old } .blockUpdated := by
  rcases unlessSaving?_eq_ok h with rfl | h
  · exact Or.inl rfl
  · split at h
    · exact Or.inl (notFound_eq_ok h).2
    · obtain ⟨entries, -, rfl⟩ := Outcome.map_eq_ok.mp h
      unfold applyUpdates
      split
      · exact Or.inl rfl
      · split
        · exact Or.inl rfl
        · exact Or.inr ⟨_, entries, _, ‹_›, ‹_›, rfl⟩

/-- What a transition of the blocks can do: it changes what is selected and what is connected, or it edits the graph,
which is unsaved then. It leaves the title, the number, the settings for recording and the current flow. -/
inductive Reworks (s : EditorState) : EditorState → Prop where
  | points (selectedBlockId connectingFrom : Option Text) (connectionMode : Bool) :
      Reworks s { s with selectedBlockId, connectingFrom, connectionMode }
  | edits (blocks : List Block) (entryBlockId selectedBlockId connectingFrom : Option Text)
      (connectionMode : Bool) : Reworks s { s with
        blocks, entryBlockId, selectedBlockId, connectingFrom, connectionMode
        dirty := true, status := .editing, lastError := none }

theorem Reworks.same (s : EditorState) : s.Reworks s :=
  .points s.selectedBlockId s.connectingFrom s.connectionMode

theorem setBlocks_reworks (s : EditorState) (blocks : List Block) : s.Reworks (s.setBlocks blocks).state := by
  unfold setBlocks unlessSaving
  split
  · exact .same s
  · exact .edits _ _ _ _ _

theorem Reworks.of_eq {t : EditorState} (h : t = s) : s.Reworks t :=
  h ▸ .same s

theorem addBlock_reworks {b : Block} (he : s.addBlock b = .ok e) : s.Reworks e.state := by
  rcases addBlock_eq_ok he with ⟨-, hsame⟩ | he
  · exact .of_eq hsame
  · rcases placeBlock_eq_ok he with ⟨source, position, blocks, -, -, -, rfl⟩ | ⟨-, rfl⟩
    · exact .edits _ _ _ _ _
    · exact .edits _ _ _ _ _

theorem updateBlock_reworks {id updates : Value} (he : s.updateBlock id updates = .ok e) : s.Reworks e.state := by
  rcases updateBlock_eq_ok he with hsame | ⟨b, entries, updated, -, -, rfl⟩
  · exact .of_eq hsame
  · exact .edits _ _ _ _ _

theorem deleteBlock_reworks {id : Value} (he : s.deleteBlock id = .ok e) : s.Reworks e.state := by
  rcases deleteBlock_eq_ok he with hsame | ⟨b, -, he⟩
  · exact .of_eq hsame
  · obtain ⟨blocks, -, rfl⟩ := withoutBlock_eq_ok he
    exact .edits _ _ _ _ _

theorem connectBlocks_reworks {source target digit : Value} (he : s.connectBlocks source target digit = .ok e) :
    s.Reworks e.state := by
  rcases connectBlocks_eq_ok he with hsame | ⟨b, t, -, -, he⟩
  · exact .of_eq hsame
  · rcases withEdge_eq_ok he with hnone | ⟨blocks, -, rfl⟩
    · rw [hnone]
      exact .points _ _ _
    · exact .edits _ _ _ _ _

theorem disconnectBlocks_reworks {source target : Value} (he : s.disconnectBlocks source target = .ok e) :
    s.Reworks e.state := by
  rcases disconnectBlocks_eq_ok he with hsame | ⟨b, blocks, -, -, rfl⟩
  · exact .of_eq hsame
  · exact .edits _ _ _ _ _

theorem selectBlock_reworks {id : Value} (he : s.selectBlock id = .ok e) : s.Reworks e.state := by
  obtain ⟨selected, hselected⟩ := selectBlock_eq_ok he
  rw [hselected]
  exact .points _ _ _

theorem beginConnection_reworks {id : Value} (he : s.beginConnection id = .ok e) : s.Reworks e.state := by
  rcases beginConnection_eq_ok he with hsame | ⟨b, -, hbegun⟩
  · exact .of_eq hsame
  · rw [hbegun]
    exact .points _ _ _

end EditorState
end Switchboard
