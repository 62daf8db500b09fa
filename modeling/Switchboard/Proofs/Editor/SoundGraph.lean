import Switchboard.Proofs.Editor.Command
import Switchboard.Proofs.Editor.EdgeChange
import Switchboard.Proofs.Flow.Layout
import Mathlib.Data.List.Nodup

/-! # The graph that is edited stays sound

In a sound state the ids of the blocks are distinct, everything that a block leads to is a block, and the entry, the
selection and the pending connection are blocks if there are any. Every command keeps this, as long as the blocks that
it brings along lead to no others; and a block that is deleted is named nowhere afterwards. Only the search for a place
below a block may keep a command from being carried out, since it need not end.
-/
namespace Switchboard

variable {K : Type}

structure Graph.Closed (blocks : List (Block K)) : Prop where
  distinct : (blocks.map Block.id).Nodup
  leads : ∀ b ∈ blocks, b.LeadsInto (blocks.map Block.id)

instance (blocks : List (Block K)) : Decidable (Graph.Closed blocks) :=
  decidable_of_iff ((blocks.map Block.id).Nodup ∧ ∀ b ∈ blocks, b.LeadsInto (blocks.map Block.id))
    ⟨fun h => ⟨h.1, h.2⟩, fun h => ⟨h.distinct, h.leads⟩⟩

theorem ids_of_outline {blocks blocks' : List (Block K)} (h : blocks'.map Block.outline = blocks.map Block.outline) :
    blocks'.map Block.id = blocks.map Block.id := by
  have hids := congrArg (List.map Prod.fst) h
  rwa [List.map_map, List.map_map] at hids

theorem outline_of_change {change : Block K → Outcome (Block K)} {id : Text} {b b' : Block K}
    (hkeep : ∀ b b', change b = .ok b' → b'.outline = b.outline)
    (h : (if b.id = id then change b else .ok b) = .ok b') : b'.outline = b.outline := by
  split at h
  · exact hkeep b b' h
  · rw [Except.ok.inj h]

theorem outlines_of_changeAt {change : Block K → Outcome (Block K)} {blocks blocks' : List (Block K)} {id : Text}
    (hkeep : ∀ b b', change b = .ok b' → b'.outline = b.outline) (h : Edge.changeAt blocks id change = .ok blocks') :
    blocks'.map Block.outline = blocks.map Block.outline :=
  Outcome.map_eq_map_of_mapM_eq_ok (fun _ _ => outline_of_change hkeep) h

/-- What every block stands, and what keeps its outline, all blocks stand. -/
theorem mapM_outline {f : Block K → Outcome (Block K)} {P : Block K → Prop} {blocks : List (Block K)}
    (hf : ∀ b ∈ blocks, ∃ b', f b = .ok b' ∧ P b') (hkeep : ∀ b b', f b = .ok b' → b'.outline = b.outline) :
    ∃ blocks', blocks.mapM f = .ok blocks' ∧ (∀ b ∈ blocks', P b) ∧
      blocks'.map Block.outline = blocks.map Block.outline := by
  obtain ⟨blocks', hblocks⟩ := Outcome.mapM_succeeds fun b hb => (hf b hb).imp fun _ h => h.1
  refine ⟨blocks', hblocks, ?_, Outcome.map_eq_map_of_mapM_eq_ok hkeep hblocks⟩
  intro b' hb'
  obtain ⟨b, hb, hfb⟩ := Outcome.mem_of_mapM_eq_ok hblocks hb'
  obtain ⟨b'', hb'', hP⟩ := hf b hb
  rw [hfb] at hb''
  cases hb''
  exact hP

theorem changeAt_outline {change : Block K → Outcome (Block K)} {P : Block K → Prop} {blocks : List (Block K)}
    (id : Text) (hold : ∀ b ∈ blocks, P b) (hchange : ∀ b ∈ blocks, ∃ b', change b = .ok b' ∧ P b')
    (hkeep : ∀ b b', change b = .ok b' → b'.outline = b.outline) :
    ∃ blocks', Edge.changeAt blocks id change = .ok blocks' ∧ (∀ b ∈ blocks', P b) ∧
      blocks'.map Block.outline = blocks.map Block.outline := by
  refine mapM_outline ?_ ?_
  · intro b hb
    split
    · exact hchange b hb
    · exact ⟨b, rfl, hold b hb⟩
  · intro b b' h
    exact outline_of_change hkeep h

theorem Graph.Closed.of_ids {blocks blocks' : List (Block K)} (h : Graph.Closed blocks)
    (hids : blocks'.map Block.id = blocks.map Block.id)
    (hleads : ∀ b ∈ blocks', b.LeadsInto (blocks.map Block.id)) : Graph.Closed blocks' := by
  constructor
  · rw [hids]
    exact h.distinct
  · rw [hids]
    exact hleads

namespace EditorState

def Names (blocks : List (Block K)) (id : Option Text) : Prop :=
  ∀ i, id = some i → i ∈ blocks.map Block.id

instance (blocks : List (Block K)) (id : Option Text) : Decidable (Names blocks id) :=
  decidable_of_iff (id.all fun i => decide (i ∈ blocks.map Block.id)) <| by
    cases id <;> simp [Names]

theorem names_none (blocks : List (Block K)) : Names blocks none := by
  intro i h
  cases h

theorem names_among (blocks : List (Block K)) (id : Option Text) : Names blocks (among blocks id) := by
  intro i hi
  obtain ⟨b, hb, hid⟩ := List.any_eq_true.mp (Option.filter_eq_some_iff.mp hi).2
  exact List.mem_map.mpr ⟨b, hb, beq_iff_eq.mp hid⟩

theorem Names.mono {blocks blocks' : List (Block K)} {id : Option Text} (h : Names blocks id)
    (hsub : ∀ i ∈ blocks.map Block.id, i ∈ blocks'.map Block.id) : Names blocks' id :=
  fun i hi => hsub i (h i hi)

/-- A state in which no reference leads astray. -/
structure Sound (s : EditorState K) : Prop where
  graph : Graph.Closed s.blocks
  entry : Names s.blocks s.entryBlockId
  selected : Names s.blocks s.selectedBlockId
  connecting : Names s.blocks s.connectingFrom

instance (s : EditorState K) : Decidable s.Sound :=
  decidable_of_iff (Graph.Closed s.blocks ∧ Names s.blocks s.entryBlockId ∧ Names s.blocks s.selectedBlockId ∧
      Names s.blocks s.connectingFrom)
    ⟨fun h => ⟨h.1, h.2.1, h.2.2.1, h.2.2.2⟩, fun h => ⟨h.graph, h.entry, h.selected, h.connecting⟩⟩

/-- The commands whose blocks lead to no others than those that there are. -/
def Admits (s : EditorState) : EditorCommand → Prop
  | .setBlocks blocks => Graph.Closed blocks
  | .addBlock b => b.LeadsInto (s.blocks.map Block.id ++ [b.id])
  | .updateBlock id updates => ∀ b updated, s.block? id = some b → updatedBlock b updates = .done updated →
      updated.LeadsInto (s.blocks.map Block.id)
  | .loadFlow flow => Graph.Closed flow.blocks ∧ Names flow.blocks flow.entryBlockId
  | _ => True

/-- Whether a connection has been begun from a block below which no place is free, however far to the right. -/
def Crowded (s : EditorState K) [Coordinate K] : Prop :=
  ∃ source, s.source? = some source ∧ ∀ k, Layout.isFree s.blocks (Layout.shiftRight^[k] (Layout.below source)) = false

inductive Edits : EditorState → EditorState → Prop where
  | refl (s : EditorState) : Edits s s
  | step {s t : EditorState} {c : EditorCommand} {e : Edit} (before : Edits s t) (admitted : t.Admits c)
    (performed : t.perform c = .ok e) : Edits s e.state

variable {s : EditorState}

theorem Sound.unlessSaving {e : Edit} (h : s.Sound) (he : e.state.Sound) : (s.unlessSaving e).state.Sound := by
  rcases unlessSaving_cases s e with hsame | hsame
  · rwa [hsame]
  · rwa [hsame]

theorem names_block {id : Text} {b : Block} (h : s.block? id = some b) : Names s.blocks (some b.id) := by
  intro i hi
  cases hi
  exact List.mem_map_of_mem (block?_eq_some h).1

theorem selectBlock_sound (h : s.Sound) (id : Option Text) :
    ∃ e, s.selectBlock (.ofText? id) = .ok e ∧ e.state.Sound := by
  cases id with
  | none => exact ⟨_, rfl, h.graph, h.entry, names_none _, h.connecting⟩
  | some id =>
    simp only [selectBlock, Value.ofText?, Value.isNull, Bool.false_eq_true, if_false, blockAt?_str]
    cases hb : s.block? id with
    | none => exact ⟨_, rfl, h⟩
    | some b => exact ⟨_, rfl, h.graph, h.entry, names_block hb, h.connecting⟩

theorem beginConnection_sound (h : s.Sound) (id : Text) :
    ∃ e, s.beginConnection (.str id) = .ok e ∧ e.state.Sound := by
  rw [beginConnection, blockAt?_str]
  cases hb : s.block? id with
  | none => exact ⟨_, rfl, h⟩
  | some b => exact ⟨_, rfl, h.graph, h.entry, h.selected, names_block hb⟩

theorem selectNumber_sound (h : s.Sound) (number : Option Text) :
    ∃ e, s.selectNumber (.ofText? number) = .ok e ∧ e.state.Sound := by
  unfold selectNumber unlessSaving?
  split
  · exact ⟨_, rfl, h⟩
  · cases number with
    | none => exact ⟨_, rfl, h.graph, h.entry, h.selected, h.connecting⟩
    | some number => exact ⟨_, rfl, h.graph, h.entry, h.selected, h.connecting⟩

theorem setBlocks_sound (h : s.Sound) {blocks : List Block} (hblocks : Graph.Closed blocks) :
    (s.setBlocks blocks).state.Sound :=
  h.unlessSaving ⟨hblocks, names_among _ _, names_among _ _, names_among _ _⟩

theorem Sound.of_ids {t : EditorState} (h : s.Sound) (hids : t.blocks.map Block.id = s.blocks.map Block.id)
    (hleads : ∀ b ∈ t.blocks, b.LeadsInto (s.blocks.map Block.id)) (hentry : t.entryBlockId = s.entryBlockId)
    (hselected : t.selectedBlockId = s.selectedBlockId)
    (hconnecting : t.connectingFrom = s.connectingFrom ∨ t.connectingFrom = none) : t.Sound := by
  have hmore : ∀ i ∈ s.blocks.map Block.id, i ∈ t.blocks.map Block.id := by
    rw [hids]
    exact fun i hi => hi
  refine ⟨h.graph.of_ids hids hleads, ?_, ?_, ?_⟩
  · rw [hentry]
    exact h.entry.mono hmore
  · rw [hselected]
    exact h.selected.mono hmore
  · rcases hconnecting with hsame | hnone
    · rw [hsame]
      exact h.connecting.mono hmore
    · rw [hnone]
      exact names_none _

theorem Sound.changeAt {change : Block → Outcome Block} (h : s.Sound) (id : Text)
    (hchange : ∀ b, b.LeadsInto (s.blocks.map Block.id) →
      ∃ b', change b = .ok b' ∧ b'.LeadsInto (s.blocks.map Block.id))
    (hkeep : ∀ b b', change b = .ok b' → b'.outline = b.outline) :
    ∃ blocks, Edge.changeAt s.blocks id change = .ok blocks ∧
      blocks.map Block.id = s.blocks.map Block.id ∧ ∀ b ∈ blocks, b.LeadsInto (s.blocks.map Block.id) := by
  obtain ⟨blocks, hblocks, hleads, houtline⟩ :=
    changeAt_outline id h.graph.leads (fun b hb => hchange b (h.graph.leads b hb)) hkeep
  exact ⟨blocks, hblocks, ids_of_outline houtline, hleads⟩

theorem withEdge_sound (h : s.Sound) (source : Block) {target : Text} (ht : target ∈ s.blocks.map Block.id)
    (digit : Option Text) : ∃ e, s.withEdge source target (.ofText? digit) = .ok e ∧ e.state.Sound := by
  unfold withEdge
  split
  · refine ⟨_, rfl, ?_⟩
    exact ⟨h.graph, h.entry, h.selected, names_none _⟩
  · simp only [Edge.addAt_ofText?]
    obtain ⟨blocks, hblocks, hids, hleads⟩ := h.changeAt source.id
      (fun b hb => Edge.add_leadsInto hb ht digit) (fun _ _ => Edge.add_outline)
    rw [hblocks]
    refine ⟨_, rfl, ?_⟩
    exact h.of_ids hids hleads rfl rfl (Or.inr rfl)

theorem connectBlocks_sound (h : s.Sound) (source target : Text) (digit : Option Text) :
    ∃ e, s.connectBlocks (.str source) (.str target) (.ofText? digit) = .ok e ∧ e.state.Sound := by
  unfold connectBlocks unlessSaving?
  rw [blockAt?_str, blockAt?_str]
  split
  · exact ⟨_, rfl, h⟩
  · cases s.block? source with
    | none => exact ⟨_, rfl, h⟩
    | some b =>
      cases ht : s.block? target with
      | none => exact ⟨_, rfl, h⟩
      | some t => exact withEdge_sound h b (List.mem_map_of_mem (block?_eq_some ht).1) _

theorem disconnectBlocks_sound (h : s.Sound) (source target : Text) :
    ∃ e, s.disconnectBlocks (.str source) (.str target) = .ok e ∧ e.state.Sound := by
  unfold disconnectBlocks unlessSaving?
  rw [blockAt?_str]
  split
  · exact ⟨_, rfl, h⟩
  · cases hb : s.block? source with
    | none => exact ⟨_, rfl, h⟩
    | some b =>
      obtain ⟨edges, hedges, -⟩ := h.graph.leads b (block?_eq_some hb).1
      simp only [hedges, bind, Except.bind]
      split
      · have hstrip (b : Block) (hb : b.LeadsInto (s.blocks.map Block.id)) :
            ∃ b', Edge.strip b (.str target) = .ok b' ∧ b'.LeadsInto (s.blocks.map Block.id) := by
          obtain ⟨b', hb', hleads⟩ := Edge.strip_leadsInto hb target
          exact ⟨b', hb', hleads.mono fun id hid => (List.mem_filter.mp hid).1⟩
        obtain ⟨blocks, hblocks, hids, hleads⟩ := h.changeAt b.id hstrip (fun _ _ => Edge.strip_outline)
        rw [hblocks]
        refine ⟨_, rfl, ?_⟩
        exact h.of_ids hids hleads rfl rfl (Or.inl rfl)
      · exact ⟨_, rfl, h⟩

/-- One block more, and edges to it: what led into the blocks leads into them. -/
theorem Sound.concat {blocks : List Block} {t : EditorState} (h : s.Sound) (placed : Block)
    (houtline : blocks.map Block.outline = s.blocks.map Block.outline) (hnew : s.block? placed.id = none)
    (hplaced : placed.LeadsInto (s.blocks.map Block.id ++ [placed.id]))
    (hleads : ∀ b ∈ blocks, b.LeadsInto (s.blocks.map Block.id ++ [placed.id]))
    (hblocks : t.blocks = blocks ++ [placed]) (hentry : t.entryBlockId = s.entryBlockId)
    (hselected : t.selectedBlockId = s.selectedBlockId)
    (hconnecting : t.connectingFrom = s.connectingFrom ∨ t.connectingFrom = none) : t.Sound := by
  have hids : t.blocks.map Block.id = s.blocks.map Block.id ++ [placed.id] := by
    rw [hblocks, List.map_append, ids_of_outline houtline]
    rfl
  have hmore : ∀ i ∈ s.blocks.map Block.id, i ∈ t.blocks.map Block.id := by
    rw [hids]
    exact fun i hi => List.mem_append_left _ hi
  have hfresh : placed.id ∉ s.blocks.map Block.id := by
    intro hmem
    obtain ⟨b, hb, hid⟩ := List.mem_map.mp hmem
    exact List.find?_eq_none.mp hnew b hb (beq_iff_eq.mpr hid)
  refine ⟨⟨?_, ?_⟩, ?_, ?_, ?_⟩
  · rw [hids, ← List.concat_eq_append]
    exact h.graph.distinct.concat hfresh
  · rw [hids, hblocks]
    intro b hb
    rcases List.mem_append.mp hb with hb | hb
    · exact hleads b hb
    · rwa [List.mem_singleton.mp hb]
  · rw [hentry]
    exact h.entry.mono hmore
  · rw [hselected]
    exact h.selected.mono hmore
  · rcases hconnecting with hsame | hnone
    · rw [hsame]
      exact h.connecting.mono hmore
    · rw [hnone]
      exact names_none _

theorem addBlock_sound (h : s.Sound) {b : Block} (hb : b.LeadsInto (s.blocks.map Block.id ++ [b.id])) :
    (∃ e, s.addBlock b = .ok e ∧ e.state.Sound) ∨ s.addBlock b = .error .endless ∧ s.Crowded := by
  have hold : ∀ old ∈ s.blocks, old.LeadsInto (s.blocks.map Block.id ++ [b.id]) :=
    fun old hmem => (h.graph.leads old hmem).mono fun id hid => List.mem_append_left _ hid
  unfold addBlock unlessSaving?
  split
  · exact Or.inl ⟨_, rfl, h⟩
  · split
    · exact Or.inl ⟨_, rfl, h⟩
    · rename_i hnew
      have hnew : s.block? b.id = none := by simpa using hnew
      unfold placeBlock
      cases hsource : s.source? with
      | none =>
        refine Or.inl ⟨_, rfl, ?_⟩
        exact h.concat { b with position := Layout.nextFreePosition s.blocks } rfl hnew hb hold rfl rfl rfl (Or.inl rfl)
      | some source =>
        cases hplace : Layout.positionBelow source s.blocks with
        | none =>
          simp only [hplace]
          exact Or.inr ⟨trivial, source, hsource, Layout.positionBelow_eq_none_iff.mp hplace⟩
        | some place =>
          obtain ⟨blocks, hblocks, hleads, houtline⟩ := changeAt_outline source.id hold
            (fun old hmem => Edge.add_leadsInto (hold old hmem) (List.mem_append_right _ List.mem_cons_self) none)
            (fun _ _ => Edge.add_outline)
          simp only [hplace]
          rw [hblocks]
          refine Or.inl ⟨_, rfl, ?_⟩
          exact h.concat { b with position := place } houtline hnew hb hleads rfl rfl rfl (Or.inr rfl)

theorem id_of_updatedBlock {b updated : Block} {updates : Entries} (h : updatedBlock b updates = .done updated) :
    updated.id = b.id := by
  obtain ⟨_, _, hposition, -, rfl⟩ := Reading.seq_eq_done.mp h
  obtain ⟨_, _, hconfig, -, rfl⟩ := Reading.seq_eq_done.mp hposition
  obtain ⟨_, _, htype, -, rfl⟩ := Reading.seq_eq_done.mp hconfig
  obtain ⟨_, -, rfl⟩ := Reading.map_eq_done.mp htype
  rfl

theorem updateBlock_sound (h : s.Sound) {id : Text} {updates : Entries}
    (hadmits : s.Admits (.updateBlock id updates)) :
    ∃ e, s.updateBlock (.str id) (.obj updates) = .ok e ∧ e.state.Sound := by
  unfold updateBlock unlessSaving?
  rw [blockAt?_str]
  split
  · exact ⟨_, rfl, h⟩
  · cases hb : s.block? id with
    | none => exact ⟨_, rfl, h⟩
    | some b =>
      refine ⟨_, rfl, ?_⟩
      unfold applyUpdates
      split
      · exact h
      · cases hupdated : updatedBlock b updates with
        | refused issues => exact h
        | done updated =>
          refine h.of_ids ?_ ?_ rfl rfl (Or.inl rfl)
          · refine (List.map_map.trans (List.map_congr_left fun old _ => ?_))
            simp only [Function.comp_apply]
            split
            · rename_i hold
              rw [id_of_updatedBlock hupdated, hold]
            · rfl
          · intro changed hchanged
            obtain ⟨old, hold, rfl⟩ := List.mem_map.mp hchanged
            split
            · exact hadmits b updated hb hupdated
            · exact h.graph.leads old hold

structure Freed (s t : EditorState) (id : Text) : Prop where
  outlines : t.blocks.map Block.outline = (s.blocks.filter fun b => b.id != id).map Block.outline
  leads : ∀ b ∈ t.blocks, b.LeadsInto ((s.blocks.map Block.id).filter (· != id))
  entry : t.entryBlockId = otherThan id s.entryBlockId
  selected : t.selectedBlockId = otherThan id s.selectedBlockId
  connecting : t.connectingFrom = otherThan id s.connectingFrom

theorem withoutBlock_freed (h : s.Sound) (id : Text) :
    ∃ e, s.withoutBlock id = .ok e ∧ s.Freed e.state id := by
  obtain ⟨blocks, hblocks, hleads, houtline⟩ := mapM_outline
    (fun b hb => Edge.strip_leadsInto (h.graph.leads b (List.mem_filter.mp hb).1) id) (fun _ _ => Edge.strip_outline)
  rw [withoutBlock, hblocks]
  exact ⟨_, rfl, houtline, hleads, rfl, rfl, rfl⟩

theorem names_otherThan {blocks : List Block} {gone : Text} {id : Option Text} (h : Names s.blocks id)
    (hids : blocks.map Block.id = (s.blocks.map Block.id).filter (· != gone)) : Names blocks (otherThan gone id) := by
  intro i hi
  obtain ⟨hi, hne⟩ := Option.filter_eq_some_iff.mp hi
  rw [hids]
  exact List.mem_filter.mpr ⟨h i hi, hne⟩

theorem Freed.ids {t : EditorState} {id : Text} (h : s.Freed t id) :
    t.blocks.map Block.id = (s.blocks.map Block.id).filter (· != id) := by
  rw [ids_of_outline h.outlines, List.filter_map]
  rfl

theorem Freed.sound {t : EditorState} {id : Text} (hs : s.Sound) (h : s.Freed t id) : t.Sound := by
  refine ⟨⟨?_, ?_⟩, ?_, ?_, ?_⟩
  · rw [h.ids]
    exact hs.graph.distinct.filter _
  · rw [h.ids]
    exact h.leads
  · rw [h.entry]
    exact names_otherThan hs.entry h.ids
  · rw [h.selected]
    exact names_otherThan hs.selected h.ids
  · rw [h.connecting]
    exact names_otherThan hs.connecting h.ids

theorem deleteBlock_cases (h : s.Sound) (id : Text) :
    ∃ e, s.deleteBlock (.str id) = .ok e ∧ (s.Freed e.state id ∨ e.ok = false ∧ e.state = s) := by
  unfold deleteBlock unlessSaving?
  rw [blockAt?_str]
  split
  · exact ⟨_, rfl, Or.inr ⟨rfl, rfl⟩⟩
  · cases hb : s.block? id with
    | none => exact ⟨_, rfl, Or.inr ⟨rfl, rfl⟩⟩
    | some b =>
      obtain ⟨e, he, hfreed⟩ := withoutBlock_freed h id
      dsimp only
      rw [(block?_eq_some hb).2]
      exact ⟨e, he, Or.inl hfreed⟩

/-- A command that the state admits is carried out, and the state stays sound, unless the search for the place of a
block does not end. -/
theorem Sound.perform (h : s.Sound) {c : EditorCommand} (hc : s.Admits c) :
    (∃ e, s.perform c = .ok e ∧ e.state.Sound) ∨
      (∃ b, c = .addBlock b) ∧ s.perform c = .error .endless ∧ s.Crowded := by
  cases c with
  | addBlock b => exact (addBlock_sound h hc).imp_right fun hendless => ⟨⟨b, rfl⟩, hendless⟩
  | startEditing => exact Or.inl ⟨_, rfl, h.graph, h.entry, h.selected, h.connecting⟩
  | setFlowName name => exact Or.inl ⟨_, rfl, h.unlessSaving ⟨h.graph, h.entry, h.selected, h.connecting⟩⟩
  | setNumbers numbers => exact Or.inl ⟨_, rfl, h.graph, h.entry, h.selected, h.connecting⟩
  | selectNumber number => exact Or.inl (selectNumber_sound h number)
  | setRecording enabled disclaimer =>
    exact Or.inl ⟨_, rfl, h.unlessSaving ⟨h.graph, h.entry, h.selected, h.connecting⟩⟩
  | setBlocks blocks => exact Or.inl ⟨_, rfl, setBlocks_sound h hc⟩
  | updateBlock id updates => exact Or.inl (updateBlock_sound h hc)
  | deleteBlock id =>
    obtain ⟨e, he, hfreed | ⟨-, hsame⟩⟩ := deleteBlock_cases h id
    · exact Or.inl ⟨e, he, hfreed.sound h⟩
    · exact Or.inl ⟨e, he, hsame ▸ h⟩
  | selectBlock id => exact Or.inl (selectBlock_sound h id)
  | beginConnection id => exact Or.inl (beginConnection_sound h id)
  | cancelConnection => exact Or.inl ⟨_, rfl, h.graph, h.entry, h.selected, names_none _⟩
  | connectBlocks source target digit => exact Or.inl (connectBlocks_sound h source target digit)
  | disconnectBlocks source target => exact Or.inl (disconnectBlocks_sound h source target)
  | loadFlow flow => exact Or.inl ⟨_, rfl, hc.1, hc.2, names_none _, names_none _⟩
  | reset =>
    refine Or.inl ⟨_, rfl, ⟨List.nodup_nil, ?_⟩, names_none _, names_none _, names_none _⟩
    intro b hb
    cases hb

theorem Edits.keeps_sound {s t : EditorState} (h : s.Sound) (hrun : Edits s t) : t.Sound := by
  induction hrun with
  | refl => exact h
  | step before admitted performed ih =>
    rcases ih.perform admitted with ⟨e, he, hsound⟩ | ⟨-, hendless, -⟩
    · rw [performed] at he
      cases he
      exact hsound
    · rw [performed] at hendless
      cases hendless

theorem not_names_otherThan (gone : Text) (id : Option Text) : otherThan gone id ≠ some gone := by
  intro h
  obtain ⟨-, hne⟩ := Option.filter_eq_some_iff.mp h
  simp at hne

/-- However a sound state is edited, its graph stays sound. Every further command is carried out, unless it adds a block
where a connection has been begun and the search for a place goes on for ever. A block that is deleted is no longer named
by an edge, the entry, the selection or the pending connection, while the other blocks keep their order, ids, types and
places. -/
theorem Edits.stays_sound {s t : EditorState} (h : s.Sound) (hrun : Edits s t) :
    t.Sound ∧
    (∀ c, t.Admits c → (∃ e, t.perform c = .ok e ∧ e.state.Sound) ∨
      (∃ b, c = .addBlock b) ∧ t.perform c = .error .endless ∧ t.Crowded) ∧
    ∀ id e, t.perform (.deleteBlock id) = .ok e → e.ok = true →
      (∀ b ∈ e.state.blocks, ∃ edges, b.edges = .ok edges ∧ Value.str id ∉ edges) ∧
      e.state.entryBlockId ≠ some id ∧ e.state.selectedBlockId ≠ some id ∧ e.state.connectingFrom ≠ some id ∧
      e.state.blocks.map Block.outline = (t.blocks.filter fun b => b.id != id).map Block.outline := by
  have ht := hrun.keeps_sound h
  refine ⟨ht, fun c hc => ht.perform hc, ?_⟩
  intro id e he hok
  obtain ⟨e', he', hfreed | ⟨hrefused, -⟩⟩ := deleteBlock_cases ht id
  · obtain rfl : e' = e := Except.ok.inj (he'.symm.trans he)
    refine ⟨?_, ?_, ?_, ?_, hfreed.outlines⟩
    · intro b hb
      obtain ⟨edges, hedges, hin⟩ := hfreed.leads b hb
      refine ⟨edges, hedges, ?_⟩
      intro hmem
      obtain ⟨i, hi, heq⟩ := hin _ hmem
      have hne := (List.mem_filter.mp hi).2
      rw [Value.str.inj heq] at hne
      simp at hne
    · rw [hfreed.entry]
      exact not_names_otherThan id _
    · rw [hfreed.selected]
      exact not_names_otherThan id _
    · rw [hfreed.connecting]
      exact not_names_otherThan id _
  · obtain rfl : e' = e := Except.ok.inj (he'.symm.trans he)
    rw [hrefused] at hok
    cases hok

theorem Edits.stays_sound_menu :
    let main : Block := {
      id := "main", type := .menu, position := ⟨.ofInt 120, .ofInt 80⟩, next := ["desk"]
      config := [("prompt", .str "Press 1"), ("on_fail", .str "desk"),
        ("options", .obj [("1", .str "desk"), ("2", .null)])] }
    let desk : Block := {
      id := "desk", type := .forward, position := ⟨.ofInt 340, .ofInt 80⟩, next := []
      config := [("to", .str "+15551230001"), ("on_fail", .str "main")] }
    let bye : Block := {
      id := "bye", type := .say, position := ⟨.ofInt 0, .ofInt 0⟩, next := [], config := [("text", .str "Bye")] }
    let s : EditorState := {
      blocks := [main, desk], entryBlockId := some ("desk" : Text), selectedBlockId := some ("desk" : Text)
      connectingFrom := some ("main" : Text) }
    s.Sound ∧ s.Admits (.addBlock bye) ∧ ∃ added, s.perform (.addBlock bye) = .ok added ∧
      added.state.blocks.map Block.id = [("main" : Text), ("desk" : Text), ("bye" : Text)] ∧ added.state.Sound ∧
      ∃ deleted, added.state.perform (.deleteBlock "desk") = .ok deleted ∧ deleted.ok = true ∧
        deleted.state.entryBlockId ≠ some ("desk" : Text) ∧ deleted.state.selectedBlockId ≠ some ("desk" : Text) ∧
        deleted.state.blocks.map Block.outline =
          (added.state.blocks.filter fun b => b.id != ("desk" : Text)).map Block.outline := by
  intro main desk bye s
  have hsound : s.Sound := by decide +kernel
  have hadmits : s.Admits (.addBlock bye) := by
    change bye.LeadsInto (s.blocks.map Block.id ++ [bye.id])
    decide +kernel
  have hplace : Layout.positionBelow main s.blocks = some (Layout.below main) :=
    Layout.firstFreeRight_of_free (by decide +kernel)
  have hput := placeBlock_of_place (b := bye) rfl hplace
  have hput : s.perform (.addBlock bye) = _ := hput
  have hids : ((s.perform (.addBlock bye)).toOption.map fun e => e.state.blocks.map Block.id) =
      some [("main" : Text), ("desk" : Text), ("bye" : Text)] := by
    rw [hput]
    decide +kernel
  have hok : ((s.perform (.addBlock bye)).toOption.bind fun e =>
      (e.state.perform (.deleteBlock "desk")).toOption.map Edit.ok) = some true := by
    rw [hput]
    decide +kernel
  obtain ⟨added, hadded, -⟩ := Option.map_eq_some_iff.mp hids
  have hadded := Outcome.eq_ok_of_toOption hadded
  obtain ⟨ht, hperform, hdelete⟩ := Edits.stays_sound hsound (.step (.refl s) hadmits hadded)
  obtain ⟨deleted, hdeleted, -⟩ := (hperform (.deleteBlock "desk") trivial).resolve_right fun h => by
    obtain ⟨⟨b, hb⟩, -⟩ := h
    cases hb
  rw [hadded] at hids hok
  rw [Except.toOption, Option.bind_some, hdeleted] at hok
  have hok : deleted.ok = true := Option.some.inj hok
  obtain ⟨-, hentry, hselected, -, houtline⟩ := hdelete "desk" deleted hdeleted hok
  exact ⟨hsound, hadmits, added, hadded, Option.some.inj hids, ht, deleted, hdeleted, hok, hentry, hselected, houtline⟩

end EditorState
end Switchboard
