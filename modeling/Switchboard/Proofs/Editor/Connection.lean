import Switchboard.Proofs.Editor.Course
import Switchboard.Proofs.Editor.SoundGraph

/-! # The pending connection

Two fields tell whether a connection is pending: a mode, and the block that it begins at. Whenever there is such a
block it is one of the blocks, and the mode is on. The converse holds as long as the blocks are not replaced by others
without it: then it is forgotten, and the mode stays on. A save joins pairs of halves in the ids of the blocks, but not
in the one at which a connection begins.
-/
namespace Switchboard
open Store

namespace EditorState

variable {s t : EditorState} {e : Edit} {blocks : List Block}

def ModeAgrees (s : EditorState) : Prop :=
  s.connectionMode = true ↔ ∃ id, s.connectingFrom = some id ∧ id ∈ s.blocks.map Block.id

/-- Where a connection begins the mode is on, and the block is there unless a save may have changed its id. -/
def Anchored (s : EditorState) : Prop :=
  ∀ id, s.connectingFrom = some id → s.connectionMode = true ∧ (id.joined = id → id ∈ s.blocks.map Block.id)

def SourceLasts (s : EditorState) : Prop :=
  ∀ id, s.connectingFrom = some id → id.joined = id

/-- Whether a transition does not take the block away from under a pending connection, and begins none at a block whose
id a save changes. -/
def KeepsSource (s : EditorState) : EditorCommand → Prop
  | .setBlocks blocks => s.status = .saving ∨ Names blocks s.connectingFrom
  | .beginConnection id => id.joined = id
  | _ => True

theorem keepsSource_cases (s : EditorState) (c : EditorCommand) :
    s.KeepsSource c ∨ (∃ blocks, c = .setBlocks blocks) ∨ ∃ id, c = .beginConnection id := by
  cases c with
  | setBlocks blocks => exact Or.inr (Or.inl ⟨blocks, rfl⟩)
  | beginConnection id => exact Or.inr (Or.inr ⟨id, rfl⟩)
  | _ => exact Or.inl trivial

theorem Anchored.modeAgrees_iff (h : s.Anchored) : s.ModeAgrees ↔
    Names s.blocks s.connectingFrom ∧ (s.connectionMode = true → s.connectingFrom ≠ none) := by
  constructor
  · intro hagrees
    refine ⟨fun id hid => ?_, fun hmode hnone => ?_⟩
    · obtain ⟨i, hi, hmem⟩ := hagrees.mp (h id hid).1
      rw [hid] at hi
      cases hi
      exact hmem
    · obtain ⟨id, hid, -⟩ := hagrees.mp hmode
      rw [hnone] at hid
      cases hid
  · rintro ⟨hnames, hpending⟩
    constructor
    · intro hmode
      obtain ⟨id, hid⟩ := Option.ne_none_iff_exists'.mp (hpending hmode)
      exact ⟨id, hid, hnames id hid⟩
    · rintro ⟨id, hid, -⟩
      exact (h id hid).1

/-- What a step makes of a pending connection: it stays, and so does its block, or it ends, or it begins at a block. -/
inductive Relinks (s t : EditorState) : Prop where
  | stays (source : t.connectingFrom = s.connectingFrom) (mode : t.connectionMode = s.connectionMode)
      (block : Names s.blocks s.connectingFrom → Names t.blocks s.connectingFrom)
  | ends (source : t.connectingFrom = none) (mode : t.connectionMode = false)
  | begins (id : Text) (source : t.connectingFrom = some id) (mode : t.connectionMode = true)
      (block : id ∈ t.blocks.map Block.id) (joined : id.joined = id)

theorem Relinks.of_ids (hids : t.blocks.map Block.id = s.blocks.map Block.id)
    (hsource : t.connectingFrom = s.connectingFrom) (hmode : t.connectionMode = s.connectionMode) : Relinks s t :=
  .stays hsource hmode fun h => h.mono (hids ▸ fun _ hi => hi)

theorem Relinks.same (s : EditorState) : Relinks s s := .of_ids rfl rfl rfl

theorem Relinks.of_eq (h : t = s) : Relinks s t :=
  h ▸ .same s

theorem Relinks.anchored (h : Relinks s t) (hs : s.Anchored) : t.Anchored := by
  intro id hid
  cases h with
  | stays source mode block =>
    rw [source] at hid
    rw [mode]
    refine ⟨(hs id hid).1, fun hjoined => block ?_ id hid⟩
    intro i hi
    rw [hid] at hi
    cases hi
    exact (hs id hid).2 hjoined
  | ends source mode =>
    rw [source] at hid
    cases hid
  | begins i source mode block joined =>
    rw [source] at hid
    cases hid
    exact ⟨mode, fun _ => block⟩

theorem Relinks.modeAgrees (h : Relinks s t) (hs : s.Anchored) (hagrees : s.ModeAgrees) : t.ModeAgrees := by
  obtain ⟨hnames, hpending⟩ := hs.modeAgrees_iff.mp hagrees
  rw [(h.anchored hs).modeAgrees_iff]
  cases h with
  | stays source mode block =>
    rw [source, mode]
    exact ⟨block hnames, hpending⟩
  | ends source mode =>
    rw [source, mode]
    exact ⟨fun id hid => (by cases hid), fun hmode => (by cases hmode)⟩
  | begins i source mode block joined =>
    rw [source]
    refine ⟨fun id hid => ?_, fun _ => Option.some_ne_none i⟩
    cases hid
    exact block

theorem Relinks.sourceLasts (h : Relinks s t) (hs : s.SourceLasts) : t.SourceLasts := by
  intro id hid
  cases h with
  | stays source mode block => exact hs id (source ▸ hid)
  | ends source mode =>
    rw [source] at hid
    cases hid
  | begins i source mode block joined =>
    rw [source] at hid
    cases hid
    exact joined

theorem Relinks.unlessSaving (h : Relinks s e.state) : Relinks s (s.unlessSaving e).state := by
  rcases unlessSaving_cases s e with hsame | hsame
  · rw [hsame]
    exact .same s
  · rwa [hsame]

theorem addBlock_relinks {b : Block} (he : s.addBlock b = .ok e) : Relinks s e.state := by
  rcases addBlock_eq_ok he with ⟨-, hsame⟩ | he
  · exact .of_eq hsame
  · rcases placeBlock_eq_ok he with ⟨source, position, blocks, -, -, -, rfl⟩ | ⟨-, rfl⟩
    · exact .ends rfl rfl
    · refine .stays rfl rfl fun h => h.mono fun i hi => ?_
      rw [edited, List.map_append]
      exact List.mem_append_left _ hi

theorem updateBlock_relinks {id updates : Value} (he : s.updateBlock id updates = .ok e) : Relinks s e.state := by
  rcases updateBlock_eq_ok he with hsame | ⟨b, entries, updated, -, hupdated, rfl⟩
  · exact .of_eq hsame
  · refine .of_ids (List.map_map.trans (List.map_congr_left fun old _ => ?_)) rfl rfl
    simp only [Function.comp_apply]
    split
    · rename_i hold
      rw [id_of_updatedBlock hupdated, hold]
    · rfl

theorem withoutBlock_relinks {id : Text} (he : s.withoutBlock id = .ok e) : Relinks s e.state := by
  obtain ⟨blocks, hblocks, rfl⟩ := withoutBlock_eq_ok he
  by_cases hsource : s.connectingFrom = some id
  · refine .ends ?_ ?_
    · simp [edited, hsource, otherThan]
    · simp [edited, hsource]
  · have hkept : otherThan id s.connectingFrom = s.connectingFrom := by
      cases hfrom : s.connectingFrom with
      | none => rfl
      | some i =>
        have hne : i ≠ id := fun heq => hsource (heq ▸ hfrom)
        simp [otherThan, hne]
    refine .stays hkept (by simp [edited, hsource]) fun h i hi => ?_
    have hne : i ≠ id := fun heq => hsource (heq ▸ hi)
    have hids : blocks.map Block.id = (s.blocks.filter fun b => b.id != id).map Block.id :=
      ids_of_outline (Outcome.map_eq_map_of_mapM_eq_ok (fun _ _ => Edge.strip_outline) hblocks)
    obtain ⟨b, hb, hid⟩ := List.mem_map.mp (h i hi)
    rw [edited, hids]
    exact List.mem_map.mpr ⟨b, List.mem_filter.mpr ⟨hb, bne_iff_ne.mpr (hid ▸ hne)⟩, hid⟩

theorem deleteBlock_relinks {id : Value} (he : s.deleteBlock id = .ok e) : Relinks s e.state := by
  rcases deleteBlock_eq_ok he with hsame | ⟨b, -, he⟩
  · exact .of_eq hsame
  · exact withoutBlock_relinks he

theorem connectBlocks_relinks {source target digit : Value} (he : s.connectBlocks source target digit = .ok e) :
    Relinks s e.state := by
  rcases connectBlocks_eq_ok he with hsame | ⟨b, t, -, -, he⟩
  · exact .of_eq hsame
  · rcases withEdge_eq_ok he with hnone | ⟨blocks, -, rfl⟩
    · rw [hnone]
      exact .ends rfl rfl
    · exact .ends rfl rfl

theorem disconnectBlocks_relinks {source target : Value} (he : s.disconnectBlocks source target = .ok e) :
    Relinks s e.state := by
  rcases disconnectBlocks_eq_ok he with hsame | ⟨b, blocks, -, hblocks, rfl⟩
  · exact .of_eq hsame
  · exact .of_ids (ids_of_outline (outlines_of_changeAt (fun _ _ => Edge.strip_outline) hblocks)) rfl rfl

theorem selectNumber_relinks {number : Value} (he : s.selectNumber number = .ok e) : Relinks s e.state := by
  rcases selectNumber_eq_ok he with rfl | ⟨selectedNumber, rfl⟩
  · exact .same s
  · exact .of_ids rfl rfl rfl

theorem selectBlock_relinks {id : Value} (he : s.selectBlock id = .ok e) : Relinks s e.state := by
  obtain ⟨selected, hselected⟩ := selectBlock_eq_ok he
  rw [hselected]
  exact .of_ids rfl rfl rfl

theorem beginConnection_relinks {id : Text} (hjoined : id.joined = id) (he : s.beginConnection (.str id) = .ok e) :
    Relinks s e.state := by
  rcases beginConnection_eq_ok he with hsame | ⟨b, hb, hbegun⟩
  · exact .of_eq hsame
  · obtain ⟨hmem, rfl⟩ := block?_eq_some hb
    rw [hbegun]
    exact .begins b.id rfl rfl (List.mem_map_of_mem hmem) hjoined

theorem among_of_names {id : Option Text} (h : Names blocks id) : among blocks id = id := by
  cases id with
  | none => rfl
  | some i =>
    obtain ⟨b, hb, hid⟩ := List.mem_map.mp (h i rfl)
    refine Option.filter_eq_some_iff.mpr ⟨rfl, ?_⟩
    exact List.any_eq_true.mpr ⟨b, hb, beq_iff_eq.mpr hid⟩

theorem perform_relinks {c : EditorCommand} (hc : s.KeepsSource c) (he : s.perform c = .ok e) :
    Relinks s e.state := by
  cases c with
  | startEditing | setNumbers numbers =>
    cases he
    exact .of_ids rfl rfl rfl
  | setFlowName name | setRecording enabled disclaimer =>
    cases he
    exact Relinks.unlessSaving (.of_ids rfl rfl rfl)
  | selectNumber number => exact selectNumber_relinks he
  | setBlocks blocks =>
    cases he
    rcases hc with hsaving | hnames
    · rw [setBlocks, EditorState.unlessSaving, if_pos hsaving]
      exact .same s
    · exact Relinks.unlessSaving (.stays (among_of_names hnames) rfl fun _ => hnames)
  | addBlock b => exact addBlock_relinks he
  | updateBlock id updates => exact updateBlock_relinks he
  | deleteBlock id => exact deleteBlock_relinks he
  | selectBlock id => exact selectBlock_relinks he
  | beginConnection id => exact beginConnection_relinks hc he
  | connectBlocks source target digit => exact connectBlocks_relinks he
  | disconnectBlocks source target => exact disconnectBlocks_relinks he
  | cancelConnection | loadFlow flow | reset =>
    cases he
    exact .ends rfl rfl

theorem Anchored.setBlocks (h : s.Anchored) (blocks : List Block) : (s.setBlocks blocks).state.Anchored := by
  unfold EditorState.setBlocks EditorState.unlessSaving
  split
  · exact h
  · intro id hid
    exact ⟨(h id (Option.filter_eq_some_iff.mp hid).1).1, fun _ => names_among blocks _ id hid⟩

theorem Anchored.beginConnection (h : s.Anchored) {id : Text} (he : s.beginConnection (.str id) = .ok e) :
    e.state.Anchored := by
  rcases beginConnection_eq_ok he with hsame | ⟨b, hb, hbegun⟩
  · exact hsame ▸ h
  · rw [hbegun]
    intro i hi
    cases hi
    exact ⟨rfl, fun _ => List.mem_map_of_mem (block?_eq_some hb).1⟩

theorem Anchored.perform (h : s.Anchored) {c : EditorCommand} (he : s.perform c = .ok e) : e.state.Anchored := by
  rcases keepsSource_cases s c with hc | ⟨blocks, rfl⟩ | ⟨id, rfl⟩
  · exact (perform_relinks hc he).anchored h
  · cases he
    exact h.setBlocks blocks
  · exact h.beginConnection he

/-- A save leaves the block where it is if the id has no pair of halves. -/
theorem Anchored.settled {saved : CallFlow} (h : s.Anchored) (hstored : s.StoredAs saved) :
    (s.settled saved).Anchored := by
  intro id hid
  refine ⟨(h id hid).1, fun hjoined => ?_⟩
  change id ∈ saved.blocks.map Block.id
  rw [hstored.ids]
  exact List.mem_map.mpr ⟨id, (h id hid).2 hjoined, hjoined⟩

theorem ModeAgrees.settled_iff {saved : CallFlow} (h : s.Anchored) (hagrees : s.ModeAgrees)
    (hstored : s.StoredAs saved) : (s.settled saved).ModeAgrees ↔ s.SourceLasts := by
  obtain ⟨hnames, hpending⟩ := h.modeAgrees_iff.mp hagrees
  rw [(h.settled hstored).modeAgrees_iff]
  constructor
  · rintro ⟨hafter, -⟩ id hid
    have hmem : id ∈ saved.blocks.map Block.id := hafter id hid
    rw [hstored.ids] at hmem
    obtain ⟨i, -, rfl⟩ := List.mem_map.mp hmem
    exact Text.joined_joined i
  · intro hlasts
    refine ⟨fun id hid => ?_, hpending⟩
    change id ∈ saved.blocks.map Block.id
    rw [hstored.ids]
    exact List.mem_map.mpr ⟨id, hnames id hid, hlasts id hid⟩

theorem ModeAgrees.setBlocks_iff (h : s.Anchored) (hagrees : s.ModeAgrees) (blocks : List Block) :
    (s.setBlocks blocks).state.ModeAgrees ↔ s.KeepsSource (.setBlocks blocks) := by
  constructor
  · intro hafter
    by_cases hsaving : s.status = .saving
    · exact Or.inl hsaving
    · refine Or.inr fun id hid => ?_
      rw [setBlocks, unlessSaving, if_neg hsaving] at hafter
      obtain ⟨i, hi, hmem⟩ := hafter.mp (h id hid).1
      have hsame := (Option.filter_eq_some_iff.mp hi).1
      rw [hid] at hsame
      cases hsame
      exact hmem
  · intro hkeeps
    have hlinks : Relinks s (s.setBlocks blocks).state := perform_relinks hkeeps rfl
    exact hlinks.modeAgrees h hagrees

/-- What every session keeps: a connection is anchored, and its mode agrees if no transition takes its block away. -/
theorem connection_upheld {allowed : EditorState → EditorCommand → Prop} :
    Upheld allowed (fun _ => True) fun s =>
      s.Anchored ∧ ((∀ t c, allowed t c → t.KeepsSource c) → s.SourceLasts ∧ s.ModeAgrees) := by
  have hlinks {s t : EditorState} (h : Relinks s t)
      (hs : s.Anchored ∧ ((∀ t c, allowed t c → t.KeepsSource c) → s.SourceLasts ∧ s.ModeAgrees)) :
      t.Anchored ∧ ((∀ t c, allowed t c → t.KeepsSource c) → t.SourceLasts ∧ t.ModeAgrees) :=
    ⟨h.anchored hs.1, fun hkeeps => ⟨h.sourceLasts (hs.2 hkeeps).1, h.modeAgrees hs.1 (hs.2 hkeeps).2⟩⟩
  constructor
  · intro s c e hs hc he
    refine ⟨hs.1.perform he, fun hkeeps => ?_⟩
    have hrelinks := perform_relinks (hkeeps s c hc) he
    exact ⟨hrelinks.sourceLasts (hs.2 hkeeps).1, hrelinks.modeAgrees hs.1 (hs.2 hkeeps).2⟩
  · intro s status flows lastError hs
    exact hlinks (.of_ids rfl rfl rfl) hs
  · intro s number e hs he
    exact hlinks (selectNumber_relinks he) hs
  · intro s flow hs _
    exact hlinks (.ends rfl rfl) hs
  · intro s id hs
    refine hlinks ?_ hs
    unfold forget
    split
    · exact .of_ids rfl rfl rfl
    · exact .same s
  · intro s saved hs hstored
    refine ⟨hs.1.settled hstored, fun hkeeps => ?_⟩
    obtain ⟨hlasts, hagrees⟩ := hs.2 hkeeps
    exact ⟨hlasts, (hagrees.settled_iff hs.1 hstored).mpr hlasts⟩

end EditorState

namespace Session.Course
open EditorState

variable {allowed : EditorState → EditorCommand → Prop} {db : Database} {s : Session} {pending : List Pending}

/-- In the course of every session, the block that a connection begins at is one of the blocks and the mode is on. The
two agree as long as no replacement of the blocks takes the block away; a replacement that does breaks the agreement,
unless it is refused. So does a save while the id of the block has two halves side by side. -/
theorem connection_agrees (run : Course allowed db s pending) :
    (∀ id, s.editor.connectingFrom = some id →
      s.editor.connectionMode = true ∧ (id.joined = id → id ∈ s.editor.blocks.map Block.id)) ∧
    ((∀ t c, allowed t c → t.KeepsSource c) → s.editor.ModeAgrees) ∧
    (s.editor.ModeAgrees → ∀ blocks,
      (s.editor.setBlocks blocks).state.ModeAgrees ↔ s.editor.KeepsSource (.setBlocks blocks)) ∧
    (s.editor.ModeAgrees → ∀ saved, s.editor.StoredAs saved →
      ((s.editor.settled saved).ModeAgrees ↔ s.editor.SourceLasts)) := by
  have hstart : ({} : EditorState).Anchored := fun id hid => by cases hid
  have hlasts : ({} : EditorState).SourceLasts := fun id hid => by cases hid
  have hagrees : ({} : EditorState).ModeAgrees :=
    hstart.modeAgrees_iff.mpr ⟨fun id hid => (by cases hid), fun hmode => (by cases hmode)⟩
  obtain ⟨⟨hanchored, hkept⟩, -⟩ :=
    run.upholds connection_upheld ⟨hstart, fun _ => ⟨hlasts, hagrees⟩⟩ fun _ _ _ _ _ => trivial
  exact ⟨hanchored, fun hkeeps => (hkept hkeeps).2, fun h => h.setBlocks_iff hanchored,
    fun h saved hstored => h.settled_iff hanchored hstored⟩

def connecting : Session where
  editor := {
    status := .editing, blocks := [{ hello with position := Layout.nextFreePosition [] }]
    connectingFrom := some ("hello" : Text), connectionMode := true, dirty := true }

theorem course_connecting (hadmits : ∀ s, allowed s (.addBlock hello) ∧ allowed s (.beginConnection "hello")) :
    Course allowed {} connecting [] := by
  let added : Session := { editor := { connecting.editor with connectingFrom := none, connectionMode := false } }
  have hadd : ({} : Session).perform "t0" {} (.edit (.addBlock hello)) = .ok (.edited _, added) := rfl
  have hbegin : added.perform "t0" {} (.edit (.beginConnection "hello")) = .ok (.edited _, connecting) := rfl
  have hadded : Course allowed {} added [] := .perform .start (fun e he => by cases he; exact (hadmits _).1) hadd
  exact .perform hadded (fun e he => by cases he; exact (hadmits _).2) hbegin

theorem connection_agrees_hello : Course KeepsSource {} connecting [] ∧ connecting.editor.ModeAgrees ∧
    ¬(connecting.editor.setBlocks []).state.ModeAgrees := by
  have run : Course KeepsSource {} connecting [] := course_connecting fun _ => ⟨trivial, rfl⟩
  obtain ⟨-, hagrees, hbreaks, -⟩ := connection_agrees run
  have hmode := hagrees fun _ _ hkeeps => hkeeps
  refine ⟨run, hmode, ?_⟩
  rw [hbreaks hmode []]
  rintro (hsaving | hnames)
  · cases hsaving
  · cases hnames "hello" rfl

/-- When its block is taken away, a connection is no longer pending, but the mode stays on. -/
theorem connection_stranded : ∃ s, Course (fun _ _ => True) {} s [] ∧
    s.editor.connectingFrom = none ∧ s.editor.connectionMode = true ∧ ¬s.editor.ModeAgrees := by
  have run : Course (fun _ _ => True) {} connecting [] := course_connecting fun _ => ⟨trivial, trivial⟩
  have hreplace : connecting.perform "t0" {} (.edit (.setBlocks [])) = .ok (.edited _, _) := rfl
  refine ⟨_, .perform run (fun _ _ => trivial) hreplace, rfl, rfl, ?_⟩
  intro hagrees
  obtain ⟨id, hid, -⟩ := hagrees.mp rfl
  cases hid

end Session.Course
end Switchboard
