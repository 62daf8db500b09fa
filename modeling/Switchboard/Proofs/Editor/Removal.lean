import Switchboard.Proofs.Editor.Command
import Switchboard.Proofs.Editor.EdgeChange
import Switchboard.Proofs.Keyed
import Mathlib.Data.List.Forall2

/-! # Edges that are taken away

Taking the edges to a target away from a block leaves everything else of it: its edges without the target, in order, the
options of a menu for all digits, without the target, and what it names for failures. The options of a menu are written
anew for that, so it matters that each is for some digits. Disconnecting does this to one block, and deleting a block
does it to all others.
-/
namespace Switchboard

variable {K : Type} {b b' : Block K} {target : Text}

theorem Outcome.exists_forall₂ {α β : Type} {f : α → Outcome β} {related : α → β → Prop} {as : List α}
    (h : ∀ a ∈ as, ∃ b, f a = .ok b ∧ related a b) : ∃ bs, as.mapM f = .ok bs ∧ List.Forall₂ related as bs := by
  induction as with
  | nil => exact ⟨[], rfl, .nil⟩
  | cons a rest ih =>
    obtain ⟨b, hb, hrelated⟩ := h a List.mem_cons_self
    obtain ⟨bs, hbs, hrest⟩ := ih fun a' ha' => h a' (List.mem_cons_of_mem a ha')
    refine ⟨b :: bs, ?_, .cons hrelated hrest⟩
    rw [List.mapM_cons, hb, hbs]
    rfl

theorem Value.any_alike_str {values : List Value} {s : Text} :
    values.any (·.alike (.str s)) = true ↔ .str s ∈ values := by
  simp [List.any_eq_true, alike_str_iff]

namespace Block

def Pressable (b : Block K) : Prop :=
  b.type = .menu → ∃ options, b.menuOptions = .ok options ∧ ∀ o ∈ options, o.digit ≠ ""

/-- A block from which the edges to a target have been taken away, and nothing else. -/
structure Released (target : Text) (b b' : Block K) : Prop where
  outline : b'.outline = b.outline
  config : ∀ key : Text, key ≠ "options" → key ≠ "on_fail" → b'.config.get? key = b.config.get? key
  edges : ∃ edges, b.edges = .ok edges ∧ b'.edges = .ok (edges.filter fun v => v.asText? != some target)
  menu : b.type = .menu → ∀ digits, ∃ o, b.optionFor digits = .ok o ∧
    b'.optionFor digits = .ok (o.map fun o => { o with target := o.target.filter (· != target) })
  noMenu : b.type ≠ .menu → ∀ digits, b'.optionFor digits = b.optionFor digits
  onFail : b'.config.get? "on_fail" =
    if (b.config.get "on_fail").asText? = some target then some .null else b.config.get? "on_fail"

theorem onFail?_of_released (h : b'.config.get? "on_fail" =
      if (b.config.get "on_fail").asText? = some target then some .null else b.config.get? "on_fail") :
    b'.onFail? = b.onFail?.filter fun v => v.asText? != some target := by
  have hget : b'.config.get "on_fail" =
      if (b.config.get "on_fail").asText? = some target then .null else b.config.get "on_fail" := by
    rw [Entries.get, h]
    split <;> rfl
  rw [onFail?, onFail?, hget]
  generalize b.config.get "on_fail" = v
  by_cases hfail : v.asText? = some target
  · rw [if_pos hfail, Value.truthy?, Value.truthy?, if_neg (by decide)]
    by_cases htruthy : v.truthy = true
    · simp [htruthy, hfail, Option.filter_some]
    · simp [htruthy]
  · rw [if_neg hfail, Value.truthy?]
    by_cases htruthy : v.truthy = true
    · simp [htruthy, hfail, Option.filter_some]
    · simp [htruthy]

theorem edges_of_released {targets : List Text} (hnext : b'.next = b.next.filter (· != target))
    (htargets : b.optionTargets = .ok targets) (htargets' : b'.optionTargets = .ok (targets.filter (· != target)))
    (hfail : b'.onFail? = b.onFail?.filter fun v => v.asText? != some target) :
    ∃ edges, b.edges = .ok edges ∧ b'.edges = .ok (edges.filter fun v => v.asText? != some target) := by
  refine ⟨Value.distinct ((b.next ++ targets).map .str ++ b.onFail?.toList), ?_, ?_⟩
  · rw [edges, htargets]
    rfl
  · have hids (ids : List Text) : (ids.map Value.str).filter (fun v => v.asText? != some target) =
        (ids.filter (· != target)).map .str := by
      rw [List.filter_map]
      rfl
    rw [Value.filter_distinct, List.filter_append, hids, List.filter_append, ← Option.toList_filter, ← hnext, ← hfail,
      edges, htargets']
    rfl

end Block

namespace Edge

open Block

theorem leadsTo_eq (target edge : Text) : leadsTo (.str target) edge = (edge == target) := by
  rw [Bool.eq_iff_iff, leadsTo_str, beq_iff_eq]

theorem unbind_str (target : Text) (o : MenuOption) :
    unbind (.str target) o = { o with target := o.target.filter (· != target) } := by
  simp only [unbind, leadsTo_eq]
  rfl

theorem targets_unbind (options : List MenuOption) (target : Text) :
    (options.map (unbind (.str target))).filterMap MenuOption.target? =
      (options.filterMap MenuOption.target?).filter (· != target) := by
  rw [List.filterMap_map, List.filter_filterMap]
  refine List.filterMap_congr fun o _ => ?_
  simp only [Function.comp_apply, MenuOption.target?, unbind_str, Option.filter_filter, Bool.and_comm]

section
variable {config : Entries}

theorem get?_stripOnFail (config : Entries) (target key : Text) : (stripOnFail config (.str target)).get? key =
    if key = "on_fail" ∧ (config.get "on_fail").asText? = some target then some .null else config.get? key := by
  simp only [stripOnFail, Value.alike_str_iff, ← Value.asText?_eq_some]
  by_cases hfail : (config.get "on_fail").asText? = some target
  · rw [if_pos hfail, Entries.get?_put]
    simp only [hfail, and_true]
  · simp only [hfail, and_false, if_false]

theorem stripOptions_menu {options : List MenuOption} (htype : b.type = .menu) (hoptions : b.menuOptions = .ok options)
    (hfilled : ∀ o ∈ options, o.digit ≠ "") (target : Text) : ∃ config, stripOptions b (.str target) = .ok config ∧
      (∀ key : Text, key ≠ "options" → config.get? key = b.config.get? key) ∧
      ∀ b' : Block K, b'.config.get "options" = config.get "options" →
        b'.menuOptions = .ok (options.map (unbind (.str target))) := by
  by_cases hhas : b.config.has "options" = true
  · refine ⟨withOptions b.config (options.map (unbind (.str target))), ?_, ?_, ?_⟩
    · rw [stripOptions, if_pos ⟨htype, hhas⟩, hoptions]
      rfl
    · intro key hkey
      rw [withOptions, Entries.get?_put, if_neg hkey]
    · intro b' hb'
      refine menuOptions_of_kept (hb'.trans (get_withOptions _ _)) ?_ ?_
      · rintro _ hp
        obtain ⟨o, ho, rfl⟩ := List.mem_map.mp hp
        have htrim := trim_digit_of_menuOptions hoptions ho
        exact htrim
      · rintro _ hp
        obtain ⟨o, ho, rfl⟩ := List.mem_map.mp hp
        exact hfilled o ho
  · have hnull : b.config.get "options" = .null := by
      have hnone : b.config.get? "options" = none := by simpa [Entries.has] using hhas
      rw [Entries.get, hnone, Option.getD_none]
    have hempty : options = [] := Except.ok.inj (hoptions.symm.trans (menuOptions_of_null hnull))
    refine ⟨b.config, if_neg fun hmenu => hhas hmenu.2, fun _ _ => rfl, fun b' hb' => ?_⟩
    rw [hempty, menuOptions_of_null (hb'.trans hnull), List.map_nil]

/-- With the options rewritten, if any, what is taken away from a block is the edges to the target. -/
theorem released_of_options (hconfig : stripOptions b (.str target) = .ok config)
    (hframe : ∀ key : Text, key ≠ "options" → config.get? key = b.config.get? key)
    (hmenu : b.type = .menu → ∃ options, b.menuOptions = .ok options ∧ ∀ b' : Block K,
      b'.config.get "options" = config.get "options" → b'.menuOptions = .ok (options.map (unbind (.str target))))
    (hnoMenu : b.type ≠ .menu → config = b.config) :
    ∃ b', strip b (.str target) = .ok b' ∧ Released target b b' := by
  have hfailure : config.get "on_fail" = b.config.get "on_fail" := by
    rw [Entries.get, Entries.get, hframe "on_fail" (by decide)]
  have hoptions : (stripOnFail config (.str target)).get "options" = config.get "options" :=
    get_stripOnFail_of_ne (by decide) _ _
  let b' : Block K := { b with
    next := b.next.filter (· != target)
    config := stripOnFail config (.str target) }
  have hstrip : strip b (.str target) = .ok b' := by
    simp only [strip, hconfig, leadsTo_eq]
    rfl
  have honFail : b'.config.get? "on_fail" =
      if (b.config.get "on_fail").asText? = some target then some .null else b.config.get? "on_fail" := by
    rw [get?_stripOnFail, hfailure, hframe "on_fail" (by decide)]
    simp only [true_and]
  refine ⟨b', hstrip, strip_outline hstrip, ?_, ?_, ?_, ?_, honFail⟩
  · intro key hne hfail
    rw [get?_stripOnFail, if_neg fun h => hfail h.1, hframe key hne]
  · obtain ⟨targets, htargets, htargets'⟩ : ∃ targets, b.optionTargets = .ok targets ∧
        b'.optionTargets = .ok (targets.filter (· != target)) := by
      by_cases htype : b.type = .menu
      · obtain ⟨options, hread, hkept⟩ := hmenu htype
        refine ⟨options.filterMap MenuOption.target?, optionTargets_of_menuOptions htype hread, ?_⟩
        rw [← targets_unbind]
        exact optionTargets_of_menuOptions htype (hkept b' hoptions)
      · refine ⟨[], ?_, ?_⟩
        · rw [optionTargets, if_neg htype]
        · rw [optionTargets, if_neg htype]
          rfl
    exact edges_of_released rfl htargets htargets' (onFail?_of_released honFail)
  · intro htype digits
    obtain ⟨options, hread, hkept⟩ := hmenu htype
    simp only [← unbind_str]
    exact optionFor_map hread (hkept b' hoptions) (fun _ => rfl) digits
  · intro htype digits
    refine optionFor_congr (menuOptions_congr ?_) digits
    rw [hoptions, hnoMenu htype]

/-- From a block whose options can be read, with some digits each, the edges to a target are taken away, and nothing
else. -/
theorem exists_released (h : b.Pressable) (target : Text) :
    ∃ b', strip b (.str target) = .ok b' ∧ Released target b b' := by
  by_cases htype : b.type = .menu
  · obtain ⟨options, hoptions, hfilled⟩ := h htype
    obtain ⟨config, hconfig, hframe, hkept⟩ := stripOptions_menu htype hoptions hfilled target
    exact released_of_options hconfig hframe (fun _ => ⟨options, hoptions, hkept⟩) fun hne => absurd htype hne
  · refine released_of_options (if_neg fun hmenu => htype hmenu.1) (fun _ _ => rfl) (fun hmenu => absurd hmenu htype) ?_
    exact fun _ => rfl

end

end Edge

namespace EditorState

variable {s : EditorState K}

theorem block?_of_mem (hdistinct : (s.blocks.map Block.id).Nodup) (hb : b ∈ s.blocks) : s.block? b.id = some b :=
  find?_of_mem hdistinct hb fun _ => beq_iff_eq

theorem exists_edges (h : b.Pressable) : ∃ edges, b.edges = .ok edges := by
  obtain ⟨b', -, hreleased⟩ := Edge.exists_released h ""
  obtain ⟨edges, hedges, -⟩ := hreleased.edges
  exact ⟨edges, hedges⟩

theorem changeAt_released {blocks : List (Block K)} (hread : ∀ b ∈ blocks, b.Pressable) (source target : Text) :
    ∃ changed, Edge.changeAt blocks source (fun b => Edge.strip b (.str target)) = .ok changed ∧
      List.Forall₂ (fun b b' => if b.id = source then b.Released target b' else b' = b) blocks changed := by
  refine Outcome.exists_forall₂ fun b hb => ?_
  by_cases hid : b.id = source
  · obtain ⟨b', hstrip, hreleased⟩ := Edge.exists_released (hread b hb) target
    exact ⟨b', (if_pos hid).trans hstrip, by rwa [if_pos hid]⟩
  · exact ⟨b, by rw [if_neg hid], by rw [if_neg hid]⟩

theorem disconnectBlocks_of_block? {source : Text} (hstatus : s.status ≠ .saving) (hb : s.block? source = some b)
    {edges : List Value} (hedges : b.edges = .ok edges) (target : Text) :
    s.disconnectBlocks (.str source) (.str target) =
      if edges.any (·.alike (.str target)) = true then do
        let blocks ← Edge.changeAt s.blocks source fun b => Edge.strip b (.str target)
        return edited { s with blocks } .blocksDisconnected
      else .ok { state := s } := by
  rw [disconnectBlocks, unlessSaving?, if_neg hstatus, blockAt?_str, hb, ← (block?_eq_some hb).2]
  simp only [hedges]
  rfl

/-- Disconnecting a block from what it leads to takes these edges away from this block, and nothing else; otherwise
it does nothing. Deleting a block takes the edges to it away from all others, and nothing else. -/
theorem edges_removed_exactly (hstatus : s.status ≠ .saving) (hdistinct : (s.blocks.map Block.id).Nodup)
    (hread : ∀ b ∈ s.blocks, b.Pressable) (source target : Text) :
    (∀ b ∈ s.blocks, b.id = source → ∀ edges, b.edges = .ok edges → .str target ∈ edges →
      ∃ blocks, s.disconnectBlocks (.str source) (.str target) = .ok (edited { s with blocks } .blocksDisconnected) ∧
        List.Forall₂ (fun b b' => if b.id = source then b.Released target b' else b' = b) s.blocks blocks) ∧
    ((∀ b ∈ s.blocks, b.id = source → ∀ edges, b.edges = .ok edges → .str target ∉ edges) →
      s.disconnectBlocks (.str source) (.str target) = .ok { state := s }) ∧
    (target ∈ s.blocks.map Block.id → ∃ e, s.deleteBlock (.str target) = .ok e ∧ e.ok = true ∧
      List.Forall₂ (Block.Released target) (s.blocks.filter (·.id != target)) e.state.blocks) ∧
    (target ∉ s.blocks.map Block.id → ∃ e, s.deleteBlock (.str target) = .ok e ∧ e.ok = false ∧ e.state = s) := by
  refine ⟨?_, ?_, ?_, ?_⟩
  · rintro b hb rfl edges hedges htarget
    obtain ⟨blocks, hchange, hreleased⟩ := changeAt_released hread b.id target
    refine ⟨blocks, ?_, hreleased⟩
    rw [disconnectBlocks_of_block? hstatus (block?_of_mem hdistinct hb) hedges, hchange,
      if_pos (Value.any_alike_str.mpr htarget)]
    rfl
  · intro hnone
    cases hb : s.block? source with
    | none =>
      rw [disconnectBlocks, unlessSaving?, if_neg hstatus, blockAt?_str, hb]
    | some b =>
      obtain ⟨hmem, hid⟩ := block?_eq_some hb
      obtain ⟨edges, hedges⟩ := exists_edges (hread b hmem)
      rw [disconnectBlocks_of_block? hstatus hb hedges, if_neg]
      exact fun hany => hnone b hmem hid edges hedges (Value.any_alike_str.mp hany)
  · intro hmem
    obtain ⟨b, hb, hid⟩ := exists_block?_of_mem hmem
    obtain ⟨blocks, hblocks, hreleased⟩ : ∃ blocks,
        ((s.blocks.filter (·.id != target)).mapM fun c => Edge.strip c (.str target)) = .ok blocks ∧
          List.Forall₂ (Block.Released target) (s.blocks.filter (·.id != target)) blocks :=
      Outcome.exists_forall₂ fun c hc => Edge.exists_released (hread c (List.mem_of_mem_filter hc)) target
    rw [deleteBlock, unlessSaving?, if_neg hstatus, blockAt?_str, hb]
    simp only [withoutBlock, hid, hblocks]
    exact ⟨_, rfl, rfl, hreleased⟩
  · intro hmem
    have hnone : s.block? target = none := by
      refine List.find?_eq_none.mpr fun b hb hid => hmem ?_
      rw [← beq_iff_eq.mp hid]
      exact List.mem_map_of_mem hb
    rw [deleteBlock, unlessSaving?, if_neg hstatus, blockAt?_str, hnone]
    exact ⟨_, rfl, rfl, rfl⟩

theorem edges_removed_exactly_menu :
    let main : Block := {
      id := "main", type := .menu, position := ⟨.ofInt 120, .ofInt 80⟩, next := ["sales", "bye"]
      config := [("prompt", .str "Press 1 or 2"), ("on_fail", .str "sales"), ("options", .arr [
        .obj [("digit", .int 1), ("label", .str "Sales"), ("target", .str "sales")],
        .obj [("digit", .str " 2 "), ("target", .str "bye")], .str "3"])] }
    let sales : Block := {
      id := "sales", type := .forward, position := ⟨.ofInt 120, .ofInt 300⟩, next := []
      config := [("to", .str "+15551230001"), ("on_fail", .str "bye")] }
    let bye : Block := { id := "bye", type := .hangup, position := ⟨.ofInt 520, .ofInt 80⟩, next := [], config := [] }
    let s : EditorState := { blocks := [main, sales, bye] }
    (∃ main', s.disconnectBlocks (.str "main") (.str "sales") =
        .ok (edited { s with blocks := [main', sales, bye] } .blocksDisconnected) ∧ main.Released "sales" main') ∧
      s.disconnectBlocks (.str "sales") (.str "main") = .ok { state := s } ∧
      ∃ e main' bye', s.deleteBlock (.str "sales") = .ok e ∧ e.ok = true ∧ e.state.blocks = [main', bye'] ∧
        main.Released "sales" main' ∧ bye.Released "sales" bye' := by
  intro main sales bye s
  have hoptions : main.menuOptions = .ok [⟨"1", some "Sales", some "sales"⟩, ⟨"2", none, some "bye"⟩] :=
    Outcome.eq_ok_of_toOption (by decide +kernel)
  have hread : ∀ b ∈ s.blocks, b.Pressable := by
    refine List.forall_mem_cons.mpr ⟨fun _ => ⟨_, hoptions, by decide⟩, List.forall_mem_cons.mpr ⟨?_, ?_⟩⟩
    · exact fun htype => absurd htype (by decide)
    · exact List.forall_mem_singleton.mpr fun htype => absurd htype (by decide)
  have hmain : main.edges = .ok [.str "sales", .str "bye"] := by
    rw [Block.edges, Block.optionTargets, if_pos rfl, hoptions]
    rfl
  obtain ⟨hdisconnect, -, hdelete, -⟩ := edges_removed_exactly (s := s) (by decide) (by decide) hread "main" "sales"
  obtain ⟨-, hnothing, -⟩ := edges_removed_exactly (s := s) (by decide) (by decide) hread "sales" "main"
  refine ⟨?_, ?_, ?_⟩
  · obtain ⟨blocks, hchanged, hreleased⟩ := hdisconnect main List.mem_cons_self rfl _ hmain List.mem_cons_self
    obtain _ | ⟨hfirst, _ | ⟨hsecond, _ | ⟨hthird, _ | _⟩⟩⟩ := hreleased
    obtain rfl : _ = sales := hsecond
    obtain rfl : _ = bye := hthird
    exact ⟨_, hchanged, hfirst⟩
  · refine hnothing fun b hb hid edges hedges => ?_
    obtain rfl : b = sales := List.inj_on_of_nodup_map (by decide) hb (List.mem_cons_of_mem _ List.mem_cons_self) hid
    obtain rfl : [Value.str "bye"] = edges := Except.ok.inj hedges
    simp
  · obtain ⟨e, hdeleted, hok, hreleased⟩ := hdelete (by decide)
    generalize hblocks : e.state.blocks = blocks at hreleased
    obtain _ | ⟨hfirst, _ | ⟨hsecond, _ | _⟩⟩ := hreleased
    exact ⟨e, _, _, hdeleted, hok, hblocks, hfirst, hsecond⟩

end EditorState
end Switchboard
