import Switchboard.Proofs.Editor.SoundGraph
import Switchboard.Proofs.Flow.Layout
import Mathlib.Logic.Relation

/-! # Blocks that stay apart

A transition that arranges blocks leaves every block where it is, takes one away, or puts a new one where it overlaps
with none of the others. So blocks that do not overlap never come to.
-/
namespace Switchboard
open Layout
open Relation (ReflTransGen)

namespace EditorState

section
variable {K : Type} {s : EditorState K} {e : Edit K}

theorem deleteBlock_outlines {id : Value} (h : s.deleteBlock id = .ok e) :
    (e.state.blocks.map Block.outline).Sublist (s.blocks.map Block.outline) := by
  rcases deleteBlock_eq_ok h with hsame | ⟨b, -, h⟩
  · rw [hsame]
  · obtain ⟨blocks, hblocks, rfl⟩ := withoutBlock_eq_ok h
    rw [edited, Outcome.map_eq_map_of_mapM_eq_ok (fun _ _ => Edge.strip_outline) hblocks]
    exact List.filter_sublist.map Block.outline

theorem connectBlocks_outlines {source target digit : Value} (h : s.connectBlocks source target digit = .ok e) :
    e.state.blocks.map Block.outline = s.blocks.map Block.outline := by
  rcases connectBlocks_eq_ok h with hsame | ⟨b, t, -, -, h⟩
  · rw [hsame]
  · rcases withEdge_eq_ok h with hnone | ⟨blocks, hblocks, rfl⟩
    · rw [hnone]
      rfl
    · exact outlines_of_changeAt (fun _ _ => Edge.addAt_outline) hblocks

theorem disconnectBlocks_outlines {source target : Value} (h : s.disconnectBlocks source target = .ok e) :
    e.state.blocks.map Block.outline = s.blocks.map Block.outline := by
  rcases disconnectBlocks_eq_ok h with hsame | ⟨b, blocks, -, hblocks, rfl⟩
  · rw [hsame]
  · exact outlines_of_changeAt (fun _ _ => Edge.strip_outline) hblocks

theorem selectBlock_blocks {id : Value} (h : s.selectBlock id = .ok e) : e.state.blocks = s.blocks := by
  obtain ⟨selected, hselected⟩ := selectBlock_eq_ok h
  rw [hselected]

theorem beginConnection_blocks {id : Value} (h : s.beginConnection id = .ok e) : e.state.blocks = s.blocks := by
  rcases beginConnection_eq_ok h with hsame | ⟨b, -, hbegun⟩
  · rw [hsame]
  · rw [hbegun]

variable [Coordinate K]

inductive Arranges (s : EditorState K) : EditorState K → Prop where
  | adds {e : Edit K} (b : Block K) (h : s.addBlock b = .ok e) : Arranges s e.state
  | deletes {e : Edit K} (id : Value) (h : s.deleteBlock id = .ok e) : Arranges s e.state
  | connects {e : Edit K} (source target digit : Value) (h : s.connectBlocks source target digit = .ok e) :
      Arranges s e.state
  | disconnects {e : Edit K} (source target : Value) (h : s.disconnectBlocks source target = .ok e) :
      Arranges s e.state
  | selects {e : Edit K} (id : Value) (h : s.selectBlock id = .ok e) : Arranges s e.state
  | begins {e : Edit K} (id : Value) (h : s.beginConnection id = .ok e) : Arranges s e.state
  | cancels : Arranges s s.cancelConnection.state

end

variable {s t : EditorState ℚ} {e : Edit ℚ} {b : Block ℚ} {blocks blocks' : List (Block ℚ)}

def Spread (blocks : List (Block ℚ)) : Prop :=
  blocks.Pairwise fun a b => ¬ Overlap a.position b.position

instance (blocks : List (Block ℚ)) : Decidable (Spread blocks) :=
  inferInstanceAs (Decidable (List.Pairwise _ _))

theorem spread_iff_outlines : Spread blocks ↔
    (blocks.map Block.outline).Pairwise fun a b => ¬ Overlap a.2.2 b.2.2 := by
  rw [List.pairwise_map]
  rfl

theorem Spread.sublist (h : Spread blocks)
    (hsub : (blocks'.map Block.outline).Sublist (blocks.map Block.outline)) : Spread blocks' :=
  spread_iff_outlines.mpr ((spread_iff_outlines.mp h).sublist hsub)

theorem Spread.of_outlines (h : Spread blocks) (hsame : blocks'.map Block.outline = blocks.map Block.outline) :
    Spread blocks' :=
  h.sublist (hsame ▸ List.Sublist.refl _)

/-- What overlaps with none of the blocks overlaps with none of the same outlines. -/
theorem not_overlap_of_outlines {p : Position ℚ} (hsame : blocks'.map Block.outline = blocks.map Block.outline)
    (h : ∀ old ∈ blocks, ¬ Overlap old.position p) : ∀ old ∈ blocks', ¬ Overlap old.position p := by
  intro old hold
  have hmem : old.outline ∈ blocks'.map Block.outline := List.mem_map_of_mem hold
  rw [hsame] at hmem
  obtain ⟨same, hsame, houtline⟩ := List.mem_map.mp hmem
  have hposition : same.position = old.position := congrArg (fun o => o.2.2) houtline
  rw [← hposition]
  exact h same hsame

/-- Wherever a block is put, it overlaps with none of the others, and these keep their outlines. -/
theorem placeBlock_apart (h : s.placeBlock b = .ok e) : ∃ blocks place,
    e.state.blocks = blocks ++ [{ b with position := place }] ∧
      blocks.map Block.outline = s.blocks.map Block.outline ∧ ∀ old ∈ s.blocks, ¬ Overlap old.position place := by
  rcases placeBlock_eq_ok h with ⟨source, place, blocks, -, hplace, hblocks, rfl⟩ | ⟨-, rfl⟩
  · refine ⟨blocks, place, rfl, outlines_of_changeAt (fun _ _ => Edge.add_outline) hblocks, ?_⟩
    obtain ⟨k, -, hfree⟩ := exists_steps_of_firstFreeRight hplace
    exact isFree_iff.mp hfree
  · refine ⟨s.blocks, _, rfl, rfl, ?_⟩
    obtain ⟨i, -, hfirst, hat⟩ := exists_nextFreePosition s.blocks
    rw [hat]
    exact isFree_iff.mp hfirst.free

theorem Spread.addBlock (hs : Spread s.blocks) (h : s.addBlock b = .ok e) : Spread e.state.blocks := by
  rcases addBlock_eq_ok h with ⟨-, hsame⟩ | h
  · rwa [hsame]
  · obtain ⟨blocks, place, hblocks, houtlines, hapart⟩ := placeBlock_apart h
    rw [hblocks, Spread, List.pairwise_append]
    refine ⟨hs.of_outlines houtlines, List.pairwise_singleton _ _, fun old hold placed hplaced => ?_⟩
    rw [List.mem_singleton.mp hplaced]
    exact not_overlap_of_outlines houtlines hapart old hold

theorem Arranges.spread (h : Arranges s t) (hs : Spread s.blocks) : Spread t.blocks := by
  cases h with
  | adds b h => exact hs.addBlock h
  | deletes id h => exact hs.sublist (deleteBlock_outlines h)
  | connects source target digit h => exact hs.of_outlines (connectBlocks_outlines h)
  | disconnects source target h => exact hs.of_outlines (disconnectBlocks_outlines h)
  | selects id h =>
    rw [selectBlock_blocks h]
    exact hs
  | begins id h =>
    rw [beginConnection_blocks h]
    exact hs
  | cancels => exact hs

theorem spread_of_run (h : ReflTransGen Arranges s t) (hs : Spread s.blocks) : Spread t.blocks := by
  induction h with
  | refl => exact hs
  | tail _ hstep ih => exact hstep.spread ih

/-- The searches for a place end at the first that is free, which lies at most as many places on as there are blocks.
So every block that is added is put where it overlaps with no other, and blocks that do not overlap never come to,
however they are arranged. -/
theorem blocks_stay_apart (blocks : List (Block ℚ)) (s : EditorState ℚ) :
    (∃ i ≤ blocks.length, IsFirstFree blocks (fun i => gridPosition (i : Int)) i ∧
      nextFreePosition blocks = gridPosition (i : Int)) ∧
    (∀ source : Block ℚ, ∃ k ≤ blocks.length, IsFirstFree blocks (rowBelow source) k ∧
      positionBelow source blocks = some (rowBelow source k)) ∧
    (∀ b e, s.addBlock b = .ok e → e.ok = true → ∃ others place,
      e.state.blocks = others ++ [{ b with position := place }] ∧
      others.map Block.outline = s.blocks.map Block.outline ∧ ∀ old ∈ s.blocks, ¬ Overlap old.position place) ∧
    ∀ t, ReflTransGen Arranges s t → Spread s.blocks → Spread t.blocks := by
  refine ⟨exists_nextFreePosition blocks, fun source => exists_positionBelow source blocks, fun b e h hok => ?_,
    fun t hrun hs => spread_of_run hrun hs⟩
  rcases addBlock_eq_ok h with ⟨hrefused, -⟩ | h
  · rw [hrefused] at hok
    cases hok
  · exact placeBlock_apart h

theorem blocks_stay_apart_below :
    let main : Block ℚ := {
      id := "main", type := .menu, position := ⟨100, 100⟩, next := []
      config := [("prompt", .str "Press 1"), ("options", .obj [("1", .null)])] }
    let desk : Block ℚ := {
      id := "desk", type := .forward, position := ⟨221 / 2, 250⟩, next := []
      config := [("to", .str "+15551230001")] }
    let hello : Block ℚ := { id := "hello", type := .say, position := ⟨0, 0⟩, next := [], config := [] }
    let s : EditorState ℚ := { blocks := [main, desk] }
    let pending : EditorState ℚ := { s with connectingFrom := some ("main" : Text), connectionMode := true }
    Spread s.blocks ∧ ∃ below deleted, pending.addBlock hello = .ok below ∧
      below.state.deleteBlock (.str "main") = .ok deleted ∧
      below.state.blocks.map Block.position = [⟨100, 100⟩, ⟨221 / 2, 250⟩, ⟨320, 260⟩] ∧
      (∀ old ∈ pending.blocks, ¬ Overlap old.position ⟨320, 260⟩) ∧ Spread deleted.state.blocks := by
  intro main desk hello s pending
  have hs : Spread s.blocks := by decide +kernel
  have hfirst : IsFirstFree s.blocks (rowBelow main) 1 := ⟨by decide +kernel, by decide +kernel⟩
  have hput : pending.addBlock hello = _ := placeBlock_of_place (s := pending) (b := hello) rfl (positionBelow_eq hfirst)
  have hrun : ((pending.addBlock hello).toOption.bind fun e => (e.state.deleteBlock (.str "main")).toOption.map fun _ =>
      (e.ok, e.state.blocks.map Block.position)) =
        some (true, [⟨100, 100⟩, ⟨221 / 2, 250⟩, ⟨320, 260⟩]) := by
    rw [hput]
    decide +kernel
  obtain ⟨below, hadded, hrun⟩ := Option.bind_eq_some_iff.mp hrun
  obtain ⟨deleted, hdeleted, hrun⟩ := Option.map_eq_some_iff.mp hrun
  have hbelow := Outcome.eq_ok_of_toOption hadded
  have hdelete := Outcome.eq_ok_of_toOption hdeleted
  obtain ⟨hok, hpositions⟩ := Prod.mk.inj hrun
  refine ⟨hs, below, deleted, hbelow, hdelete, hpositions, ?_, ?_⟩
  · obtain ⟨others, place, hblocks, -, hapart⟩ := (blocks_stay_apart s.blocks pending).2.2.1 hello below hbelow hok
    have hlast := congrArg List.getLast? hpositions
    rw [hblocks, List.map_append, List.map_singleton, List.getLast?_concat] at hlast
    obtain rfl : place = ⟨320, 260⟩ := Option.some.inj hlast
    exact hapart
  · have hsteps : ReflTransGen Arranges s deleted.state :=
      ((ReflTransGen.single (.begins (e := ⟨pending, some .connectionStarted, none⟩) (.str "main") rfl)).tail (.adds hello hbelow)).tail (.deletes (.str "main") hdelete)
    exact (blocks_stay_apart s.blocks s).2.2.2 _ hsteps hs

end EditorState
end Switchboard
