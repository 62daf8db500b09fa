import Switchboard.Proofs.Store.Database

/-! # Saves that replace nothing

A save that is not to replace another flow is refused where the number of its flow has the row of another one, and
nowhere else, unless the flow cannot be written. Where it is refused the table stays as it was, also if the flow would
have left a row. Where it is not, the id of the save has one row, in the slot of the flow, and the rows with other ids
stay as they are.
-/
namespace Switchboard.Store

namespace FlowTable

variable {table table' : FlowTable} {flow saved : CallFlow} {row new : FlowRow} {now : Text} {supply : Supply}

theorem filter_of_mem {α β : Type} {key : α → β} {items : List α} (hk : (items.map key).Nodup) {a : α}
    (ha : a ∈ items) {p : α → Bool} (hp : ∀ b, p b = true ↔ key b = key a) : items.filter p = [a] := by
  induction items with
  | nil => exact absurd ha List.not_mem_nil
  | cons b rest ih =>
    obtain ⟨hnew, hrest⟩ := List.nodup_cons.mp hk
    rcases List.mem_cons.mp ha with rfl | ha
    · have hnone : rest.filter p = [] := by
        refine List.filter_eq_nil_iff.mpr fun c hc hpc => hnew ?_
        exact List.mem_map.mpr ⟨c, hc, (hp c).mp hpc⟩
      rw [List.filter_cons_of_pos ((hp a).mpr rfl), hnone]
    · have hother : ¬p b = true := by
        intro hpb
        exact hnew ((hp b).mp hpb ▸ List.mem_map_of_mem ha)
      rw [List.filter_cons_of_neg hother, ih hrest ha]

theorem revised_of_id_ne {old : FlowRow} (h : old.id ≠ new.id) : revised new false old = old := by
  simp [revised, h]

theorem upsert_filter_id (hu : upsert table new false = .ok table') :
    table'.filter (fun row => row.id != new.id) = table.filter fun row => row.id != new.id := by
  rcases upsert_cases hu with ⟨-, rfl⟩ | ⟨-, -, rfl⟩
  · rw [List.filter_map]
    simp only [Function.comp_def, revised_id]
    calc (table.filter fun row => row.id != new.id).map (revised new false)
        = (table.filter fun row => row.id != new.id).map id :=
          List.map_congr_left fun old hold => revised_of_id_ne (bne_iff_ne.mp (List.mem_filter.mp hold).2)
      _ = table.filter fun row => row.id != new.id := List.map_id _
  · simp [List.filter_append]

theorem vacated_filter_id (table : FlowTable) (flow : CallFlow) (supply : Supply) :
    (vacated table flow).filter (fun row => row.id != saveId table flow supply) =
      table.filter fun row => row.id != saveId table flow supply := by
  unfold vacated saveId
  cases ownId? table flow with
  | none => rfl
  | some id =>
    rw [Option.getD_some]
    dsimp only
    rw [retire, List.filter_filter]
    refine List.filter_congr fun row _ => ?_
    cases hid : row.id == id <;> simp [bne, hid]

theorem saved_row (h : (save table flow false now supply).1 = .ok (saved, table')) :
    ∃ row, rowFor? table' flow.owner flow.phoneNumber = some row ∧ row.toFlow = .ok saved ∧
      row.id = saveId table flow supply := by
  rw [save_fst] at h
  obtain ⟨_, -, h⟩ := Outcome.bind_eq_ok.mp h
  obtain ⟨kept, -, h⟩ := Outcome.bind_eq_ok.mp h
  cases hr : rowFor? kept flow.owner flow.phoneNumber with
  | none =>
    simp only [hr] at h
    cases h
  | some row =>
    simp only [hr, Outcome.bind_eq_ok] at h
    obtain ⟨stored, hs, h⟩ := h
    split at h
    · obtain ⟨_, h, -⟩ := Outcome.bind_eq_ok.mp h
      cases h
    · rename_i hsame
      cases h
      exact ⟨row, hr, hs, by simpa using hsame⟩

/-- Where the number has the row of another flow, the save of a flow that can be stored is refused. -/
theorem save_taken (hw : WellFormed table) (hs : Stored table) (hf : Fresh table flow supply)
    (hstorable : storable flow (entry table flow now supply) = .ok ())
    (hold : rowFor? table flow.owner flow.phoneNumber = some row) (hne : row.id ≠ saveId table flow supply) :
    (save table flow false now supply).1 = .error (.conflict flow.phoneNumber row.id) := by
  cases h : (save table flow false now supply).1 with
  | error fault =>
    obtain ⟨-, old, hold', -, rfl⟩ := save_refused hw hs hf hstorable h
    rw [hold, Option.some.injEq] at hold'
    rw [hold']
  | ok result =>
    obtain ⟨saved, table'⟩ := result
    obtain ⟨row', hr, -, hid⟩ := saved_row h
    rw [← rowFor?_vacated] at hold
    have hrevised := rowFor?_upsert_of_some hold (save_eq_ok h).1
    rw [Option.some.inj (hr.symm.trans hrevised), revised_id] at hid
    exact absurd hid hne

theorem save_refused_iff (hw : WellFormed table) (hs : Stored table) (hf : Fresh table flow supply)
    (now existing : Text) : (save table flow false now supply).1 = .error (.conflict flow.phoneNumber existing) ↔
      storable flow (entry table flow now supply) = .ok () ∧ existing ≠ saveId table flow supply ∧
      ∃ row ∈ table, row.slot = (flow.owner, flow.phoneNumber) ∧ row.id = existing := by
  constructor
  · intro h
    have hstorable : storable flow (entry table flow now supply) = .ok () := by
      cases hcase : storable flow (entry table flow now supply) with
      | ok _ => rfl
      | error cause =>
        rw [save_fst, hcase] at h
        cases h
        exact absurd hcase storable_ne_conflict
    obtain ⟨-, old, hold, hne, hfault⟩ := save_refused hw hs hf hstorable h
    cases hfault
    obtain ⟨hmem, hslot⟩ := (rowFor?_eq_some_iff hw).mp hold
    exact ⟨hstorable, hne, old, hmem, hslot, rfl⟩
  · rintro ⟨hstorable, hne, row, hmem, hslot, rfl⟩
    exact save_taken hw hs hf hstorable ((rowFor?_eq_some_iff hw).mpr ⟨hmem, hslot⟩) hne

/-- A save that replaces nothing leaves one row under its id, and all rows under other ids. -/
theorem save_rows (hw : WellFormed table) (h : (save table flow false now supply).1 = .ok (saved, table')) :
    ∃ row, table'.filter (fun r => r.id == saveId table flow supply) = [row] ∧
      row.slot = (flow.owner, flow.phoneNumber) ∧ row.toFlow = .ok saved ∧
      table'.filter (fun r => r.id != saveId table flow supply) =
        table.filter fun r => r.id != saveId table flow supply := by
  obtain ⟨row, hr, hsaved, hid⟩ := saved_row h
  have hw' := save_wellFormed hw h
  obtain ⟨hmem, hslot⟩ := (rowFor?_eq_some_iff hw').mp hr
  have hother : table'.filter (fun r => r.id != saveId table flow supply) =
      (vacated table flow).filter fun r => r.id != saveId table flow supply := upsert_filter_id (save_eq_ok h).1
  refine ⟨row, ?_, hslot, hsaved, hother.trans (vacated_filter_id table flow supply)⟩
  exact filter_of_mem hw'.ids hmem fun r => by rw [beq_iff_eq, hid]

end FlowTable

namespace Database
open FlowTable

variable {db : Database} {flow : CallFlow}

/-- A save that is not to replace another flow is refused where the number of its flow has the row of another one, and
only there; otherwise it fails only where the flow cannot be written. A save that fails leaves the table as it was. One
that succeeds leaves one row under its id, which is in the slot of the flow and has the flow that is given back, and
changes no row under another id. -/
theorem Reachable.save_replaces_nothing (h : Reachable db) (hin : db.hasFlows = true)
    (hf : Fresh db.flows flow db.supply) (now : Text) :
    let id := saveId db.flows flow db.supply
    (∀ existing, (db.saveFlow flow false now).1 = .error (.conflict flow.phoneNumber existing) ↔
      storable flow (entry db.flows flow now db.supply) = .ok () ∧ existing ≠ id ∧
      ∃ row ∈ db.flows, row.slot = (flow.owner, flow.phoneNumber) ∧ row.id = existing) ∧
    (∀ fault db', db.saveFlow flow false now = (.error fault, db') →
      ((∃ existing, fault = .conflict flow.phoneNumber existing) ∨
        storable flow (entry db.flows flow now db.supply) = .error fault) ∧
      db' = { db with supply := db'.supply }) ∧
    ∀ saved db', db.saveFlow flow false now = (.ok saved, db') →
      ∃ row, db'.flows.filter (fun r => r.id == id) = [row] ∧ row.slot = (flow.owner, flow.phoneNumber) ∧
        row.toFlow = .ok saved ∧
        db'.flows.filter (fun r => r.id != id) = db.flows.filter fun r => r.id != id := by
  intro id
  obtain ⟨hw, hs⟩ := h.invariant
  refine ⟨?_, ?_, ?_⟩
  · intro existing
    rw [← save_refused_iff hw hs hf now]
    unfold saveFlow
    rw [if_pos hin]
    split <;> simp_all
  · intro fault db' hsave
    obtain ⟨hdb, ⟨-, hfault⟩ | ⟨hout, -⟩⟩ := saveFlow_eq_error hsave
    · rcases save_eq_error hw hs hf hfault with hunstorable | ⟨-, existing, -, hconflict⟩
      · exact ⟨Or.inr hunstorable, hdb⟩
      · exact ⟨Or.inl ⟨existing, hconflict⟩, hdb⟩
    · rw [hin] at hout
      cases hout
  · intro saved db' hsave
    obtain ⟨flows, hok, rfl, -⟩ := saveFlow_eq_ok hsave
    exact save_rows hw hok

def withTwoFlows : Database :=
  (FlowOperation.save { id := none, owner := "ann", phoneNumber := "+15550002222" } true "t1").apply withOneFlow

theorem Reachable.save_replaces_nothing_moved :
    let moved (number : Text) : CallFlow := {
      id := some (Supply.identifier 1), owner := "ann", phoneNumber := number }
    (withTwoFlows.saveFlow (moved "+15550002222") false "t2").1 =
      .error (.conflict "+15550002222" (Supply.identifier 2)) ∧
    (withTwoFlows.saveFlow (moved "+15550002222") false "t2").2.flows = withTwoFlows.flows ∧
    ∃ saved db' row, withTwoFlows.saveFlow (moved "+15550003333") false "t2" = (.ok saved, db') ∧
      db'.flows.filter (fun r => r.id == (Supply.identifier 1 : Text)) = [row] ∧ row.slot = (("ann" : Text), ("+15550003333" : Text)) := by
  intro moved
  have hreach : Reachable withTwoFlows :=
    .step _ (.step _ (.empty rfl) fun _ => List.not_mem_nil) fun _ => by decide +kernel
  have hfresh (number : Text) : Fresh withTwoFlows.flows (moved number) withTwoFlows.supply :=
    fun _ => by decide +kernel
  have hown (number : Text) : saveId withTwoFlows.flows (moved number) withTwoFlows.supply =
      Supply.identifier 1 := by
    have htaken : saveId withTwoFlows.flows (moved "+15550002222") withTwoFlows.supply = Supply.identifier 1 := by
      decide +kernel
    exact htaken
  have hrow : (rowFor? withTwoFlows.flows "ann" "+15550002222").map FlowRow.id = some (Supply.identifier 2) := by
    decide +kernel
  obtain ⟨other, hother, hid⟩ := Option.map_eq_some_iff.mp hrow
  obtain ⟨hmem, hslot⟩ := (rowFor?_eq_some_iff hreach.invariant.1).mp hother
  obtain ⟨hrefused, hfailed, -⟩ := hreach.save_replaces_nothing rfl (hfresh "+15550002222") "t2"
  obtain ⟨-, -, hmoved⟩ := hreach.save_replaces_nothing rfl (hfresh "+15550003333") "t2"
  have hconflict : (withTwoFlows.saveFlow (moved "+15550002222") false "t2").1 =
      .error (.conflict "+15550002222" (Supply.identifier 2)) := by
    refine (hrefused _).mpr ⟨storable_eq_ok_iff.mpr ?_, ?_, other, hmem, hslot, hid⟩
    · unfold FlowRow.IsEncodable
      decide +kernel
    · rw [hown]
      decide +kernel
  refine ⟨hconflict, ?_, ?_⟩
  · exact congrArg Database.flows (hfailed _ _ (Prod.ext hconflict rfl)).2
  · have hsaves : (withTwoFlows.saveFlow (moved "+15550003333") false "t2").1.toOption.isSome = true := by
      decide +kernel
    cases h : withTwoFlows.saveFlow (moved "+15550003333") false "t2" with
    | mk answer db' =>
      cases answer with
      | error fault =>
        rw [h] at hsaves
        cases hsaves
      | ok saved =>
        obtain ⟨row, hrow, hslot, -⟩ := hmoved saved db' h
        rw [hown] at hrow
        exact ⟨saved, db', row, rfl, hrow, hslot⟩

end Database
end Switchboard.Store
