import Switchboard.Proofs.Store.FlowSaving
import Switchboard.Store.Argument

/-! # The flows of a database

A save that fails changes nothing but the supply of ids. In the databases that saves and deletions reach, the keys
of the table are distinct and its documents are lists; so a save of a flow that can be written is refused only where it
would replace another flow, and it concerns the rows of one owner.
-/
namespace Switchboard.Store.Database
open FlowTable

variable {db db' : Database} {flow saved : CallFlow} {replace : Bool} {now : Text}

theorem saveFlow_eq_ok (h : db.saveFlow flow replace now = (.ok saved, db')) :
    ∃ flows, (db.flows.save flow replace now db.supply).1 = .ok (saved, flows) ∧ db'.flows = flows ∧
      db'.hasFlows = true := by
  unfold saveFlow at h
  split at h
  · rename_i hf
    split at h
    · rename_i flows supply hs
      simp only [Prod.mk.injEq, Except.ok.injEq] at h
      obtain ⟨rfl, rfl⟩ := h
      exact ⟨flows, by rw [hs], rfl, hf⟩
    · cases h
  · cases h

theorem saveFlow_eq_error {fault : Fault} (h : db.saveFlow flow replace now = (.error fault, db')) :
    db' = { db with supply := db'.supply } ∧
    (db.hasFlows = true ∧ (db.flows.save flow replace now db.supply).1 = .error fault ∨
      db.hasFlows = false ∧ fault = .unavailable) := by
  unfold saveFlow at h
  split at h
  · rename_i hf
    split at h
    · cases h
    · rename_i supply hs
      simp only [Prod.mk.injEq, Except.error.injEq] at h
      obtain ⟨rfl, rfl⟩ := h
      exact ⟨rfl, Or.inl ⟨hf, by rw [hs]⟩⟩
  · rename_i hf
    simp only [Prod.mk.injEq, Except.error.injEq] at h
    obtain ⟨rfl, rfl⟩ := h
    refine ⟨?_, Or.inr ⟨Bool.eq_false_iff.mpr hf, rfl⟩⟩
    split <;> rfl

/-- What a save keeps of the table, if it does when it succeeds. -/
theorem saveFlow_flows {P : FlowTable → Prop} (h : P db.flows)
    (hsave : ∀ saved flows, (db.flows.save flow replace now db.supply).1 = .ok (saved, flows) → P flows) :
    P (db.saveFlow flow replace now).2.flows := by
  cases hs : db.saveFlow flow replace now with
  | mk answer after =>
    cases answer with
    | ok saved =>
      obtain ⟨flows, hsaved, rfl, -⟩ := saveFlow_eq_ok hs
      exact hsave saved _ hsaved
    | error fault =>
      rw [(saveFlow_eq_error hs).1]
      exact h

theorem saveFlow_wellFormed (hw : WellFormed db.flows) : WellFormed (db.saveFlow flow replace now).2.flows :=
  saveFlow_flows hw fun _ _ hs => save_wellFormed hw hs

theorem saveFlow_filter_owner (db : Database) (flow : CallFlow) (replace : Bool) (now : Text) :
    (db.saveFlow flow replace now).2.flows.filter (fun row => row.owner != flow.owner) =
      db.flows.filter fun row => row.owner != flow.owner :=
  saveFlow_flows (P := fun table => table.filter (fun row => row.owner != flow.owner) =
    db.flows.filter fun row => row.owner != flow.owner) rfl fun _ _ hs => save_filter_owner hs

theorem flows?_eq_ok {table : FlowTable} (h : db.flows? = .ok table) : table = db.flows := by
  unfold flows? at h
  split at h <;> cases h
  rfl

theorem removeFlow_sublist {id owner : Value} {found : Bool} (h : db.removeFlow id owner = .ok (found, db')) :
    db'.flows.Sublist db.flows := by
  have hdelete {id : Text} {owner : Option Text} (h : db.deleteFlow id owner = .ok (found, db')) :
      db'.flows.Sublist db.flows := by
    obtain ⟨table, htable, h⟩ := Outcome.bind_eq_ok.mp h
    obtain ⟨_, hdelete, h⟩ := Outcome.bind_eq_ok.mp h
    obtain ⟨_, -, hdelete⟩ := Outcome.bind_eq_ok.mp hdelete
    cases hdelete
    cases h
    rw [flows?_eq_ok htable]
    exact List.filter_sublist
  obtain ⟨_, -, h⟩ := Outcome.bind_eq_ok.mp h
  obtain ⟨idText, -, h⟩ := Outcome.bind_eq_ok.mp h
  obtain ⟨ownerText, -, h⟩ := Outcome.bind_eq_ok.mp h
  split at h
  · exact hdelete h
  · exact hdelete h
  · cases h
    exact List.Sublist.refl _

theorem flowWithId_str (hin : db.hasFlows = true) (id : Text) : db.flowWithId (.str id) = db.flows.get id := by
  rw [flowWithId, flows?, if_pos hin]
  cases id with
  | plain s => rfl
  | loose symbols hasHalf => rfl

theorem flowOf_str (hin : db.hasFlows = true) (owner number : Text) :
    db.flowOf (.str owner) (.str number) = db.flows.load owner number := by
  rw [flowOf, flows?, if_pos hin]
  cases owner with
  | plain s => rfl
  | loose symbols hasHalf => rfl

theorem flowWithId_eq_ok {id : Text} {found : CallFlow} (h : db.flowWithId (.str id) = .ok (some found)) :
    ∃ row ∈ db.flows, row.toFlow = .ok found := by
  cases hin : db.hasFlows with
  | false =>
    rw [flowWithId, flows?, hin] at h
    cases h
  | true => exact of_get (flowWithId_str hin id ▸ h)

inductive FlowOperation where
  | save (flow : CallFlow) (replace : Bool) (now : Text)
  | delete (id : Text) (owner : Option Text)

namespace FlowOperation

def apply (db : Database) : FlowOperation → Database
  | save flow replace now => (db.saveFlow flow replace now).2
  | delete id owner =>
    match db.deleteFlow id owner with
    | .ok (_, after) => after
    | .error _ => db

/-- If the operation generates an id, no flow has it. -/
def IsFresh (db : Database) : FlowOperation → Prop
  | save flow _ _ => Fresh db.flows flow db.supply
  | delete _ _ => True

theorem apply_delete_flows {P : FlowTable → Prop} (id : Text) (owner : Option Text) (h : P db.flows)
    (hremove : ∀ p : FlowRow → Bool, P (db.flows.filter p)) : P ((delete id owner).apply db).flows := by
  simp only [apply]
  split
  · rename_i after hdelete
    obtain ⟨table, htable, hdelete⟩ := Outcome.bind_eq_ok.mp hdelete
    obtain ⟨_, hfound, hdelete⟩ := Outcome.bind_eq_ok.mp hdelete
    obtain ⟨_, -, hfound⟩ := Outcome.bind_eq_ok.mp hfound
    cases hfound
    cases hdelete
    rw [flows?_eq_ok htable]
    exact hremove _
  · exact h

theorem apply_flows {P : FlowTable → Prop} (op : FlowOperation) (h : P db.flows)
    (hsave : ∀ flow replace now saved flows,
      (db.flows.save flow replace now db.supply).1 = .ok (saved, flows) → P flows)
    (hremove : ∀ p : FlowRow → Bool, P (db.flows.filter p)) : P (op.apply db).flows := by
  cases op with
  | save flow replace now => exact saveFlow_flows h (hsave flow replace now)
  | delete id owner => exact apply_delete_flows id owner h hremove

theorem apply_wellFormed (op : FlowOperation) (hw : WellFormed db.flows) : WellFormed (op.apply db).flows :=
  op.apply_flows hw (fun _ _ _ _ _ hs => save_wellFormed hw hs) fun _ => hw.sublist List.filter_sublist

theorem apply_stored (op : FlowOperation) (hs : Stored db.flows) : Stored (op.apply db).flows :=
  op.apply_flows hs (fun _ _ _ _ _ h => save_stored hs h) fun _ row hm => hs row (List.mem_filter.mp hm).1

end FlowOperation

/-- The databases that saves and deletions reach from one without flows. -/
inductive Reachable : Database → Prop
  | empty {db : Database} (h : db.flows = []) : Reachable db
  | step {db : Database} (op : FlowOperation) (h : Reachable db) (hf : op.IsFresh db) : Reachable (op.apply db)

theorem Reachable.invariant (h : Reachable db) : WellFormed db.flows ∧ Stored db.flows := by
  induction h with
  | empty h =>
    rw [h]
    exact ⟨.nil, fun row hm => absurd hm List.not_mem_nil⟩
  | step op _ _ ih => exact ⟨op.apply_wellFormed ih.1, op.apply_stored ih.2⟩

/-- In every database that saves and deletions reach, the ids of the flows are distinct and so are their pairs
of owner and number. A save violates no constraint: with the table in reach it fails only where the flow cannot be
written and where the number has another flow that is not to be replaced. It leaves the rows of other owners, whatever
id the flow carries, and no id changes its owner. -/
theorem Reachable.isolated (h : Reachable db) :
    (db.flows.map FlowRow.id).Nodup ∧ (db.flows.map fun row => (row.owner, row.phoneNumber)).Nodup ∧
    ∀ (flow : CallFlow) (replace : Bool) (now : Text), Fresh db.flows flow db.supply →
      (∀ fault, (db.saveFlow flow replace now).1 = .error fault →
        db.hasFlows = true ∧ replace = false ∧ (∃ id, fault = .conflict flow.phoneNumber id) ∨
        db.hasFlows = true ∧ storable flow (entry db.flows flow now db.supply) = .error fault ∨
        db.hasFlows = false ∧ fault = .unavailable) ∧
      (db.saveFlow flow replace now).2.flows.filter (fun row => row.owner != flow.owner) =
        db.flows.filter (fun row => row.owner != flow.owner) ∧
      ∀ row ∈ db.flows, ∀ row' ∈ (db.saveFlow flow replace now).2.flows,
        row'.id = row.id → row'.owner = row.owner := by
  obtain ⟨hw, hs⟩ := h.invariant
  refine ⟨hw.ids, hw.slots, fun flow replace now hf => ⟨?_, ?_, ?_⟩⟩
  · intro fault hfault
    rcases (saveFlow_eq_error (Prod.ext hfault rfl)).2 with ⟨hin, he⟩ | hout
    · rcases save_eq_error hw hs hf he with hunstorable | ⟨hr, id, -, hc⟩
      · exact Or.inr (Or.inl ⟨hin, hunstorable⟩)
      · exact Or.inl ⟨hin, hr, id, hc⟩
    · exact Or.inr (Or.inr hout)
  · exact saveFlow_filter_owner db flow replace now
  · intro row hm row' hm' hid
    exact owner_eq_of_filter_eq hw (saveFlow_wellFormed hw) (saveFlow_filter_owner db flow replace now) hm hm' hid

def withOneFlow : Database :=
  (FlowOperation.save { id := none, owner := "ann", phoneNumber := "+15550001111" } true "t0").apply {}

theorem Reachable.isolated_carriedId :
    withOneFlow.flows.map FlowRow.id = [(Supply.identifier 1 : Text)] ∧
    (withOneFlow.saveFlow { id := some (Supply.identifier 1), owner := "bob", phoneNumber := "+15550002222" }
      true "t1").2.flows.filter (fun row => row.owner != ("bob" : Text)) =
        withOneFlow.flows.filter fun row => row.owner != ("bob" : Text) := by
  have hreach : Reachable withOneFlow := .step _ (.empty rfl) fun _ => List.not_mem_nil
  refine ⟨by decide +kernel, ?_⟩
  refine (hreach.isolated.2.2 { id := some (Supply.identifier 1), owner := "bob", phoneNumber := "+15550002222" }
    true "t1" ?_).2.1
  intro _
  decide +kernel

end Switchboard.Store.Database
