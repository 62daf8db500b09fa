import Switchboard.Proofs.Store.RoundTrip

/-! # Numbers in other spellings

A flow is kept under the normal form of its number, and a number that is looked up is brought into normal form as well.
So it does not matter in which of the spellings that have one normal form a flow is saved, and in which it is looked up.
-/
namespace Switchboard

open PhoneNumber (normalize)
open Text (isDecimalDigit trim)

theorem CallFlow.phoneNumber_of_read {entries : Entries} {flow : CallFlow} {number : Text}
    (hnumber : entries.get? "phone_number" = some (.str number)) (h : CallFlow.read (.obj entries) = .done flow) :
    flow.phoneNumber = normalize number := by
  obtain ⟨v, hv, hread⟩ := Reading.field_eq_done.mp (field_of_read h)
  rw [hnumber, Option.some.injEq] at hv
  subst hv
  exact (Reading.done.inj hread).symm

namespace Store

variable {flow : CallFlow} {now : Text} {a b : Text}

theorem FlowTable.save_replacing {table : FlowTable} {supply : Supply} (hw : WellFormed table)
    (hf : Fresh table flow supply) (hstorable : storable flow (entry table flow now supply) = .ok ()) :
    ∃ saved table', (save table flow true now supply).1 = .ok (saved, table') := by
  have hid : ∀ row ∈ vacated table flow, row.id = (entry table flow now supply).id →
      row.slot = (entry table flow now supply).slot := fun row hm hid => vacated_slot hw hf hm hid
  obtain ⟨kept, hu⟩ := upsert_isOk true hid
  obtain ⟨row, hr, hrow⟩ := rowFor?_of_upsert hu
  have hr : rowFor? kept flow.owner flow.phoneNumber = some row := hr
  have hstored : row.IsStored := hrow (Or.inl rfl) ▸ (entry_isStored : (entry table flow now supply).IsStored)
  obtain ⟨saved, hsaved⟩ := hstored.toFlow
  refine ⟨saved, kept, ?_⟩
  rw [save_fst, hstorable, hu]
  simp only [bind, Except.bind, hr, hsaved]
  rfl

namespace Database

theorem saveFlow_replacing {db : Database} (hin : db.hasFlows = true) (hw : db.flows.WellFormed)
    (hf : FlowTable.Fresh db.flows flow db.supply)
    (hstorable : FlowTable.storable flow (FlowTable.entry db.flows flow now db.supply) = .ok ()) :
    ∃ saved, (db.saveFlow flow true now).1 = .ok saved := by
  obtain ⟨saved, flows, hs⟩ : ∃ saved flows, (db.flows.save flow true now db.supply).1 = .ok (saved, flows) :=
    FlowTable.save_replacing hw hf hstorable
  refine ⟨saved, ?_⟩
  rw [saveFlow, if_pos hin]
  cases hsave : db.flows.save flow true now db.supply with
  | mk answer supply =>
    rw [hsave] at hs
    obtain rfl : answer = .ok (saved, flows) := hs
    rfl

theorem flowOf_normalize (db : Database) (owner : Value) (h : normalize a = normalize b) :
    db.flowOf owner (.str a) = db.flowOf owner (.str b) := by
  have hload (table : FlowTable) (owner : Text) : table.load owner a = table.load owner b := by
    rw [FlowTable.load, FlowTable.load, h]
  have hnull (t : Text) : nullOr (.str t) = pure (some t) := rfl
  simp only [flowOf, hnull, pure_bind]
  refine bind_congr fun table => bind_congr fun ownerText => ?_
  cases ownerText with
  | none => rfl
  | some owner => exact hload table owner

/-- Numbers have a canonical form, and flows are found by it. It holds the digits of the number in order, after a plus
sign if the first character that is a digit or a plus sign is one, or it is the number without the blanks around it
if it has no such character; it is its own canonical form. A flow that is saved under one text is found under each
text with the same form, and the save does succeed if it may replace what is there and the flow can be written. -/
theorem found_in_any_spelling :
    (∀ s, normalize (normalize s) = normalize s) ∧
    (∀ s c, s.chars.find? (fun c => isDecimalDigit c || c == '+') = some c →
      normalize s = String.ofList ((if c = '+' then ['+'] else []) ++ s.chars.filter isDecimalDigit)) ∧
    (∀ s, s.chars.find? (fun c => isDecimalDigit c || c == '+') = none → normalize s = trim s) ∧
    ∀ a b : Text, normalize a = normalize b → ∀ (entries : Entries) (flow : CallFlow),
      entries.get? "phone_number" = some (.str a) → CallFlow.read (.obj entries) = .done flow →
      ∀ (db : Database) (now : Text),
        (∀ replace saved db', db.saveFlow flow replace now = (.ok saved, db') →
          db'.flowOf (.str flow.owner) (.str b) = .ok (some saved)) ∧
        (db.hasFlows = true → db.flows.WellFormed → FlowTable.Fresh db.flows flow db.supply →
          FlowTable.storable flow (FlowTable.entry db.flows flow now db.supply) = .ok () →
          ∃ saved, (db.saveFlow flow true now).1 = .ok saved) := by
  refine ⟨PhoneNumber.normalize_normalize, fun s c h => PhoneNumber.normalize_of_find?_eq_some h,
    fun s h => PhoneNumber.normalize_of_find?_eq_none h, ?_⟩
  · intro a b hsame entries flow hnumber hread db now
    refine ⟨fun replace saved db' hsave => ?_, saveFlow_replacing⟩
    have hnormal := CallFlow.isNormal_of_read hread
    have hspelled : normalize b = normalize flow.phoneNumber := by
      rw [hnormal.eq, CallFlow.phoneNumber_of_read hnumber hread, hsame]
    rw [flowOf_normalize db' _ hspelled]
    exact flowOf_of_saveFlow hnormal hsave

theorem found_in_any_spelling_marks :
    let spelled := " (+1) 555 000-2222+"
    let other := "tel. +1555+0002222"
    normalize spelled = normalize other ∧
    ∃ flow saved db', CallFlow.read (.obj [("owner", .str "ann"), ("phone_number", .str spelled)]) = .done flow ∧
      withOneFlow.saveFlow flow true "t1" = (.ok saved, db') ∧
      db'.flowOf (.str flow.owner) (.str other) = .ok (some saved) := by
  intro spelled other
  have hsame : normalize spelled = normalize other := by decide +kernel
  have hreach : Reachable withOneFlow := .step _ (.empty rfl) fun _ => List.not_mem_nil
  have hnew : (withOneFlow.supply.next : Text) ∉ withOneFlow.flows.map FlowRow.id := by decide +kernel
  have hreads : (CallFlow.read (.obj [("owner", .str "ann"), ("phone_number", .str spelled)])).outcome.toOption.any
      (fun flow => flow.document.isWritable &&
        (FlowTable.entry withOneFlow.flows flow "t1" withOneFlow.supply).texts.all Text.isPlain) = true := by
    decide +kernel
  obtain ⟨flow, hflow, hwritten⟩ := (Option.any_eq_true _ _).mp hreads
  rw [Bool.and_eq_true, List.all_eq_true] at hwritten
  have hread := Reading.outcome_eq_ok.mp (Outcome.eq_ok_of_toOption hflow)
  obtain ⟨hfound, hsaves⟩ := found_in_any_spelling.2.2.2 spelled other hsame _ flow rfl hread withOneFlow "t1"
  obtain ⟨saved, hsaved⟩ := hsaves rfl hreach.invariant.1 (fun _ => hnew) (FlowTable.storable_eq_ok_iff.mpr hwritten)
  exact ⟨hsame, flow, saved, _, hread, Prod.ext hsaved rfl, hfound true saved _ (Prod.ext hsaved rfl)⟩

end Database
end Store
end Switchboard
