import Switchboard.Proofs.Outcome
import Switchboard.Proofs.Text.Lowercase
import Switchboard.Store.Argument
import Mathlib.Data.List.Nodup

/-! # Calls that have ended

The log takes the status of a call as it is reported, and it notes the end of the call with a status that is final. So
a call has an end exactly when its status is final, as long as no call is reported to go on after its end and none
begins with a final status. Whatever is told of calls, a step that is no such thing keeps this, and one that is
breaks it.
-/
namespace Switchboard.Store

namespace CallRow

def IsFinal (row : CallRow) : Prop := row.status ∈ CallLog.finalStatuses

instance : DecidablePred IsFinal := fun row => inferInstanceAs (Decidable (row.status ∈ CallLog.finalStatuses))

def EndsFinally (row : CallRow) : Prop := row.endedAt.isSome = true ↔ row.IsFinal

instance : DecidablePred EndsFinally := fun row => inferInstanceAs (Decidable (_ ↔ row.IsFinal))

end CallRow

inductive LogChange where
  | start (call : NewCall)
  | progress (sid : String) (block : Option String)
  | status (sid status : String) (duration : Cell)

inductive CallOperation where
  | start (entry : Value)
  | progress (sid block : Value)
  | report (sid status duration : Value)

namespace CallLog

variable {log : CallLog} {sid status now : String} {duration : Cell} {row : CallRow} {f : CallRow → CallRow}

theorem row?_eq_none_iff : log.row? sid = none ↔ sid ∉ log.map CallRow.callSid := by
  simp only [row?, List.find?_eq_none, beq_iff_eq, List.mem_map]
  grind

theorem sids_modify (hf : ∀ row, (f row).callSid = row.callSid) :
    (log.modify sid f).map CallRow.callSid = log.map CallRow.callSid := by
  rw [modify, List.map_map]
  refine List.map_congr_left fun row _ => ?_
  rw [Function.comp_apply]
  split
  · exact hf row
  · rfl

theorem forall_mem_modify {P : CallRow → Prop} : (∀ row ∈ log.modify sid f, P row) ↔
    ∀ row ∈ log, if row.callSid = sid then P (f row) else P row := by
  rw [modify, List.forall_mem_map]
  refine forall₂_congr fun row _ => ?_
  by_cases hrow : row.callSid = sid <;> simp [hrow]

theorem sids_progress (block : Option String) :
    (log.progress sid block).map CallRow.callSid = log.map CallRow.callSid := by
  refine sids_modify ?_
  intro row
  rfl

theorem callSid_withStatus (status : String) (duration : Cell) (now : String) (row : CallRow) :
    (withStatus status duration now row).callSid = row.callSid := rfl

theorem endsFinally_progress (h : ∀ row ∈ log, row.EndsFinally) (sid : String) (block : Option String) :
    ∀ row ∈ log.progress sid block, row.EndsFinally := by
  refine forall_mem_modify.mpr fun row hm => ?_
  split
  · exact h row hm
  · exact h row hm

theorem statusOf_str (s : String) : statusOf (.str s) = .ok (Text.lowercase s) := by
  by_cases hs : s = ""
  · subst hs
    rfl
  · simp [statusOf, Value.orElse, Value.truthy, hs, Text.encoded, Except.map]

theorem endsFinally_withStatus (h : row.EndsFinally) :
    (withStatus status duration now row).EndsFinally ↔ (row.IsFinal → status ∈ finalStatuses) := by
  unfold CallRow.EndsFinally CallRow.IsFinal at *
  by_cases hs : status ∈ finalStatuses
  · simp [withStatus, hs]
  · -- the end stays as it is, and so it fits only a call that had none
    simp [withStatus, hs, ← h]

theorem start_of_some (h : log.row? sid = some row) {call : NewCall} (hsid : call.callSid = sid) (now : String) :
    (log.start call now).2 = log.progress sid call.lastBlockId := by
  rw [start, hsid, h]

theorem start_of_none {call : NewCall} (h : log.row? call.callSid = none) (now : String) :
    (log.start call now).2 = log ++ [call.toRow now] := by
  rw [start, h]

end CallLog

namespace LogChange

variable {log : CallLog} {change : LogChange} {now sid : String} {row : CallRow}

def apply (log : CallLog) (now : String) : LogChange → CallLog
  | .start call => (log.start call now).2
  | .progress sid block => log.progress sid block
  | .status sid reported duration => log.modify sid (CallLog.withStatus reported duration now)

/-- Whether a change takes no call back that has ended, and adds none that has ended before it begins. -/
def IsOrderly (log : CallLog) : LogChange → Prop
  | .start call =>
    log.row? call.callSid = none → (call.status.filter (· != "")).getD "in-progress" ∉ CallLog.finalStatuses
  | .progress _ _ => True
  | .status sid reported _ =>
    ∀ row ∈ log, row.callSid = sid → row.IsFinal → reported ∈ CallLog.finalStatuses

instance : Decidable (change.IsOrderly log) :=
  match change with
  | .start call => inferInstanceAs (Decidable (log.row? call.callSid = none → _))
  | .progress _ _ => inferInstanceAs (Decidable True)
  | .status _ _ _ => inferInstanceAs (Decidable (∀ row ∈ log, _))

theorem nodup_apply (change : LogChange) (now : String) (h : (log.map CallRow.callSid).Nodup) :
    ((change.apply log now).map CallRow.callSid).Nodup := by
  cases change with
  | start call =>
    cases hrow : log.row? call.callSid with
    | none =>
      rw [apply, CallLog.start_of_none hrow, List.map_append]
      refine h.append (List.nodup_singleton _) ?_
      exact List.disjoint_singleton.mpr (CallLog.row?_eq_none_iff.mp hrow)
    | some row =>
      rw [apply, CallLog.start_of_some hrow rfl, CallLog.sids_progress]
      exact h
  | progress sid block =>
    rw [apply, CallLog.sids_progress]
    exact h
  | status sid reported duration =>
    rw [apply, CallLog.sids_modify fun row => CallLog.callSid_withStatus reported duration now row]
    exact h

/-- Where calls have an end exactly when their status is final, they do so after a change if and only if it is
orderly. -/
theorem endsFinally_apply_iff (h : ∀ row ∈ log, row.EndsFinally) (now : String) :
    (∀ row ∈ change.apply log now, row.EndsFinally) ↔ change.IsOrderly log := by
  cases change with
  | start call =>
    cases hrow : log.row? call.callSid with
    | none =>
      rw [apply, CallLog.start_of_none hrow, List.forall_mem_append, List.forall_mem_singleton]
      have hadded : (call.toRow now).EndsFinally ↔ ¬ (call.toRow now).IsFinal := by
        simp [CallRow.EndsFinally, NewCall.toRow]
      rw [hadded]
      exact ⟨fun hends _ => hends.2, fun horderly => ⟨h, horderly hrow⟩⟩
    | some row =>
      rw [apply, CallLog.start_of_some hrow rfl]
      refine iff_of_true (CallLog.endsFinally_progress h _ _) ?_
      intro hnone
      cases hrow.symm.trans hnone
  | progress sid block => exact iff_of_true (CallLog.endsFinally_progress h sid block) trivial
  | status sid reported duration =>
    rw [apply, CallLog.forall_mem_modify, IsOrderly]
    refine forall₂_congr fun row hm => ?_
    by_cases hsid : row.callSid = sid
    · rw [if_pos hsid, CallLog.endsFinally_withStatus (h row hm)]
      exact ⟨fun hends _ => hends, fun horderly => horderly hsid⟩
    · rw [if_neg hsid]
      exact iff_of_true (h row hm) fun heq => absurd heq hsid

theorem isFinal_apply (ho : change.IsOrderly log) (hm : row ∈ log) (hfinal : row.IsFinal) (now : String) :
    ∃ after ∈ change.apply log now, after.callSid = row.callSid ∧ after.IsFinal := by
  have hprogress (other : String) (block : Option String) :
      ∃ after ∈ log.progress other block, after.callSid = row.callSid ∧ after.IsFinal := by
    refine ⟨_, List.mem_map_of_mem hm, ?_⟩
    split
    · exact ⟨rfl, hfinal⟩
    · exact ⟨rfl, hfinal⟩
  cases change with
  | start call =>
    cases hknown : log.row? call.callSid with
    | none =>
      rw [apply, CallLog.start_of_none hknown]
      exact ⟨row, List.mem_append_left _ hm, rfl, hfinal⟩
    | some known =>
      rw [apply, CallLog.start_of_some hknown rfl]
      exact hprogress _ _
  | progress other block => exact hprogress other block
  | status other reported duration =>
    refine ⟨_, List.mem_map_of_mem hm, ?_⟩
    split
    · rename_i hsid
      exact ⟨rfl, ho row hm (beq_iff_eq.mp hsid) hfinal⟩
    · exact ⟨rfl, hfinal⟩

end LogChange

namespace CallOperation

variable {db after : Database} {op : CallOperation} {now : String}

def perform (db : Database) (now : String) : CallOperation → Outcome Database
  | .start entry => Prod.snd <$> db.beginCall entry now
  | .progress sid block => db.moveCall sid block
  | .report sid status duration => Prod.snd <$> db.reportCall sid status duration now

/-- What an operation writes into a log, if anything: nothing is written of a call that has no name or is not
known. -/
def change? (log : CallLog) : CallOperation → Outcome (Option LogChange)
  | .start entry => do
    let entries ← Database.entriesOf entry
    let name ← NewCall.nameOf entries
    let number ← NewCall.numberOf entries
    let call ← NewCall.ofEntries name number entries
    return some (.start call)
  | .progress sid block => do
    let blockText ← columnText 1 block
    let sidText ← columnText 2 sid
    return sidText.map fun name => .progress name blockText
  | .report sid status duration => do
    match ← columnText 1 sid with
    | none => return none
    | some name =>
      if (log.row? name).isNone then return none
      let reported ← CallLog.statusOf status
      let length ← Cell.ofValue 2 duration
      return some (.status name reported length.toIntegerColumn)

def IsOrderly (log : CallLog) (op : CallOperation) : Prop :=
  ∀ change, op.change? log = .ok (some change) → change.IsOrderly log

def written (db : Database) (now : String) (change : Option LogChange) : Database :=
  { db with calls := change.elim db.calls fun change => change.apply db.calls now }

theorem calls?_eq_ok_iff {calls : CallLog} : db.calls? = .ok calls ↔ db.hasCalls = true ∧ db.calls = calls := by
  unfold Database.calls?
  split <;> simp_all

theorem hasCalls_of_perform (h : op.perform db now = .ok after) : db.hasCalls = true := by
  have hreach : ∃ calls, db.calls? = .ok calls := by
    cases op with
    | start entry =>
      obtain ⟨_, h, -⟩ := Outcome.map_eq_ok.mp h
      obtain ⟨_, -, h⟩ := Outcome.bind_eq_ok.mp h
      obtain ⟨_, -, h⟩ := Outcome.bind_eq_ok.mp h
      obtain ⟨_, -, h⟩ := Outcome.bind_eq_ok.mp h
      obtain ⟨calls, hcalls, -⟩ := Outcome.bind_eq_ok.mp h
      exact ⟨calls, hcalls⟩
    | progress sid block =>
      obtain ⟨calls, hcalls, -⟩ := Outcome.bind_eq_ok.mp h
      exact ⟨calls, hcalls⟩
    | report sid status duration =>
      obtain ⟨_, h, -⟩ := Outcome.map_eq_ok.mp h
      obtain ⟨calls, hcalls, -⟩ := Outcome.bind_eq_ok.mp h
      exact ⟨calls, hcalls⟩
  obtain ⟨calls, hcalls⟩ := hreach
  exact (calls?_eq_ok_iff.mp hcalls).1

theorem perform_eq (hreach : db.hasCalls = true) (op : CallOperation) (now : String) :
    op.perform db now = written db now <$> op.change? db.calls := by
  have hcalls : db.calls? = pure db.calls := calls?_eq_ok_iff.mpr ⟨hreach, rfl⟩
  cases op with
  | start entry =>
    simp only [perform, change?, Database.beginCall, Database.startCall, hcalls, pure_bind, map_bind, map_pure]
    rfl
  | progress sid block =>
    simp only [perform, change?, Database.moveCall, Database.progressCall, hcalls, pure_bind, map_bind, map_pure]
    refine bind_congr fun blockText => bind_congr fun name => ?_
    cases name <;> rfl
  | report sid status duration =>
    simp only [perform, change?, Database.reportCall, Database.updateCall, CallLog.update, hcalls, pure_bind, map_bind]
    refine bind_congr fun name => ?_
    cases name with
    | none => rfl
    | some name =>
      by_cases hunknown : (db.calls.row? name).isNone = true
      · simp only [hunknown, if_true]
        rfl
      · simp only [hunknown, if_false, Bool.false_eq_true, bind_assoc, pure_bind, map_bind, map_pure]
        rfl

theorem perform_eq_ok (h : op.perform db now = .ok after) :
    ∃ change, op.change? db.calls = .ok change ∧ after = written db now change := by
  rw [perform_eq (hasCalls_of_perform h)] at h
  obtain ⟨change, hchange, hafter⟩ := Outcome.map_eq_ok.mp h
  exact ⟨change, hchange, hafter.symm⟩

theorem perform_of_change? (hreach : db.hasCalls = true) {change : Option LogChange}
    (h : op.change? db.calls = .ok change) (now : String) : op.perform db now = .ok (written db now change) := by
  rw [perform_eq hreach, h]
  rfl

theorem isOrderly_of_change? {log : CallLog} {change : LogChange} (h : op.change? log = .ok (some change)) :
    op.IsOrderly log ↔ change.IsOrderly log := by
  refine ⟨fun ho => ho change h, ?_⟩
  intro ho written hwritten
  cases h.symm.trans hwritten
  exact ho

theorem nodup_perform (h : op.perform db now = .ok after) (hsids : (db.calls.map CallRow.callSid).Nodup) :
    (after.calls.map CallRow.callSid).Nodup := by
  obtain ⟨change, -, rfl⟩ := perform_eq_ok h
  cases change with
  | none => exact hsids
  | some change => exact change.nodup_apply now hsids

theorem endsFinally_perform_iff (h : op.perform db now = .ok after) (hends : ∀ row ∈ db.calls, row.EndsFinally) :
    (∀ row ∈ after.calls, row.EndsFinally) ↔ op.IsOrderly db.calls := by
  obtain ⟨change, hchange, rfl⟩ := perform_eq_ok h
  cases change with
  | none =>
    refine iff_of_true hends fun change hsome => ?_
    cases hchange.symm.trans hsome
  | some change =>
    rw [isOrderly_of_change? hchange]
    exact LogChange.endsFinally_apply_iff hends now

theorem isFinal_perform (h : op.perform db now = .ok after) (ho : op.IsOrderly db.calls) {row : CallRow}
    (hm : row ∈ db.calls) (hfinal : row.IsFinal) :
    ∃ row' ∈ after.calls, row'.callSid = row.callSid ∧ row'.IsFinal := by
  obtain ⟨change, hchange, rfl⟩ := perform_eq_ok h
  cases change with
  | none => exact ⟨row, hm, rfl, hfinal⟩
  | some change => exact LogChange.isFinal_apply (ho change hchange) hm hfinal now

end CallOperation

/-- A database that comes from another by what is told of calls, in any order and at any times. An operation that
fails changes nothing. -/
inductive Told (first : Database) : Database → Prop
  | nothing : Told first first
  | more {db after : Database} {op : CallOperation} {now : String} (h : Told first db)
      (ho : op.IsOrderly db.calls) (hop : op.perform db now = .ok after) : Told first after

namespace Told

variable {first db last : Database}

theorem write (h : Told first db) (hreach : db.hasCalls = true) {op : CallOperation} {change : LogChange}
    (hop : op.change? db.calls = .ok (some change)) (ho : change.IsOrderly db.calls) (now : String) :
    Told first { db with calls := change.apply db.calls now } :=
  .more h ((CallOperation.isOrderly_of_change? hop).mpr ho) (CallOperation.perform_of_change? hreach hop now)

theorem nodup (h : Told first db) (hfirst : (first.calls.map CallRow.callSid).Nodup) :
    (db.calls.map CallRow.callSid).Nodup := by
  induction h with
  | nothing => exact hfirst
  | more _ _ hop ih => exact CallOperation.nodup_perform hop ih

theorem endsFinally (h : Told first db) (hfirst : ∀ row ∈ first.calls, row.EndsFinally) :
    ∀ row ∈ db.calls, row.EndsFinally := by
  induction h with
  | nothing => exact hfirst
  | more _ ho hop ih => exact (CallOperation.endsFinally_perform_iff hop ih).mpr ho

theorem isFinal (h : Told db last) {row : CallRow} (hm : row ∈ db.calls) (hfinal : row.IsFinal) :
    ∃ row' ∈ last.calls, row'.callSid = row.callSid ∧ row'.IsFinal := by
  induction h with
  | nothing => exact ⟨row, hm, rfl, hfinal⟩
  | more _ ho hop ih =>
    obtain ⟨row', hm', hsid', hfinal'⟩ := ih
    obtain ⟨later, hlater, hsid, hlast⟩ := CallOperation.isFinal_perform hop ho hm' hfinal'
    exact ⟨later, hlater, hsid.trans hsid', hlast⟩

/-- Each call has one row, which has an end exactly when its status is final; once final, the status stays final.
This holds whatever is told of calls, as long as every operation is orderly, and the first one that is not ends
it. -/
theorem finished_stays_finished (hempty : first.calls = []) (h : Told first db) (hlater : Told db last) :
    (db.calls.map CallRow.callSid).Nodup ∧
    (∀ row ∈ db.calls, (row.endedAt.isSome = true ↔ row.status ∈ CallLog.finalStatuses)) ∧
    (∀ row ∈ db.calls, row.status ∈ CallLog.finalStatuses →
      ∃ row' ∈ last.calls, row'.callSid = row.callSid ∧ row'.status ∈ CallLog.finalStatuses) ∧
    ∀ (op : CallOperation) (now : String) (after : Database), op.perform db now = .ok after →
      ((∀ row ∈ after.calls, (row.endedAt.isSome = true ↔ row.status ∈ CallLog.finalStatuses)) ↔
        op.IsOrderly db.calls) := by
  have hsids := h.nodup (by simp [hempty])
  have hends := h.endsFinally (by simp [hempty])
  refine ⟨hsids, hends, fun row hm hfinal => hlater.isFinal hm hfinal, ?_⟩
  intro op now after hop
  exact CallOperation.endsFinally_perform_iff hop hends

def hungUp : CallRow where
  callSid := "CA1"
  direction := "inbound"
  status := "completed"
  duration := .integer 45
  startedAt := "10:00:00"
  endedAt := some "10:00:45"

def report (status : String) : CallOperation := .report (.str "CA1") (.str status) (.str "45")

theorem change?_report (status : String) (hsmall : status.toList.all Text.isSmall = true) (log : CallLog)
    (hknown : (log.row? "CA1").isNone = false) :
    (report status).change? log = .ok (some (.status "CA1" status (.integer 45))) := by
  have hreported : CallLog.statusOf (.str status) = .ok status := by
    rw [CallLog.statusOf_str, Text.lowercase_eq_self hsmall]
  simp only [report, CallOperation.change?, columnText, Cell.ofValue, Text.encoded, Except.map, Cell.text?, bind,
    Except.bind, hknown, Bool.false_eq_true, if_false, hreported]
  rfl

theorem told_hungUp : Told {} { calls := [hungUp] } := by
  have hbegins : (CallOperation.start (.obj [("call_sid", .str "CA1")])).change? [] =
      .ok (some (.start { callSid := "CA1" })) := rfl
  have hbegun := write (.nothing : Told {} {}) rfl hbegins (by decide) "10:00:00"
  exact write hbegun rfl (change?_report "completed" (by decide) _ (by decide)) (by decide) "10:00:45"

theorem finished_stays_finished_hungUp : ∃ last, Told { calls := [hungUp] } last ∧
    ∃ row ∈ last.calls, row.callSid = "CA1" ∧ row.status ∈ CallLog.finalStatuses := by
  have hmoves : (CallOperation.progress (.str "CA1") (.str "bye")).change? [hungUp] =
      .ok (some (.progress "CA1" (some "bye"))) := rfl
  have hmoved : Told { calls := [hungUp] } { calls := [{ hungUp with lastBlockId := some "bye" }] } :=
    write (.nothing : Told _ { calls := [hungUp] }) rfl hmoves trivial "10:00:50"
  have hreported := change?_report "completed" (by decide) [{ hungUp with lastBlockId := some "bye" }] (by decide)
  have hrepeated := write hmoved rfl hreported (by decide) "10:01:00"
  obtain ⟨-, -, hfinal, -⟩ := finished_stays_finished rfl told_hungUp hrepeated
  exact ⟨_, hrepeated, hfinal hungUp List.mem_cons_self (by decide)⟩

/-- A report that comes late takes the call back, and leaves its end. -/
theorem finished_call_taken_back : ∃ db after : Database, Told {} db ∧
    (report "ringing").perform db "10:01:00" = .ok after ∧
    db.calls.map (fun row => (row.status, row.endedAt)) = [("completed", some "10:00:45")] ∧
    after.calls.map (fun row => (row.status, row.endedAt)) = [("ringing", some "10:00:45")] := by
  have hchange := change?_report "ringing" (by decide) [hungUp] (by decide)
  exact ⟨_, _, told_hungUp, CallOperation.perform_of_change? rfl hchange "10:01:00", rfl, by decide⟩

end Told
end Switchboard.Store
