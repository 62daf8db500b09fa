import Switchboard.Proofs.Call.Answer

/-! # Runs of callbacks

A call is a run of callbacks. The first begins it, and each of the others returns a continuation of the script
before it; what the caller does and how the flow is edited between two callbacks is free. The continuations
carry the number of blocks from one callback to the next, so the budget holds for the call as a whole.
-/
namespace Switchboard

variable {K : Type}

structure Callback (K : Type := Binary64) where
  flow : Option (CallFlow K)
  event : CallEvent

def Callback.script (settings : Settings) (cb : Callback K) : CallScript :=
  Interpreter.handle settings cb.flow cb.event

/-- The callbacks of a call, the latest first. After the first one each returns a continuation of the script
before it. -/
inductive Run (settings : Settings) : List (Callback K) → Prop where
  | start {cb : Callback K} (fresh : cb.event.isResume = false) (uncounted : cb.event.hops = 0) :
      Run settings [cb]
  | next {cb next : Callback K} {earlier : List (Callback K)} {c : Continuation}
      (run : Run settings (cb :: earlier)) (emitted : c ∈ (cb.script settings).continuations)
      (returned : next.event.Returns c) : Run settings (next :: cb :: earlier)

def visits (settings : Settings) : List (Callback K) → Nat
  | [] => 0
  | cb :: earlier => (cb.script settings).visited.length + visits settings earlier

def Callback.carries (settings : Settings) (cb : Callback K) : Bool :=
  !(cb.script settings).continuations.isEmpty

variable {settings : Settings} {cb : Callback K} {earlier calls : List (Callback K)} {c : Continuation}

@[simp] theorem visits_nil : visits settings ([] : List (Callback K)) = 0 := rfl

@[simp] theorem visits_cons : visits settings (cb :: earlier) =
    (cb.script settings).visited.length + visits settings earlier := rfl

namespace Callback

/-- The count that a continuation carries is that of the event and the blocks of the script, of which there is
at least one. -/
theorem hops_of_mem (hc : c ∈ (cb.script settings).continuations) :
    c.hops = cb.event.hops + (cb.script settings).visited.length ∧
      0 < (cb.script settings).visited.length := by
  obtain ⟨d, parked⟩ := (Interpreter.handle_concluded settings cb.flow cb.event).parked_of_mem hc
  exact ⟨parked.counted, List.length_pos_of_mem (List.mem_of_getLast? parked.last)⟩

theorem visited_of_carries (h : cb.carries settings = true) :
    0 < (cb.script settings).visited.length := by
  cases hs : (cb.script settings).continuations with
  | nil => simp [carries, hs] at h
  | cons c rest => exact (hops_of_mem (hs ▸ List.mem_cons_self)).2

end Callback

namespace Run

theorem suffix (h : Run settings calls) (hs : cb :: earlier <:+ calls) : Run settings (cb :: earlier) := by
  induction h with
  | start fresh uncounted =>
    obtain ⟨rfl, rfl⟩ : cb = _ ∧ earlier = [] := by simpa [List.suffix_cons_iff] using hs
    exact .start fresh uncounted
  | next run emitted returned ih =>
    rcases List.suffix_cons_iff.mp hs with he | hs
    · cases he
      exact .next run emitted returned
    · exact ih hs

/-- An event carries the number of blocks that the call has gone through before. -/
theorem hops_eq (h : Run settings (cb :: earlier)) : cb.event.hops = visits settings earlier := by
  generalize hcalls : cb :: earlier = calls at h
  induction h generalizing cb earlier with
  | start fresh uncounted =>
    cases hcalls
    exact uncounted
  | next run emitted returned ih =>
    cases hcalls
    have hprev := ih rfl
    have hcount := (Callback.hops_of_mem emitted).1
    rw [returned.2.2, hcount, hprev, visits_cons]
    omega

theorem visits_le (h : Run settings calls) : (visits settings calls : Int) ≤ max 0 settings.maxHops := by
  have step : ∀ {cb : Callback K} {earlier : List (Callback K)}, Run settings (cb :: earlier) →
      (visits settings earlier : Int) ≤ max 0 settings.maxHops →
      (visits settings (cb :: earlier) : Int) ≤ max 0 settings.maxHops := by
    intro cb earlier hrun hle
    have hw := (Interpreter.handle_concluded settings cb.flow cb.event).within
    have hhops := hrun.hops_eq
    simp only [Interpreter.budget] at hw
    rw [visits_cons]
    simp only [Callback.script]
    omega
  induction h with
  | start fresh uncounted => exact step (.start fresh uncounted) (by simp only [visits_nil]; omega)
  | next run emitted returned ih => exact step (.next run emitted returned) ih

theorem countP_carries_le (settings : Settings) (calls : List (Callback K)) :
    calls.countP (Callback.carries settings) ≤ visits settings calls := by
  induction calls with
  | nil => simp
  | cons cb rest ih =>
    rw [visits_cons, List.countP_cons]
    split
    · have hv := Callback.visited_of_carries ‹_›
      omega
    · omega

theorem length_le (h : Run settings calls) :
    calls.length ≤ (calls.tail.countP (Callback.carries settings)) + 1 := by
  induction h with
  | start fresh uncounted => simp
  | @next cb next earlier c run emitted returned ih =>
    have hc : cb.carries settings = true := by
      cases hs : (cb.script settings).continuations with
      | nil => simp [hs] at emitted
      | cons c rest => simp [Callback.carries, hs]
    simp only [List.tail_cons, List.length_cons, List.countP_cons, hc, if_true] at ih ⊢
    omega

/-- Every call stays within its budget: the blocks over all callbacks are at most `maxHops`, a continuation
counts the blocks so far and more of them than the event that it answers, and so at most `maxHops` scripts hand
the call back and there is at most one callback more. -/
theorem within_budget (h : Run settings calls) :
    (visits settings calls : Int) ≤ max 0 settings.maxHops ∧
    (∀ cb earlier, cb :: earlier <:+ calls → ∀ c ∈ (cb.script settings).continuations,
      c.hops = visits settings (cb :: earlier) ∧ cb.event.hops < c.hops) ∧
    (calls.countP (Callback.carries settings) : Int) ≤ max 0 settings.maxHops ∧
    (calls.length : Int) ≤ max 0 settings.maxHops + 1 := by
  have hvisits := h.visits_le
  have hcarry := countP_carries_le settings calls
  have htail : calls.tail.countP (Callback.carries settings) ≤ calls.countP (Callback.carries settings) :=
    (List.tail_sublist calls).countP_le
  have hlength := h.length_le
  refine ⟨hvisits, ?_, by omega, by omega⟩
  intro cb earlier hs c hc
  have hhops := (h.suffix hs).hops_eq
  obtain ⟨hcount, hpos⟩ := Callback.hops_of_mem hc
  rw [visits_cons]
  omega

theorem within_budget_removed :
    let menu : Block Unit := {
      id := "main", type := .menu, config := [("prompt", .str "Press 1")], position := ⟨(), ()⟩, next := [] }
    let f : CallFlow Unit := { id := some "f", owner := "o", phoneNumber := "+15550001111", blocks := [menu] }
    let first : Callback Unit := { flow := some f, event := {} }
    let second : Callback Unit := {
      flow := some f, event := { currentBlockId := some "main", lastInput := some "7", hops := 1 } }
    let third : Callback Unit := {
      flow := none
      event := { currentBlockId := some "main", lastInput := some "8", attempt := 1, hops := 2 } }
    Run {} [third, second, first] ∧ (visits {} [third, second, first] : Int) ≤ max 0 25 ∧
      ([third, second, first].length : Int) ≤ max 0 25 + 1 := by
  intro menu f first second third
  have emitted : { flowId := some "f", blockId := "main", hops := 1 } ∈
      (first.script {}).continuations := by decide +kernel
  have again : { flowId := some "f", blockId := "main", attempt := 1, hops := 2 } ∈
      (second.script {}).continuations := by decide +kernel
  have run : Run {} [third, second, first] :=
    .next (.next (.start rfl rfl) emitted ⟨rfl, rfl, rfl⟩) again ⟨rfl, rfl, rfl⟩
  exact ⟨run, (within_budget run).1, (within_budget run).2.2.2⟩

end Run
end Switchboard
