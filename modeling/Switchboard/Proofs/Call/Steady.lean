import Switchboard.Proofs.Call.Run
import Switchboard.Proofs.Flow.Accepted

/-! # Calls stay on the graph

While its flow does not change, a call goes along the edges of the flow only. So it never leaves what can be
reached from the entry, and in a flow that may be saved it never comes to an id that is not that of a block. The
error message is said where an id or the entry is missing and nowhere else; where it does not matter what the
message is, nothing is missing.
-/
namespace Switchboard

variable {K : Type}

namespace Graph

variable {blocks : List (Block K)} {b c : Block K} {v : Value}

/-- Whether a property of ids is kept along every edge. -/
def Kept (blocks : List (Block K)) (P : Text → Prop) : Prop :=
  ∀ id, P id → ∀ target, Leads blocks id target → P target

/-- Whether the edges of every block with a property can be computed and looked up. -/
def KnownAt (blocks : List (Block K)) (P : Text → Prop) : Prop :=
  ∀ b, block? blocks b.id = some b → P b.id → ∃ ids, b.edgeIds = .ok ids

theorem EdgesKnown.at (h : EdgesKnown blocks) (P : Text → Prop) : KnownAt blocks P :=
  fun b hb _ => h b (mem_distinct_iff.mpr hb)

def Enters (blocks : List (Block K)) (P : Text → Prop) (v : Value) : Prop :=
  ∀ c, lookup blocks v = .ok (some c) → P c.id

theorem enters_block {P : Text → Prop} (hb : block? blocks b.id = some b) (hid : P b.id) :
    Enters blocks P (.str b.id) := by
  intro c hc
  rw [lookup_str, hb] at hc
  cases hc
  exact hid

theorem enters_of_edge {P : Text → Prop} {ids : List Text} (hP : Kept blocks P)
    (hb : block? blocks b.id = some b) (hid : P b.id) (hids : b.edgeIds = .ok ids)
    (hv : ∀ id, v = .str id → id ∈ ids) : Enters blocks P v := by
  intro c hc
  have hmem := hv c.id (str_of_lookup hc)
  exact hP b.id hid c.id ⟨b, ids, hb, hids, hmem, hasBlock_iff.mpr ⟨c, block?_of_lookup hc⟩⟩

end Graph

namespace Interpreter
open Switchboard.Graph (Kept Enters KnownAt)

variable {settings : Settings} {flow : CallFlow K} {event : CallEvent} {b : Block K} {hops : Int}
  {P : Text → Prop} {s : CallScript} {v : Value}

@[simp] theorem handOn_next (b : Block K) (ds : List Directive) : (handOn b ds).next = b.firstNext? := by
  unfold handOn
  split <;> simp_all

/-- A call goes on at once only with the first block that follows. -/
theorem firstNext_of_execute {effect : Effect} {next : Text}
    (h : execute settings flow event b hops = .ok effect) (hn : effect.next = some next) :
    b.firstNext? = some next := by
  rcases execute_cases h with ⟨-, ds, -, rfl⟩ | ⟨-, gather, -, rfl⟩ | ⟨-, ds, -, rfl⟩ | ⟨-, ds, -, rfl⟩
  · rw [← hn, handOn_next]
  · cases hn
  · cases hn
  · cases hn

/-- What is kept along the edges holds of every block of a walk. The induction is on the budget. -/
theorem walk_visited {budget : Nat} (hk : KnownAt flow.blocks P) (hP : Kept flow.blocks P)
    (hv : Enters flow.blocks P v) (h : walk settings flow event budget hops v = .ok s) :
    ∀ id ∈ s.visited, P id := by
  induction budget generalizing hops v s with
  | zero =>
    cases h
    simp [apology, CallScript.ofDirectives]
  | succ budget ih =>
    obtain ⟨found, hfound, h⟩ := Outcome.bind_eq_ok.mp h
    cases found with
    | none =>
      cases h
      simp [apology, CallScript.ofDirectives]
    | some b =>
      have hid : P b.id := hv b hfound
      have hb := Graph.block?_of_lookup hfound
      obtain ⟨effect, heffect, h⟩ := Outcome.bind_eq_ok.mp h
      cases hnext : effect.next with
      | none =>
        simp only [hnext, Outcome.pure_eq_ok] at h
        subst h
        simpa using hid
      | some next =>
        simp only [hnext] at h
        obtain ⟨rest, hrest, h⟩ := Outcome.bind_eq_ok.mp h
        obtain ⟨ids, hids⟩ := hk b hb hid
        have hon : Enters flow.blocks P (.str next) := by
          refine Graph.enters_of_edge hP hb hid hids ?_
          rintro id ⟨⟩
          exact Block.firstNext_mem_edgeIds hids (firstNext_of_execute heffect hnext)
        rw [← Outcome.pure_eq_ok.mp h]
        simpa using ⟨hid, ih hon hrest⟩

section
variable (hk : KnownAt flow.blocks P) (hP : Kept flow.blocks P) (hb : Graph.block? flow.blocks b.id = some b)
  (hid : P b.id)

include hk hP hb hid

theorem enters_of_heads (h : Heads b event v) : Enters flow.blocks P v := by
  obtain ⟨ids, hids⟩ := hk b hb hid
  intro c hc
  obtain rfl := Graph.str_of_lookup hc
  rcases mem_edgeIds_of_heads hids h with hmem | ⟨-, hagain⟩
  · exact hP b.id hid c.id ⟨b, ids, hb, hids, hmem, Graph.hasBlock_iff.mpr ⟨c, Graph.block?_of_lookup hc⟩⟩
  · exact hagain ▸ hid

theorem Resumed.visited (h : Resumed settings flow b event s) : ∀ id ∈ s.visited, P id := by
  cases h with
  | walks heads walk => exact walk_visited hk hP (enters_of_heads hk hP hb hid heads) walk
  | reoffers menu counted more room offers =>
    obtain ⟨say, gather, -, -, rfl⟩ := offerAgain_eq_ok.mp offers
    simpa using hid
  | limited => simp [apology, CallScript.ofDirectives]
  | parts => simp [CallScript.ofDirectives]
  | hangsUp => simp [CallScript.ofDirectives]

end

theorem Answered.visited (hk : KnownAt flow.blocks P) (hP : Kept flow.blocks P)
    (hentry : ∀ e, Graph.entryBlock flow.blocks flow.entryBlockId = .ok (some e) → P e.id)
    (hparked : ∀ id, event.currentBlockId = some id → P id) (h : Answered settings flow event s) :
    ∀ id ∈ s.visited, P id := by
  cases h with
  | begins fresh entry walk =>
    rw [CallScript.visited_append, disclaimer_visited, List.nil_append]
    exact walk_visited hk hP (Graph.enters_block (Graph.block?_of_entryBlock entry) (hentry _ entry)) walk
  | resumes parked found resumed => exact resumed.visited hk hP found (hparked _ parked)
  | lost => simp [apology, CallScript.ofDirectives]

variable {message : Text}

theorem execute_errorMessage : execute { settings with errorMessage := message } flow event b hops =
    execute settings flow event b hops := rfl

theorem walk_errorMessage {entry : Option Text} {budget : Nat} (ha : Validation.Accepts flow.blocks entry)
    (hv : ∃ c, Graph.lookup flow.blocks v = .ok (some c)) :
    walk { settings with errorMessage := message } flow event budget hops v =
      walk settings flow event budget hops v := by
  induction budget generalizing hops v with
  | zero => rfl
  | succ budget ih =>
    obtain ⟨b, hb⟩ := hv
    have hmem := Graph.mem_distinct_iff.mpr (Graph.block?_of_lookup hb)
    simp only [walk, hb, bind, Except.bind, execute_errorMessage]
    cases heffect : execute settings flow event b (hops + 1) with
    | error fault => rfl
    | ok effect =>
      cases hnext : effect.next with
      | none => simp only [hnext]
      | some next =>
        have hfirst := firstNext_of_execute heffect hnext
        simp only [hnext, ih (ha.lookup_next hmem hfirst)]

theorem lookup_of_heads {entry : Option Text} (ha : Validation.Accepts flow.blocks entry)
    (hb : Graph.block? flow.blocks b.id = some b) (h : Heads b event v) :
    ∃ c, Graph.lookup flow.blocks v = .ok (some c) := by
  have hmem := Graph.mem_distinct_iff.mpr hb
  cases h with
  | chosen menu found leads => exact ha.lookup_target hmem menu found leads
  | failed named => exact ha.lookup_onFail hmem named
  | again linear => exact ⟨b, by rw [Graph.lookup_str, hb]⟩

/-- In a flow that may be saved, an answer does not depend on what is said where something is missing, if the call
is new or parked at a block. -/
theorem answer_errorMessage (ha : Validation.Accepts flow.blocks flow.entryBlockId)
    (hparked : ∀ id, event.currentBlockId = some id → Graph.hasBlock flow.blocks id = true) :
    answer { settings with errorMessage := message } flow event = answer settings flow event := by
  unfold answer
  split
  · obtain ⟨e, he⟩ := ha.hasEntry
    have hin : ∃ c, Graph.lookup flow.blocks (.str e.id) = .ok (some c) := ⟨e, Graph.lookup_of_entryBlock he⟩
    have hwalk : walkFrom { settings with errorMessage := message } flow event (.str e.id) =
        walkFrom settings flow event (.str e.id) := walk_errorMessage ha hin
    simp only [start, he, bind, Except.bind, hwalk]
    rfl
  · rename_i id hcurrent
    obtain ⟨b, hb⟩ := Graph.hasBlock_iff.mp (hparked id hcurrent)
    have hid := Graph.id_of_block?_eq_some hb
    subst hid
    simp only [hb]
    have hwalk : ∀ v, Heads b event v → walkFrom { settings with errorMessage := message } flow event v =
        walkFrom settings flow event v := fun v heads => walk_errorMessage ha (lookup_of_heads ha hb heads)
    exact resume_congr rfl hwalk fun htype => resumeMenu_congr rfl hwalk htype rfl rfl fun n hn hmore => Iff.rfl

end Interpreter

/-- The events of a call while its flow stays the same, the latest first. The first one begins the call, and each of
the others comes back to a block where the script before it parks the call. Whatever else they tell is free. -/
inductive SteadyRun (settings : Settings) (flow : CallFlow K) : List CallEvent → Prop where
  | start {event : CallEvent} (fresh : event.isResume = false) : SteadyRun settings flow [event]
  | next {event next : CallEvent} {earlier : List CallEvent} {c : Continuation}
      (run : SteadyRun settings flow (event :: earlier))
      (emitted : c ∈ (Interpreter.handle settings (some flow) event).continuations)
      (parked : next.currentBlockId = some c.blockId) : SteadyRun settings flow (next :: event :: earlier)

theorem Run.steady {settings : Settings} {flow : CallFlow K} {calls : List (Callback K)} (h : Run settings calls)
    (hflow : ∀ cb ∈ calls, cb.flow = some flow) : SteadyRun settings flow (calls.map Callback.event) := by
  induction h with
  | start fresh uncounted => exact .start fresh
  | @next cb next earlier c run emitted returned ih =>
    have hcb : cb.flow = some flow := hflow cb (List.mem_cons_of_mem _ List.mem_cons_self)
    rw [Callback.script, hcb] at emitted
    exact .next (ih fun cb' hmem => hflow cb' (List.mem_cons_of_mem _ hmem)) emitted returned.1

namespace SteadyRun
open Interpreter

variable {settings : Settings} {flow : CallFlow K} {events : List CallEvent} {P : Text → Prop}

theorem blockId_mem_visited {event : CallEvent} {c : Continuation}
    (hc : c ∈ (handle settings (some flow) event).continuations) :
    c.blockId ∈ (handle settings (some flow) event).visited := by
  obtain ⟨d, parked⟩ := (handle_concluded settings (some flow) event).parked_of_mem hc
  exact List.mem_of_getLast? parked.last

/-- What is kept along the edges and holds of the entry holds of every block of the run, and of every block where
the call is parked. -/
theorem visited_at (h : SteadyRun settings flow events) (hk : Graph.KnownAt flow.blocks P)
    (hP : Graph.Kept flow.blocks P)
    (hentry : ∀ e, Graph.entryBlock flow.blocks flow.entryBlockId = .ok (some e) → P e.id) :
    ∀ event ∈ events, (∀ id, event.currentBlockId = some id → P id) ∧
      ∀ id ∈ (handle settings (some flow) event).visited, P id := by
  induction h with
  | @start event fresh =>
    intro event' hmem
    rw [List.mem_singleton.mp hmem]
    have hparked : ∀ id, event.currentBlockId = some id → P id := by
      intro id hid
      rw [CallEvent.isResume, hid] at fresh
      cases fresh
    exact ⟨hparked, (answered_handle settings flow _).visited hk hP hentry hparked⟩
  | @next event next earlier c run emitted parked ih =>
    intro event' hmem
    rcases List.mem_cons.mp hmem with rfl | hmem
    · have hprev := (ih event List.mem_cons_self).2
      have hparked : ∀ id, event'.currentBlockId = some id → P id := by
        intro id hid
        rw [parked, Option.some.injEq] at hid
        exact hid ▸ hprev c.blockId (blockId_mem_visited emitted)
      exact ⟨hparked, (answered_handle settings flow _).visited hk hP hentry hparked⟩
    · exact ih event' hmem

theorem visited (h : SteadyRun settings flow events) (hk : Graph.EdgesKnown flow.blocks)
    (hP : Graph.Kept flow.blocks P)
    (hentry : ∀ e, Graph.entryBlock flow.blocks flow.entryBlockId = .ok (some e) → P e.id) :
    ∀ event ∈ events, (∀ id, event.currentBlockId = some id → P id) ∧
      ∀ id ∈ (handle settings (some flow) event).visited, P id :=
  h.visited_at (hk.at P) hP hentry

/-- While its flow does not change, a call stays on the graph. Every block that it goes through can be reached from
the entry. If the flow may be saved, nothing is missing in any callback: there is an entry, the call is parked at a
block, and what would be said where a block is missing makes no difference. -/
theorem stays_on_graph (hedges : ∀ b ∈ flow.blocks, ∃ ids, b.edgeIds = .ok ids)
    (h : SteadyRun settings flow events) :
    (∀ event ∈ events, ∀ id ∈ (handle settings (some flow) event).visited, ∃ e reached,
      Graph.entryBlock flow.blocks flow.entryBlockId = .ok (some e) ∧
      Graph.reachable flow.blocks e.id = .ok reached ∧ id ∈ reached) ∧
    (Validation.Accepts flow.blocks flow.entryBlockId → ∀ event ∈ events,
      (∃ e, Graph.entryBlock flow.blocks flow.entryBlockId = .ok (some e)) ∧
      (∀ id, event.currentBlockId = some id → Graph.hasBlock flow.blocks id = true) ∧
      ∀ message, answer { settings with errorMessage := message } flow event = answer settings flow event) := by
  have hk : Graph.EdgesKnown flow.blocks := fun b hb => hedges b (Graph.mem_of_mem_distinct hb)
  have hexists (e : Block K) (he : Graph.entryBlock flow.blocks flow.entryBlockId = .ok (some e)) :
      Graph.hasBlock flow.blocks e.id = true := Graph.hasBlock_iff.mpr ⟨e, Graph.block?_of_entryBlock he⟩
  constructor
  · -- no edge leaves what can be reached, so that an id can be reached is kept
    intro event hmem
    refine (h.visited (P := fun id => ∃ e reached, Graph.entryBlock flow.blocks flow.entryBlockId = .ok (some e) ∧
      Graph.reachable flow.blocks e.id = .ok reached ∧ id ∈ reached) hk ?_ ?_ event hmem).2
    · rintro id ⟨e, reached, he, hreached, hid⟩ target hleads
      obtain ⟨closed, hclosed, -, hstep⟩ := Graph.reachable_closed hk (hexists e he)
      rw [hreached, Except.ok.injEq] at hclosed
      subst hclosed
      exact ⟨e, reached, he, hreached, hstep id hid target hleads⟩
    · intro e he
      obtain ⟨reached, hreached, hstart, -⟩ := Graph.reachable_closed hk (hexists e he)
      exact ⟨e, reached, he, hreached, hstart⟩
  · intro ha event hmem
    have hkept : Graph.Kept flow.blocks fun id => Graph.hasBlock flow.blocks id = true := by
      rintro id - target ⟨b, ids, -, -, -, hhas⟩
      exact hhas
    have hparked := (h.visited hk hkept hexists event hmem).1
    exact ⟨ha.hasEntry, hparked, fun message => answer_errorMessage ha hparked⟩

theorem stays_on_graph_menu :
    let main : Block Unit := {
      id := "main", type := .menu, position := ⟨(), ()⟩, next := []
      config := [("prompt", .str "Press 1"), ("on_fail", .str "desk"),
        ("options", .obj [("1", .str "main"), ("2", .str "desk")])] }
    let desk : Block Unit := {
      id := "desk", type := .forward, position := ⟨(), ()⟩, next := []
      config := [("to", .str "+15551230001"), ("on_fail", .str "main")] }
    let flow : CallFlow Unit := {
      id := some "f", owner := "o", phoneNumber := "+15550001111", blocks := [main, desk]
      entryBlockId := some "main" }
    let first : CallEvent := {}
    let second : CallEvent := { currentBlockId := some "main", lastInput := some "2", hops := 1 }
    let third : CallEvent := { currentBlockId := some "desk", dialStatus := some "busy", hops := 2 }
    SteadyRun {} flow [third, second, first] ∧ Validation.Accepts flow.blocks flow.entryBlockId ∧
    ("main" : Text) ∈ (handle {} (some flow) third).visited ∧
    (∃ e reached, Graph.entryBlock flow.blocks flow.entryBlockId = .ok (some e) ∧
      Graph.reachable flow.blocks e.id = .ok reached ∧ ("main" : Text) ∈ reached) ∧
    ∀ message, answer { errorMessage := message } flow third = answer {} flow third := by
  intro main desk flow first second third
  have hfirst : { flowId := some "f", blockId := "main", hops := 1 } ∈
      (handle {} (some flow) first).continuations := by decide +kernel
  have hsecond : { flowId := some "f", blockId := "desk", hops := 2 } ∈
      (handle {} (some flow) second).continuations := by decide +kernel
  have run : SteadyRun {} flow [third, second, first] := .next (.next (.start rfl) hfirst rfl) hsecond rfl
  have haccepts : Validation.Accepts flow.blocks flow.entryBlockId := by decide +kernel
  have hedges : ∀ b ∈ flow.blocks, ∃ ids, b.edgeIds = .ok ids := by
    intro b hb
    simp only [flow, List.mem_cons, List.not_mem_nil, or_false] at hb
    rcases hb with rfl | rfl
    · exact ⟨["main", "desk"], rfl⟩
    · exact ⟨["main"], rfl⟩
  have hvisited : ("main" : Text) ∈ (handle {} (some flow) third).visited := by decide +kernel
  have h := stays_on_graph hedges run
  exact ⟨run, haccepts, hvisited, h.1 third List.mem_cons_self "main" hvisited,
    (h.2 haccepts third List.mem_cons_self).2.2⟩

end SteadyRun
end Switchboard
