import Switchboard.Proofs.Call.Steady

/-! # Calls depend on what can be reached

A call asks its flow only for blocks that can be reached from the entry and for the ids that these lead to. So two
flows with one entry and the same settings that have the same blocks there, and lack the same ones, answer every call
alike, whatever other blocks they have. An id that leads to no block is part of this: once it is given a block, calls
go on to it.
-/
namespace Switchboard

variable {K : Type}

namespace Graph

variable {blocks others : List (Block K)} {v : Value}

theorem hasBlock_eq_false {id : Text} : hasBlock blocks id = false ↔ block? blocks id = none := by
  rw [hasBlock, Option.isSome_eq_false_iff, Option.isNone_iff_eq_none]

/-- Whether two graphs agree on some ids: they have the same blocks there, and an id that these blocks lead to and that
is missing in the first graph is missing in the second. -/
structure AgreeOn (blocks others : List (Block K)) (ids : List Text) : Prop where
  same : ∀ id ∈ ids, block? others id = block? blocks id
  missing : ∀ id ∈ ids, ∀ b targets, block? blocks id = some b → b.edgeIds = .ok targets →
    ∀ target ∈ targets, hasBlock blocks target = false → hasBlock others target = false

def AgreeAhead (blocks others : List (Block K)) (P : Text → Prop) : Prop :=
  ∀ b ids, block? blocks b.id = some b → P b.id → b.edgeIds = .ok ids →
    ∀ id ∈ ids, block? others id = block? blocks id

theorem AgreeOn.ahead {ids : List Text} (h : AgreeOn blocks others ids) (hkept : Kept blocks (· ∈ ids)) :
    AgreeAhead blocks others (· ∈ ids) := by
  intro b targets hb hid htargets target hmem
  cases hhas : hasBlock blocks target with
  | true => exact h.same target (hkept b.id hid target ⟨b, targets, hb, htargets, hmem, hhas⟩)
  | false =>
    have hother := h.missing b.id hid b targets hb htargets target hmem hhas
    rw [hasBlock_eq_false.mp hhas, hasBlock_eq_false.mp hother]

theorem AgreeOn.explicitEntry? {ids : List Text} {entry : Option Text} {e : Block K}
    (h : AgreeOn blocks others ids) (he : explicitEntry? blocks entry = some e) (hmem : e.id ∈ ids) :
    explicitEntry? others entry = some e := by
  obtain ⟨id, hexplicit, hid⟩ := Option.bind_eq_some_iff.mp he
  have hsame : block? others id = block? blocks id := h.same id (id_of_block?_eq_some hid ▸ hmem)
  rw [Graph.explicitEntry?, hexplicit, Option.bind_some, hsame, hid]

theorem entryBlock_of_explicit {entry : Option Text} {e : Block K} (h : explicitEntry? blocks entry = some e) :
    entryBlock blocks entry = .ok (some e) := by
  rw [entryBlock, h]

theorem knownAt_of_looked {ids : List Text} (h : ∀ id ∈ ids, Looked blocks id) : KnownAt blocks (· ∈ ids) := by
  intro b hb hmem
  obtain ⟨c, targets, hc, htargets⟩ := h b.id hmem
  rw [hb, Option.some.injEq] at hc
  exact ⟨targets, hc ▸ htargets⟩

/-- Only a text is looked up, so graphs with the same block under the text have the same one under the value. -/
theorem lookup_congr (h : ∀ id, v = .str id → block? others id = block? blocks id) :
    lookup others v = lookup blocks v := by
  cases v with
  | str id => rw [lookup_str, lookup_str, h id rfl]
  | _ => rfl

end Graph

namespace Interpreter
open Switchboard.Graph (Kept Enters KnownAt AgreeOn AgreeAhead)

variable {settings : Settings} {flow other : CallFlow K} {event : CallEvent} {b : Block K} {hops attempt : Int}
  {P : Text → Prop} {v : Value}

theorem offer_congr (hid : other.id = flow.id) :
    offer settings other b attempt hops = offer settings flow b attempt hops := by
  rw [offer, offer, hid]

theorem execute_congr (hid : other.id = flow.id) (hrecord : other.recordingEnabled = flow.recordingEnabled) :
    execute settings other event b hops = execute settings flow event b hops := by
  have hconnect : connect settings other b hops = connect settings flow b hops := by
    rw [connect, connect, hid, hrecord]
  have hclose : close settings other b hops = close settings flow b hops := by
    rw [close, close, hid]
  rw [execute, execute, offer_congr hid, hconnect, hclose]

section
variable (hid : other.id = flow.id) (hrecord : other.recordingEnabled = flow.recordingEnabled)
  (hk : KnownAt flow.blocks P) (hP : Kept flow.blocks P) (hahead : AgreeAhead flow.blocks other.blocks P)

include hid hrecord hk hP hahead

/-- A walk that begins under the same block, or none, goes the same way. The induction is on the budget: what a block
with the property leads to has it again, and is the same block in both flows. -/
theorem walk_congr {budget : Nat} (hv : Enters flow.blocks P v)
    (hsame : Graph.lookup other.blocks v = Graph.lookup flow.blocks v) :
    walk settings other event budget hops v = walk settings flow event budget hops v := by
  induction budget generalizing hops v with
  | zero => rfl
  | succ budget ih =>
    cases hfound : Graph.lookup flow.blocks v with
    | error fault => simp only [walk, hsame, hfound, bind, Except.bind]
    | ok found =>
      simp only [walk, hsame, hfound, bind, Except.bind]
      cases found with
      | none => rfl
      | some b =>
        have hb := Graph.block?_of_lookup hfound
        simp only [execute_congr hid hrecord]
        have hin : P b.id := hv b hfound
        cases heffect : execute settings flow event b (hops + 1) with
        | error fault => rfl
        | ok effect =>
          cases hnext : effect.next with
          | none => simp only [hnext]
          | some next =>
            obtain ⟨ids, hids⟩ := hk b hb hin
            have hmem : next ∈ ids := Block.firstNext_mem_edgeIds hids (firstNext_of_execute heffect hnext)
            have hon : Enters flow.blocks P (.str next) := by
              refine Graph.enters_of_edge hP hb hin hids ?_
              rintro id ⟨⟩
              exact hmem
            have hrest : Graph.lookup other.blocks (.str next) = Graph.lookup flow.blocks (.str next) := by
              rw [Graph.lookup_str, Graph.lookup_str, hahead b ids hb hin hids next hmem]
            simp only [hnext, ih hon hrest]

theorem resume_confined (hb : Graph.block? flow.blocks b.id = some b) (hin : P b.id)
    (hother : Graph.block? other.blocks b.id = some b) :
    resume settings other b event = resume settings flow b event := by
  have hwalk (v : Value) (heads : Heads b event v) :
      walkFrom settings other event v = walkFrom settings flow event v := by
    refine walk_congr hid hrecord hk hP hahead (enters_of_heads hk hP hb hin heads) (Graph.lookup_congr ?_)
    rintro id rfl
    obtain ⟨ids, hids⟩ := hk b hb hin
    rcases mem_edgeIds_of_heads hids heads with hmem | ⟨-, rfl⟩
    · exact hahead b ids hb hin hids id hmem
    · rw [hb, hother]
  have hagain : offerAgain settings other b event = offerAgain settings flow b event := by
    rw [offerAgain, offerAgain, offer_congr hid]
  exact resume_congr rfl hwalk fun htype => resumeMenu_congr rfl hwalk htype rfl hagain fun n hn hmore => Iff.rfl

/-- An event has the same answer in both flows if its call is new or parked at a block with the property. -/
theorem handle_congr {e : Block K} (hdisclaimer : other.recordingDisclaimer = flow.recordingDisclaimer)
    (hsame : ∀ id, P id → Graph.block? other.blocks id = Graph.block? flow.blocks id)
    (hentry : Graph.explicitEntry? flow.blocks flow.entryBlockId = some e)
    (hotherEntry : Graph.explicitEntry? other.blocks other.entryBlockId = some e) (hfrom : P e.id)
    (hparked : ∀ id, event.currentBlockId = some id → P id) :
    handle settings (some other) event = handle settings (some flow) event := by
  have hanswer : answer settings other event = answer settings flow event := by
    unfold answer
    cases hcurrent : event.currentBlockId with
    | none =>
      have hbegin := Graph.entryBlock_of_explicit hentry
      have hotherBegin := Graph.entryBlock_of_explicit hotherEntry
      have htold : disclaimer settings other = disclaimer settings flow := by
        rw [disclaimer, disclaimer, hrecord, hdisclaimer]
      have hwalk : walkFrom settings other event (.str e.id) = walkFrom settings flow event (.str e.id) := by
        refine walk_congr hid hrecord hk hP hahead ?_ ?_
        · exact Graph.enters_block (Graph.block?_of_entryBlock hbegin) hfrom
        · rw [Graph.lookup_str, Graph.lookup_str, hsame e.id hfrom]
      simp only [start, hbegin, hotherBegin, bind, Except.bind, htold, hwalk]
    | some id =>
      have hin := hparked id hcurrent
      dsimp only
      rw [hsame id hin]
      cases hb : Graph.block? flow.blocks id with
      | none => rfl
      | some b =>
        have hbid := Graph.id_of_block?_eq_some hb
        subst hbid
        exact resume_confined hid hrecord hk hP hahead hb hin ((hsame b.id hin).trans hb)
  rw [handle, handle, hanswer]

end

end Interpreter

namespace SteadyRun
open Interpreter

variable {settings : Settings} {flow other : CallFlow K} {events : List CallEvent}

/-- Two flows with the same id, the same recording settings and the same explicit entry that agree on what can be
reached from it answer every call alike. Their calls are the same, and every event of a call has the same answer. -/
theorem confined {e : Block K} {reached : List Text} (hid : other.id = flow.id)
    (hrecord : other.recordingEnabled = flow.recordingEnabled)
    (hdisclaimer : other.recordingDisclaimer = flow.recordingDisclaimer)
    (hsameEntry : other.entryBlockId = flow.entryBlockId)
    (hentry : Graph.explicitEntry? flow.blocks flow.entryBlockId = some e)
    (hreached : Graph.reachable flow.blocks e.id = .ok reached)
    (hagree : Graph.AgreeOn flow.blocks other.blocks reached) :
    (SteadyRun settings other events ↔ SteadyRun settings flow events) ∧
    (SteadyRun settings flow events →
      ∀ event ∈ events, handle settings (some other) event = handle settings (some flow) event) := by
  have hbegin := Graph.entryBlock_of_explicit hentry
  have hhas : Graph.hasBlock flow.blocks e.id = true :=
    Graph.hasBlock_iff.mpr ⟨e, Graph.block?_of_entryBlock hbegin⟩
  obtain ⟨hfrom, hclosed⟩ := Graph.closed_of_reachable hhas hreached
  have hkept : Graph.Kept flow.blocks (· ∈ reached) := fun id hmem => (hclosed id hmem).2
  have hknown : Graph.KnownAt flow.blocks (· ∈ reached) :=
    Graph.knownAt_of_looked fun id hmem => (hclosed id hmem).1
  have hotherEntry : Graph.explicitEntry? other.blocks other.entryBlockId = some e :=
    hsameEntry ▸ hagree.explicitEntry? hentry hfrom
  -- every event of a run is parked at a block that can be reached, where the flows agree
  have hanswer (events : List CallEvent) (run : SteadyRun settings flow events) :
      ∀ event ∈ events, handle settings (some other) event = handle settings (some flow) event := by
    intro event hmem
    refine handle_congr hid hrecord hknown hkept (hagree.ahead hkept) hdisclaimer hagree.same hentry hotherEntry hfrom
      (run.visited_at hknown hkept ?_ event hmem).1
    intro e' he'
    rw [hbegin, Except.ok.injEq, Option.some.injEq] at he'
    exact he' ▸ hfrom
  refine ⟨⟨fun run => ?_, fun run => ?_⟩, hanswer events⟩
  · induction run with
    | start fresh => exact .start fresh
    | @next event next earlier c run emitted parked ih =>
      rw [hanswer _ ih event List.mem_cons_self] at emitted
      exact .next ih emitted parked
  · induction run with
    | start fresh => exact .start fresh
    | @next event next earlier c run emitted parked ih =>
      rw [← hanswer _ run event List.mem_cons_self] at emitted
      exact .next ih emitted parked

theorem confined_edited :
    let main : Block Unit := {
      id := "main", type := .menu, position := ⟨(), ()⟩, next := []
      config := [("prompt", .str "Press 1"), ("options", .obj [("1", .str "desk"), ("2", .str "gone")])] }
    let desk : Block Unit := {
      id := "desk", type := .forward, position := ⟨(), ()⟩, next := []
      config := [("to", .str "+15551230001"), ("on_fail", .str "main")] }
    let unused (text : Text) : Block Unit := {
      id := "unused", type := .say, position := ⟨(), ()⟩, next := ["main"], config := [("text", .str text)] }
    let flow : CallFlow Unit := {
      id := some "f", owner := "o", phoneNumber := "+15550001111", blocks := [main, desk, unused "Hello"]
      entryBlockId := some "main" }
    let other : CallFlow Unit := { flow with blocks := [unused "Welcome", main, desk] }
    let first : CallEvent := {}
    let second : CallEvent := { currentBlockId := some "main", lastInput := some "1", hops := 1 }
    let third : CallEvent := { currentBlockId := some "desk", dialStatus := some "busy", hops := 2 }
    Graph.AgreeOn flow.blocks other.blocks ["main", "desk"] ∧ SteadyRun {} flow [third, second, first] ∧
    SteadyRun {} other [third, second, first] ∧
    handle {} (some other) third = handle {} (some flow) third := by
  intro main desk unused flow other first second third
  have hreached : Graph.reachable flow.blocks main.id = .ok ["main", "desk"] := rfl
  have hagree : Graph.AgreeOn flow.blocks other.blocks ["main", "desk"] := by
    constructor
    · intro id hmem
      rcases List.mem_pair.mp hmem with rfl | rfl <;> rfl
    · intro id hmem b targets hb htargets target htarget hmissing
      rcases List.mem_pair.mp hmem with rfl | rfl <;> cases hb <;> cases htargets
      · rcases List.mem_pair.mp htarget with rfl | rfl
        · exact absurd hmissing (by decide +kernel)
        · decide +kernel
      · rw [List.mem_singleton.mp htarget] at hmissing
        exact absurd hmissing (by decide +kernel)
  have hfirst : { flowId := some "f", blockId := "main", hops := 1 } ∈
      (handle {} (some flow) first).continuations := by decide +kernel
  have hsecond : { flowId := some "f", blockId := "desk", hops := 2 } ∈
      (handle {} (some flow) second).continuations := by decide +kernel
  have run : SteadyRun {} flow [third, second, first] := .next (.next (.start rfl) hfirst rfl) hsecond rfl
  have h : (SteadyRun {} other [third, second, first] ↔ SteadyRun {} flow [third, second, first]) ∧
      (SteadyRun {} flow [third, second, first] → ∀ event ∈ [third, second, first],
        handle {} (some other) event = handle {} (some flow) event) :=
    confined rfl rfl rfl rfl rfl hreached hagree
  exact ⟨hagree, run, h.1.mpr run, h.2 run third List.mem_cons_self⟩

/-- Equal blocks where the entry leads are not enough: a block under an id that was missing is where calls go on. -/
theorem answers_differ_at_missing :
    let hello : Block Unit := {
      id := "hello", type := .say, position := ⟨(), ()⟩, next := ["extra"], config := [("text", .str "Hello")] }
    let extra : Block Unit := {
      id := "extra", type := .hangup, position := ⟨(), ()⟩, next := [], config := [("message", .str "Bye")] }
    let flow : CallFlow Unit := {
      id := some "f", owner := "o", phoneNumber := "+15550001111", blocks := [hello], entryBlockId := some "hello" }
    let other : CallFlow Unit := { flow with blocks := [hello, extra] }
    Graph.explicitEntry? flow.blocks flow.entryBlockId = some hello ∧
    Graph.explicitEntry? other.blocks other.entryBlockId = some hello ∧
    Graph.reachable flow.blocks hello.id = .ok ["hello"] ∧
    (∀ id ∈ ["hello"], Graph.block? other.blocks id = Graph.block? flow.blocks id) ∧
    handle {} (some other) {} ≠ handle {} (some flow) {} := by
  intro hello extra flow other
  refine ⟨rfl, rfl, rfl, ?_, by decide +kernel⟩
  intro id hmem
  rw [List.mem_singleton.mp hmem]
  rfl

end SteadyRun
end Switchboard
