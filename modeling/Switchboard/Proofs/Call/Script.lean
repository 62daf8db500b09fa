import Switchboard.Call.Interpreter
import Switchboard.Proofs.Outcome

/-! # How scripts end

A script says, plays, waits and sends in any order, and then ends in one of three ways: the call is over, it
waits for the provider, or a message is recorded and the call is over. The invariant of a script is kept by
every block that a walk goes through, and it ties a continuation to the blocks that the call has gone through.
-/
namespace Switchboard

variable {K : Type}

namespace Directive

/-- Whether the script goes on after a directive, which carries no continuation. -/
def passes : Directive → Bool
  | say .. | play .. | pause .. | sms .. => true
  | _ => false

/-- Whether a directive ends the call or hands it over, so that nothing may follow. -/
def closes : Directive → Bool
  | gather .. | dial .. | hangup => true
  | _ => false

def parksAt : Directive → BlockType → Bool
  | gather .., .menu => true
  | dial .., .forward | dial .., .multiForward => true
  | record .., .hangup => true
  | _, _ => false

theorem closes_of_passes {d : Directive} (h : d.passes = true) : d.closes = false := by
  cases d <;> simp_all [passes, closes]

theorem continuation?_of_passes {d : Directive} (h : d.passes = true) : d.continuation? = none := by
  cases d <;> simp_all [passes, continuation?]

end Directive

def CallScript.continuations (s : CallScript) : List Continuation :=
  s.directives.filterMap Directive.continuation?

/-- Whether an event returns a continuation: the block, the attempts and the count of blocks are copied, and
whatever else the provider tells is free. -/
def CallEvent.Returns (e : CallEvent) (c : Continuation) : Prop :=
  e.currentBlockId = some c.blockId ∧ e.attempt = c.attempt ∧ e.hops = c.hops

/-- A script that the provider can carry out, and whose continuation the flow can answer. The last directive
ends the call or hands it back, and none before it does. At most one directive carries a continuation, the last one
or a recording right before the end of the call; and that names the flow and the last block of the call, which
goes with the directive. -/
structure CallScript.Usable (flow : Option (CallFlow K)) (s : CallScript) : Prop where
  concluded : ∃ before last, s.directives = before ++ [last] ∧ (last = .hangup ∨ last.suspends = true) ∧
    ∀ d ∈ before, d.closes = false
  continued : s.continuations = [] ∨ ∃ before d c f b, s.continuations = [c] ∧ d.continuation? = some c ∧
    (s.directives = before ++ [d] ∨
      (∃ length beep, d = .record length beep (some c)) ∧ s.directives = before ++ [d, .hangup]) ∧
    flow = some f ∧ c.flowId = f.id ∧ s.visited.getLast? = some c.blockId ∧
    Graph.block? f.blocks c.blockId = some b ∧ d.parksAt b.type = true

/-- What a continuation says of a call: the flow, the last block that the call has gone through, and the
number of these blocks after the given ones. The block is one of the flow, of a type that the directive goes
with. -/
structure Parked (flow : Option (CallFlow K)) (hops : Int) (visited : List Text) (d : Directive)
    (c : Continuation) : Prop where
  carried : d.continuation? = some c
  counted : c.hops = hops + visited.length
  last : visited.getLast? = some c.blockId
  placed : ∃ f b, flow = some f ∧ c.flowId = f.id ∧ Graph.block? f.blocks c.blockId = some b ∧
    d.parksAt b.type = true

theorem Parked.visit {flow : Option (CallFlow K)} {hops : Int} {visited : List Text} {d : Directive}
    {c : Continuation} (h : Parked flow (hops + 1) visited d c) (id : Text) :
    Parked flow hops (id :: visited) d c where
  carried := h.carried
  counted := by
    have hc := h.counted
    simp only [List.length_cons]
    omega
  last := by rw [List.getLast?_cons, h.last, Option.getD_some]
  placed := h.placed

inductive Ending (flow : Option (CallFlow K)) (hops : Int) (visited : List Text) :
    List Directive → Prop where
  | ended : Ending flow hops visited [.hangup]
  | suspended {d : Directive} {c : Continuation} (waits : d.suspends = true)
      (parked : Parked flow hops visited d c) : Ending flow hops visited [d]
  | recorded {length : Int} {beep : Bool} {c : Continuation}
      (parked : Parked flow hops visited (.record length beep (some c)) c) :
      Ending flow hops visited [.record length beep (some c), .hangup]

theorem Ending.visit {flow : Option (CallFlow K)} {hops : Int} {visited : List Text}
    {closing : List Directive} (h : Ending flow (hops + 1) visited closing) (id : Text) :
    Ending flow hops (id :: visited) closing := by
  cases h with
  | ended => exact .ended
  | suspended waits parked => exact .suspended waits (parked.visit id)
  | recorded parked => exact .recorded (parked.visit id)

/-- A script that ends in one of the ways and in none before, and that goes through at most `limit` blocks, for a
call that has gone through `hops` before. -/
structure Concluded (flow : Option (CallFlow K)) (hops : Int) (limit : Nat) (s : CallScript) : Prop where
  ends : ∃ spoken closing, s.directives = spoken ++ closing ∧ (∀ d ∈ spoken, d.passes = true) ∧
    Ending flow hops s.visited closing
  within : s.visited.length ≤ limit

namespace Concluded

variable {flow : Option (CallFlow K)} {hops : Int} {limit : Nat} {s : CallScript}

theorem mono {limit' : Nat} (h : Concluded flow hops limit s) (hl : limit ≤ limit') :
    Concluded flow hops limit' s :=
  ⟨h.ends, Nat.le_trans h.within hl⟩

theorem hangUp (spoken : List Directive) (h : ∀ d ∈ spoken, d.passes = true) :
    Concluded flow hops limit (.ofDirectives (spoken ++ [.hangup])) :=
  ⟨⟨spoken, [.hangup], rfl, h, .ended⟩, Nat.zero_le _⟩

theorem speak (hs : Concluded flow hops limit s) (spoken : List Directive)
    (h : ∀ d ∈ spoken, d.passes = true) : Concluded flow hops limit (.ofDirectives spoken ++ s) := by
  obtain ⟨before, closing, hd, hb, he⟩ := hs.ends
  refine ⟨⟨spoken ++ before, closing, ?_, ?_, by simpa [CallScript.ofDirectives] using he⟩, ?_⟩
  · simp [CallScript.ofDirectives, hd]
  · intro d hd
    rcases List.mem_append.mp hd with hd | hd
    · exact h d hd
    · exact hb d hd
  · simpa [CallScript.ofDirectives] using hs.within

theorem visit {spoken : List Directive} (hs : Concluded flow (hops + 1) limit s)
    (h : ∀ d ∈ spoken, d.passes = true) (id : Text) :
    Concluded flow hops (limit + 1) ({ directives := spoken, visited := [id] } ++ s) := by
  obtain ⟨before, closing, hd, hb, he⟩ := hs.ends
  refine ⟨⟨spoken ++ before, closing, by simp [hd], ?_, by simpa using he.visit id⟩, ?_⟩
  · intro d hd
    rcases List.mem_append.mp hd with hd | hd
    · exact h d hd
    · exact hb d hd
  · have hw := hs.within
    simp only [CallScript.visited_append, List.cons_append, List.nil_append, List.length_cons]
    omega

theorem ends_with (h : Concluded flow hops limit s) :
    ∃ before last, s.directives = before ++ [last] ∧ (last = .hangup ∨ last.suspends = true) ∧
      ∀ d ∈ before, d.closes = false := by
  obtain ⟨spoken, closing, hd, hspoken, he⟩ := h.ends
  have hb : ∀ d ∈ spoken, d.closes = false := fun d hd => Directive.closes_of_passes (hspoken d hd)
  cases he with
  | ended => exact ⟨spoken, _, hd, Or.inl rfl, hb⟩
  | suspended waits _ => exact ⟨spoken, _, hd, Or.inr waits, hb⟩
  | @recorded length beep c _ =>
    refine ⟨spoken ++ [.record length beep (some c)], .hangup, by simp [hd], Or.inl rfl, ?_⟩
    intro d hd
    rcases List.mem_append.mp hd with hd | hd
    · exact hb d hd
    · rw [List.mem_singleton.mp hd]
      rfl

theorem continuations_eq {spoken closing : List Directive} (hd : s.directives = spoken ++ closing)
    (h : ∀ d ∈ spoken, d.passes = true) :
    s.continuations = closing.filterMap Directive.continuation? := by
  have hn : spoken.filterMap Directive.continuation? = [] := by
    rw [List.filterMap_eq_nil_iff]
    exact fun d hd => Directive.continuation?_of_passes (h d hd)
  rw [CallScript.continuations, hd, List.filterMap_append, hn, List.nil_append]

/-- A complete script carries at most one continuation: that of the last directive, or of a recording right
before the end of the call. -/
theorem continuation_cases (h : Concluded flow hops limit s) :
    s.continuations = [] ∨ ∃ before d c, s.continuations = [c] ∧ Parked flow hops s.visited d c ∧
      (s.directives = before ++ [d] ∨
        (∃ length beep, d = .record length beep (some c)) ∧ s.directives = before ++ [d, .hangup]) := by
  obtain ⟨spoken, closing, hd, hspoken, he⟩ := h.ends
  have hc := continuations_eq hd hspoken
  cases he with
  | ended => exact Or.inl hc
  | @suspended d c waits parked =>
    refine Or.inr ⟨spoken, d, c, ?_, parked, Or.inl hd⟩
    rw [hc, List.filterMap_cons_some parked.carried, List.filterMap_nil]
  | @recorded length beep c parked =>
    exact Or.inr ⟨spoken, _, c, hc, parked, Or.inr ⟨⟨length, beep, rfl⟩, hd⟩⟩

theorem parked_of_mem (h : Concluded flow hops limit s) {c : Continuation} (hc : c ∈ s.continuations) :
    ∃ d, Parked flow hops s.visited d c := by
  rcases h.continuation_cases with hn | ⟨before, d, c', hs, parked, -⟩
  · simp [hn] at hc
  · rw [hs, List.mem_singleton] at hc
    exact ⟨d, hc ▸ parked⟩

theorem usable (h : Concluded flow hops limit s) : s.Usable flow := by
  refine ⟨h.ends_with, ?_⟩
  rcases h.continuation_cases with hn | ⟨before, d, c, hs, parked, hd⟩
  · exact Or.inl hn
  · obtain ⟨f, b, hf, hflow, hb, htype⟩ := parked.placed
    exact Or.inr ⟨before, d, c, f, b, hs, parked.carried, hd, hf, hflow, parked.last, hb, htype⟩

end Concluded
end Switchboard
