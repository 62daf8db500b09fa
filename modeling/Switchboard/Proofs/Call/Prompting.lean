import Switchboard.Proofs.Call.Origin

/-! # How often a menu prompts

A menu is offered once when the call comes to it and again after every choice that it does not have, until its attempts
are used up. The number of failed attempts is kept in the continuation alone: a walk puts it at zero, offering again
counts it up, and the menu compares it with its attempts before it offers.
-/
namespace Switchboard

variable {K : Type}

namespace Interpreter

variable {settings : Settings} {flow : CallFlow K} {event : CallEvent} {b : Block K} {attempt hops n : Int}
  {prompt : Text} {spoken : Option Text} {digits timeout : Int} {c : Continuation}

theorem continuation_of_offer
    (h : offer settings flow b attempt hops = .ok (.gather prompt spoken digits timeout c)) :
    c = { flowId := flow.id, blockId := b.id, attempt, hops } := by
  obtain ⟨_, _, _, _, hd⟩ := offer_gathers h
  cases hd
  rfl

theorem offer_again (h : offer settings flow b attempt hops = .ok (.gather prompt spoken digits timeout c))
    (attempt' hops' : Int) : offer settings flow b attempt' hops' =
      .ok (.gather prompt spoken digits timeout { c with attempt := attempt', hops := hops' }) := by
  obtain ⟨options, _, _, _, hoptions, htimeout, hprompt, hvoice, hd⟩ := offer_eq_ok.mp h
  cases hd
  exact offer_eq_ok.mpr ⟨options, timeout, prompt, spoken, hoptions, htimeout, hprompt, hvoice, rfl⟩

/-- A menu that has been offered says any text in the voice of the offer. -/
theorem speak_of_offer (h : offer settings flow b attempt hops = .ok (.gather prompt spoken digits timeout c))
    (text : Text) : speak settings b (.str text) = .ok (.say text spoken) := by
  obtain ⟨_, _, _, _, -, -, -, hvoice, hd⟩ := offer_eq_ok.mp h
  cases hd
  exact speak_eq_ok.mpr ⟨text, spoken, rfl, hvoice, rfl⟩

theorem complaint_text (event : CallEvent) (h : (b.config.get "invalid_message").truthy = false ∨
    ∃ text, b.config.get "invalid_message" = .str text) : ∃ text, complaint b event = .str text := by
  unfold complaint Value.orElse
  split
  · rename_i htruthy
    rcases h with hfalsy | htext
    · rw [hfalsy] at htruthy
      cases htruthy
    · exact htext
  · exact ⟨_, rfl⟩

theorem budget_ne_zero_iff : budget settings hops ≠ 0 ↔ hops < settings.maxHops := by
  rw [budget]
  omega

section
variable (hb : Graph.block? flow.blocks b.id = some b) (htype : b.type = .menu)
  (hparked : event.currentBlockId = some b.id) (hnone : b.optionFor event.lastInput = .ok none)
  (hn : maxAttempts settings b = .ok n)

include hb htype hparked hnone hn

/-- After a choice that it does not have, a menu is offered again while there are attempts and blocks left. -/
theorem handle_unmatched (hoffer : offer settings flow b attempt hops = .ok (.gather prompt spoken digits timeout c))
    {text : Text} (htext : complaint b event = .str text) (hmore : event.attempt + 1 < n)
    (hroom : event.hops < settings.maxHops) :
    handle settings (some flow) event = {
      directives := [.say text spoken, .gather prompt spoken digits timeout
        { c with attempt := event.attempt + 1, hops := event.hops + 1 }]
      visited := [b.id] } := by
  have hagain : offerAgain settings flow b event = .ok {
      directives := [.say text spoken, .gather prompt spoken digits timeout
        { c with attempt := event.attempt + 1, hops := event.hops + 1 }]
      visited := [b.id] } :=
    offerAgain_eq_ok.mpr ⟨_, _, htext ▸ speak_of_offer hoffer text, offer_again hoffer _ _, rfl⟩
  have hanswer : answer settings flow event = offerAgain settings flow b event := by
    simp only [answer, hparked, hb, resume, htype, resumeMenu, hnone, hn, bind, Except.bind, if_pos hmore,
      if_neg (budget_ne_zero_iff.mpr hroom)]
  rw [handle, hanswer, hagain]

theorem answer_unmatched_last (hlast : n ≤ event.attempt + 1) :
    answer settings flow event = fallBack settings flow b event goodbyeMessage := by
  simp only [answer, hparked, hb, resume, htype, resumeMenu, hnone, hn, bind, Except.bind,
    if_neg (Int.not_lt.mpr hlast)]

end

/-- What a menu falls back on is not the menu as it was: no attempt has failed at the block where the call is parked. -/
theorem attempt_of_fallBack {message : Text}
    (hanswer : answer settings flow event = fallBack settings flow b event message)
    (hc : c ∈ (handle settings (some flow) event).continuations) : c.attempt = 0 := by
  rw [handle, hanswer] at hc
  cases hback : fallBack settings flow b event message with
  | error fault =>
    rw [hback] at hc
    cases hc
  | ok s =>
    rw [hback] at hc
    unfold fallBack at hback
    split at hback
    · exact attempt_of_walkFrom hback hc
    · obtain ⟨ds, hds, rfl⟩ := Outcome.map_eq_ok.mp hback
      rw [continuations_of_speakAndEnd hds] at hc
      cases hc

end Interpreter

/-- The events of a call after a first one, while its flow stays the same, the latest first. Each returns a
continuation of the script before it. -/
inductive Ensuing (settings : Settings) (flow : CallFlow K) (first : CallEvent) : List CallEvent → Prop where
  | nothing : Ensuing settings flow first []
  | next {next : CallEvent} {events : List CallEvent} {c : Continuation} (ensuing : Ensuing settings flow first events)
      (emitted : c ∈ (Interpreter.handle settings (some flow) (events.headD first)).continuations)
      (returned : next.Returns c) : Ensuing settings flow first (next :: events)

namespace Ensuing
open Interpreter

variable {settings : Settings} {flow : CallFlow K} {first event : CallEvent} {events earlier : List CallEvent}
  {m : Block K} {n : Int} {prompt : Text} {spoken : Option Text} {digits timeout : Int} {c : Continuation}

theorem continuations_of_gather
    (hlast : (handle settings (some flow) event).directives.getLast? = some (.gather prompt spoken digits timeout c)) :
    (handle settings (some flow) event).continuations = [c] := by
  have hc : c ∈ (handle settings (some flow) event).continuations :=
    List.mem_filterMap.mpr ⟨_, List.mem_of_getLast? hlast, rfl⟩
  rcases (handle_concluded settings (some flow) event).continuation_cases with hnone | ⟨_, _, c', hone, -⟩
  · rw [hnone] at hc
    cases hc
  · rw [hone, List.mem_singleton] at hc
    rw [hone, hc]

section
variable (hb : Graph.block? flow.blocks m.id = some m) (htype : m.type = .menu)
  (hn : maxAttempts settings m = .ok n)
  (hmessage : (m.config.get "invalid_message").truthy = false ∨ ∃ text, m.config.get "invalid_message" = .str text)
  (hoffer : offer settings flow m 0 c.hops = .ok (.gather prompt spoken digits timeout c))
  (hroom : c.hops + n - 1 ≤ settings.maxHops)

include hb htype hn hmessage hoffer hroom

theorem reoffered {k : Nat} (hreturns : event.Returns { c with attempt := k, hops := c.hops + k })
    (hnone : m.optionFor event.lastInput = .ok none) (hmore : (k + 1 : Int) < n) :
    ∃ text, complaint m event = .str text ∧ handle settings (some flow) event = {
      directives := [.say text spoken, .gather prompt spoken digits timeout
        { c with attempt := k + 1, hops := c.hops + (k + 1) }]
      visited := [m.id] } := by
  obtain ⟨text, htext⟩ := complaint_text event hmessage
  obtain ⟨hparked, hattempt, hhops⟩ := hreturns
  have hc := continuation_of_offer hoffer
  have hat : event.currentBlockId = some m.id := by rw [hparked, hc]
  have hleft : event.attempt + 1 < n := by rwa [hattempt]
  have hfits : event.hops < settings.maxHops := by
    rw [hhops]
    dsimp only
    omega
  refine ⟨text, htext, ?_⟩
  rw [handle_unmatched hb htype hat hnone hn hoffer htext hleft hfits, hattempt, hhops]
  simp only [Int.add_assoc]

/-- As long as there are attempts left, the continuation counts the callbacks since the first offer. The induction is on
the callbacks. -/
theorem continuations_eq (hfirst : (handle settings (some flow) first).continuations = [c])
    (run : Ensuing settings flow first events) (hnone : ∀ e ∈ events, m.optionFor e.lastInput = .ok none)
    (hmore : (events.length : Int) < n) :
    (handle settings (some flow) (events.headD first)).continuations =
      [{ c with attempt := events.length, hops := c.hops + events.length }] := by
  induction run with
  | nothing =>
    have hc := continuation_of_offer hoffer
    rw [List.headD_nil, hfirst, hc]
    simp
  | @next next events c' ensuing emitted returned ih =>
    rw [List.length_cons, Int.natCast_add, Int.natCast_one] at hmore
    rw [ih (fun e he => hnone e (List.mem_cons_of_mem _ he)) (by omega), List.mem_singleton] at emitted
    subst emitted
    obtain ⟨text, -, hscript⟩ :=
      reoffered hb htype hn hmessage hoffer hroom returned (hnone next List.mem_cons_self) hmore
    rw [List.headD_cons, hscript, List.length_cons, Int.natCast_add, Int.natCast_one]
    rfl

end

/-- A menu prompts as often as it has attempts. After an answer that ends in its first offer, on the same flow and with
room for all attempts, each callback with a choice that the menu does not have is answered with a complaint and the
offer, counted up by one, until the last attempt. That one is not answered with the menu any more: the call goes on at
the block that is named for failures, or says goodbye. -/
theorem prompts_exactly (hb : Graph.block? flow.blocks m.id = some m) (htype : m.type = .menu)
    (hn : maxAttempts settings m = .ok n)
    (hmessage : (m.config.get "invalid_message").truthy = false ∨ ∃ text, m.config.get "invalid_message" = .str text)
    (hlast : (handle settings (some flow) first).directives.getLast? = some (.gather prompt spoken digits timeout c))
    (hat : c.blockId = m.id) (hfirst : c.attempt = 0) (hroom : c.hops + n - 1 ≤ settings.maxHops)
    (run : Ensuing settings flow first (event :: earlier))
    (hnone : ∀ e ∈ event :: earlier, m.optionFor e.lastInput = .ok none) :
    ((earlier.length + 1 : Int) < n → ∃ text, complaint m event = .str text ∧
      handle settings (some flow) event = {
        directives := [.say text spoken, .gather prompt spoken digits timeout
          { c with attempt := earlier.length + 1, hops := c.hops + (earlier.length + 1) }]
        visited := [m.id] }) ∧
    ((earlier.length + 1 : Int) = n →
      (∀ v, m.onFail? = some v → answer settings flow event = walkFrom settings flow event v) ∧
      (m.onFail? = none →
        handle settings (some flow) event = .ofDirectives [.say goodbyeMessage spoken, .hangup]) ∧
      ∀ c' ∈ (handle settings (some flow) event).continuations, c'.attempt = 0) := by
  have hoffer : offer settings flow m 0 c.hops = .ok (.gather prompt spoken digits timeout c) := by
    have horigin := (answered_handle settings flow first).origin (List.mem_of_getLast? hlast)
    obtain ⟨b, hfound, hid, hoffer⟩ := horigin.offered
    rw [hid, hat, hb, Option.some.injEq] at hfound
    rwa [← hfound, hfirst] at hoffer
  have hc := continuation_of_offer hoffer
  cases run with
  | @next _ _ c' ensuing emitted returned =>
    have hbefore : (earlier.length : Int) < n →
        event.Returns { c with attempt := earlier.length, hops := c.hops + earlier.length } := by
      intro hmore
      rw [continuations_eq hb htype hn hmessage hoffer hroom (continuations_of_gather hlast) ensuing
        (fun e he => hnone e (List.mem_cons_of_mem _ he)) hmore, List.mem_singleton] at emitted
      exact emitted ▸ returned
    constructor
    · intro hmore
      exact reoffered hb htype hn hmessage hoffer hroom (hbefore (by omega)) (hnone event List.mem_cons_self) hmore
    · intro hused
      obtain ⟨hparked, hattempt, -⟩ := hbefore (by omega)
      have hanswer : answer settings flow event = fallBack settings flow m event goodbyeMessage := by
        refine answer_unmatched_last hb htype (by rw [hparked, hc]) (hnone event List.mem_cons_self) hn ?_
        rw [hattempt]
        exact Int.le_of_eq hused.symm
      refine ⟨fun v hv => by rw [hanswer, fallBack, hv], fun hv => ?_, ?_⟩
      · rw [handle, hanswer, fallBack, hv]
        simp only [speakAndEnd, speak_of_offer hoffer]
        rfl
      · exact fun c' hc' => attempt_of_fallBack hanswer hc'

theorem prompts_exactly_twice :
    let main : Block Unit := {
      id := "main", type := .menu, position := ⟨(), ()⟩, next := []
      config := [("prompt", .str "Press 1"), ("max_attempts", .str "2"), ("voice", .str "bob"),
        ("options", .obj [("1", .str "main")])] }
    let flow : CallFlow Unit := { id := some "f", owner := "o", phoneNumber := "+15550001111", blocks := [main] }
    let second : CallEvent := { currentBlockId := some "main", lastInput := some "7", hops := 1 }
    let third : CallEvent := { currentBlockId := some "main", attempt := 1, hops := 2 }
    Ensuing {} flow {} [third, second] ∧ maxAttempts {} main = .ok 2 ∧
    (∃ text, complaint main second = .str text ∧ handle {} (some flow) second = {
      directives := [.say text (some "bob"), .gather "Press 1" (some "bob") 1 5
        { flowId := some "f", blockId := "main", attempt := 1, hops := 2 }]
      visited := ["main"] }) ∧
    handle {} (some flow) third = .ofDirectives [.say goodbyeMessage (some "bob"), .hangup] := by
  intro main flow second third
  have hn : maxAttempts {} main = .ok 2 := Outcome.eq_ok_of_toOption (by decide +kernel)
  have hlast : (handle {} (some flow) {}).directives.getLast? = some (.gather "Press 1" (some "bob") 1 5
      { flowId := some "f", blockId := "main", hops := 1 }) := by decide +kernel
  have hfirst : { flowId := some "f", blockId := "main", hops := 1 } ∈
      (handle {} (some flow) {}).continuations := by decide +kernel
  have hagain : { flowId := some "f", blockId := "main", attempt := 1, hops := 2 } ∈
      (handle {} (some flow) second).continuations := by decide +kernel
  have hsecond : Ensuing {} flow {} [second] := .next .nothing hfirst ⟨rfl, rfl, rfl⟩
  have hthird : Ensuing {} flow {} [third, second] := .next hsecond hagain ⟨rfl, rfl, rfl⟩
  have hmessage : (main.config.get "invalid_message").truthy = false := rfl
  have hroom : (1 + 2 - 1 : Int) ≤ 25 := by decide
  have h (event : CallEvent) (earlier : List CallEvent) (run : Ensuing {} flow {} (event :: earlier))
      (hnone : ∀ e ∈ event :: earlier, main.optionFor e.lastInput = .ok none) :=
    prompts_exactly rfl rfl hn (Or.inl hmessage) hlast rfl rfl hroom run hnone
  refine ⟨hthird, hn, (h second [] hsecond ?_).1 (by decide), ((h third [second] hthird ?_).2 rfl).2.1 rfl⟩
  · intro e he
    rw [List.mem_singleton.mp he]
    rfl
  · intro e he
    rcases List.mem_pair.mp he with rfl | rfl <;> rfl

end Ensuing
end Switchboard
