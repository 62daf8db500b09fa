import Switchboard.Proofs.Call.Script
import Switchboard.Proofs.Flow.Reach

/-! # What a callback is answered with

Every block either hands on to the next one or concludes the script, and so do a walk, the ways to go on after
a callback, and in the end the interpreter itself. A script is therefore complete whatever the flow holds.
-/
namespace Switchboard

variable {K : Type}

namespace Interpreter

variable {settings : Settings} {flow : CallFlow K} {event : CallEvent} {b : Block K} {hops : Int}
variable {d : Directive} {ds : List Directive}

@[simp] theorem textPart_eq_done {name : Text} {v : Value} {text : Text} :
    textPart name v = .done text ↔ v = .str text := by
  cases v <;> simp [textPart, Reading.text, Reading.under, Reading.fail]

theorem speak_eq_ok {v : Value} : speak settings b v = .ok d ↔
    ∃ text spoken, v = .str text ∧ textPart? "voice" (voice settings b) = .done spoken ∧ d = .say text spoken := by
  simp only [speak, Reading.outcome_eq_ok, Reading.seq_eq_done, Reading.map_eq_done, textPart_eq_done]
  constructor
  · rintro ⟨_, spoken, ⟨text, hv, rfl⟩, hspoken, rfl⟩
    exact ⟨text, spoken, hv, hspoken, rfl⟩
  · rintro ⟨text, spoken, hv, hspoken, rfl⟩
    exact ⟨_, spoken, ⟨text, hv, rfl⟩, hspoken, rfl⟩

theorem passes_of_speak {v : Value} (h : speak settings b v = .ok d) : d.passes = true := by
  obtain ⟨text, spoken, -, -, rfl⟩ := speak_eq_ok.mp h
  rfl

theorem speakAndEnd_speaks {message : Text} (h : speakAndEnd settings b message = .ok ds) :
    ∃ say, speak settings b (.str message) = .ok say ∧ ds = [say, .hangup] := by
  obtain ⟨say, hsay, h⟩ := Outcome.bind_eq_ok.mp h
  exact ⟨say, hsay, (Outcome.pure_eq_ok.mp h).symm⟩

theorem offer_eq_ok {attempt : Int} : offer settings flow b attempt hops = .ok d ↔
    ∃ options timeout prompt spoken, b.menuOptions = .ok options ∧
      numericSetting b.config "timeout" settings.menuTimeout = .ok timeout ∧
      (b.config.get "prompt").orElse (.str defaultPrompt) = .str prompt ∧
      textPart? "voice" (voice settings b) = .done spoken ∧
      d = .gather prompt spoken (digitsWanted options) timeout
        { flowId := flow.id, blockId := b.id, attempt, hops } := by
  simp only [offer, Outcome.bind_eq_ok, Reading.outcome_eq_ok, Reading.seq_eq_done, Reading.map_eq_done,
    textPart_eq_done]
  constructor
  · rintro ⟨options, hoptions, timeout, htimeout, _, _, ⟨_, _, ⟨_, _, ⟨_, spoken, ⟨prompt, hprompt, rfl⟩, hspoken, rfl⟩,
      hdigits, rfl⟩, hlimit, rfl⟩, hplace, rfl⟩
    cases hdigits
    cases hlimit
    cases hplace
    exact ⟨options, timeout, prompt, spoken, hoptions, htimeout, hprompt, hspoken, rfl⟩
  · rintro ⟨options, timeout, prompt, spoken, hoptions, htimeout, hprompt, hspoken, rfl⟩
    exact ⟨options, hoptions, timeout, htimeout, _, _, ⟨_, _, ⟨_, _, ⟨_, spoken, ⟨prompt, hprompt, rfl⟩, hspoken, rfl⟩,
      rfl, rfl⟩, rfl, rfl⟩, rfl, rfl⟩

theorem offer_gathers {attempt : Int} (h : offer settings flow b attempt hops = .ok d) :
    ∃ prompt voice digits timeout, d = .gather prompt voice digits timeout
      { flowId := flow.id, blockId := b.id, attempt, hops } := by
  obtain ⟨options, timeout, prompt, spoken, -, -, -, -, rfl⟩ := offer_eq_ok.mp h
  exact ⟨prompt, spoken, _, timeout, rfl⟩

theorem connect_dials (h : connect settings flow b hops = .ok ds) :
    speakAndEnd settings b missingDestinationMessage = .ok ds ∨
    ∃ numbers timeout caller recorded, numericSetting b.config "timeout" settings.forwardTimeout = .ok timeout ∧
      ds = [.dial numbers timeout caller recorded (some { flowId := flow.id, blockId := b.id, hops })] := by
  obtain ⟨numbers, -, h⟩ := Outcome.bind_eq_ok.mp h
  split at h
  · exact Or.inl h
  · obtain ⟨timeout, htimeout, h⟩ := Outcome.bind_eq_ok.mp h
    obtain ⟨written, -, h⟩ := Outcome.bind_eq_ok.mp h
    obtain ⟨dial, hdial, h⟩ := Outcome.bind_eq_ok.mp h
    simp only [Reading.outcome_eq_ok, Reading.seq_eq_done, Reading.map_eq_done] at hdial
    obtain ⟨f, c, ⟨g, r, ⟨caller, -, rfl⟩, -, rfl⟩, hc, rfl⟩ := hdial
    cases hc
    exact Or.inr ⟨_, timeout, caller, r, htimeout, (Outcome.pure_eq_ok.mp h).symm⟩

theorem close_ends (h : close settings flow b hops = .ok ds) :
    ∃ spoken, (∀ d ∈ spoken, d.passes = true) ∧
      (ds = spoken ++ [.hangup] ∨ ds = spoken ++
        [.record 120 true (some { flowId := flow.id, blockId := b.id, hops }), .hangup]) := by
  obtain ⟨said, -, h⟩ := Outcome.bind_eq_ok.mp h
  obtain ⟨spoken, hspoken, h⟩ := Outcome.bind_eq_ok.mp h
  have hp : ∀ d ∈ spoken, d.passes = true := by
    intro d hd
    obtain ⟨text, -, ht⟩ := Outcome.mem_of_mapM_eq_ok hspoken hd
    exact passes_of_speak ht
  refine ⟨spoken, hp, ?_⟩
  have hds := (Outcome.pure_eq_ok.mp h).symm
  split at hds
  · exact Or.inr (by simpa using hds)
  · exact Or.inl (by simpa using hds)

theorem mem_whenMade {config : Entries} {key : Text} {f : Value → Outcome Directive}
    (h : whenMade config key f = .ok ds) (hd : d ∈ ds) :
    (config.get key).truthy = true ∧ f (config.get key) = .ok d := by
  obtain ⟨v, hv, hfv⟩ := Outcome.mem_of_mapM_eq_ok h hd
  unfold Value.truthy? at hv
  split at hv
  · rename_i htruthy
    rw [List.mem_singleton.mp hv] at hfv
    exact ⟨htruthy, hfv⟩
  · cases hv

theorem passes_of_whenMade {config : Entries} {key : Text} {f : Value → Outcome Directive}
    (hf : ∀ v d, f v = .ok d → d.passes = true) (h : whenMade config key f = .ok ds) :
    ∀ d ∈ ds, d.passes = true :=
  fun d hd => hf _ d (mem_whenMade h hd).2

theorem mem_handOn (hd : d ∈ (handOn b ds).directives) : d ∈ ds ∨ d = .hangup := by
  unfold handOn at hd
  split at hd
  · exact Or.inl hd
  · rcases List.mem_append.mp hd with hd | hd
    · exact Or.inl hd
    · exact Or.inr (List.mem_singleton.mp hd)

/-- All that a block can do: it speaks, plays, waits or sends and hands on, or it stops with the offer of a menu, with
the call to a forward or with the end of the call. -/
theorem execute_cases {effect : Effect} (h : execute settings flow event b hops = .ok effect) :
    (b.type.isLinear = true ∧ ∃ ds, (∀ d ∈ ds, d.passes = true) ∧ effect = handOn b ds) ∨
    (b.type = .menu ∧ ∃ gather, offer settings flow b 0 hops = .ok gather ∧ effect = stop [gather]) ∨
    ((b.type = .forward ∨ b.type = .multiForward) ∧
      ∃ ds, connect settings flow b hops = .ok ds ∧ effect = stop ds) ∨
    (b.type = .hangup ∧ ∃ ds, close settings flow b hops = .ok ds ∧ effect = stop ds) := by
  unfold execute at h
  cases htype : b.type with
  | say =>
    simp only [htype] at h
    obtain ⟨ds, hds, rfl⟩ := Outcome.map_eq_ok.mp h
    refine Or.inl ⟨rfl, ds, passes_of_whenMade (fun v d hd => ?_) hds, rfl⟩
    obtain ⟨text, -, hd⟩ := Outcome.bind_eq_ok.mp hd
    exact passes_of_speak hd
  | play =>
    simp only [htype] at h
    obtain ⟨ds, hds, rfl⟩ := Outcome.map_eq_ok.mp h
    refine Or.inl ⟨rfl, ds, passes_of_whenMade (fun v d hd => ?_) hds, rfl⟩
    obtain ⟨url, -, hd⟩ := Outcome.bind_eq_ok.mp hd
    obtain ⟨loop, -, hd⟩ := Outcome.bind_eq_ok.mp hd
    rw [← Outcome.pure_eq_ok.mp hd]
    rfl
  | pause =>
    simp only [htype] at h
    obtain ⟨seconds, -, h⟩ := Outcome.bind_eq_ok.mp h
    exact Or.inl ⟨rfl, [.pause seconds], by simp [Directive.passes], (Outcome.pure_eq_ok.mp h).symm⟩
  | sms =>
    simp only [htype] at h
    obtain ⟨ds, hds, rfl⟩ := Outcome.map_eq_ok.mp h
    refine Or.inl ⟨rfl, ds, passes_of_whenMade (fun v d hd => ?_) hds, rfl⟩
    obtain ⟨body, -, hd⟩ := Outcome.bind_eq_ok.mp hd
    simp only [Reading.outcome_eq_ok, Reading.seq_eq_done, Reading.map_eq_done] at hd
    obtain ⟨f, sender, ⟨recipient, -, rfl⟩, -, rfl⟩ := hd
    rfl
  | menu =>
    simp only [htype] at h
    obtain ⟨gather, hgather, h⟩ := Outcome.bind_eq_ok.mp h
    exact Or.inr (Or.inl ⟨rfl, gather, hgather, (Outcome.pure_eq_ok.mp h).symm⟩)
  | forward =>
    simp only [htype] at h
    obtain ⟨ds, hds, rfl⟩ := Outcome.map_eq_ok.mp h
    exact Or.inr (Or.inr (Or.inl ⟨Or.inl rfl, ds, hds, rfl⟩))
  | multiForward =>
    simp only [htype] at h
    obtain ⟨ds, hds, rfl⟩ := Outcome.map_eq_ok.mp h
    exact Or.inr (Or.inr (Or.inl ⟨Or.inr rfl, ds, hds, rfl⟩))
  | hangup =>
    simp only [htype] at h
    obtain ⟨ds, hds, rfl⟩ := Outcome.map_eq_ok.mp h
    exact Or.inr (Or.inr (Or.inr ⟨rfl, ds, hds, rfl⟩))

theorem parked_at {attempt : Int} (hb : Graph.block? flow.blocks b.id = some b)
    (hd : d.continuation? = some { flowId := flow.id, blockId := b.id, attempt, hops := hops + 1 })
    (htype : d.parksAt b.type = true) :
    Parked (some flow) hops [b.id] d
      { flowId := flow.id, blockId := b.id, attempt, hops := hops + 1 } where
  carried := hd
  counted := rfl
  last := rfl
  placed := ⟨flow, b, rfl, rfl, hb, htype⟩

theorem concluded_hangUp (spoken : List Directive) (id : Text) (h : ∀ d ∈ spoken, d.passes = true) :
    Concluded (some flow) hops 1 { directives := spoken ++ [.hangup], visited := [id] } :=
  ⟨⟨spoken, [.hangup], rfl, h, .ended⟩, Nat.le_refl 1⟩

/-- The effects of a block that the call comes to after `hops` others: it hands on to the next one, or its
directives conclude the script. -/
inductive Effect.Sound (flow : CallFlow K) (hops : Int) (id : Text) : Effect → Prop where
  | handsOn {ds : List Directive} {next : Text} (passes : ∀ d ∈ ds, d.passes = true) :
      Effect.Sound flow hops id { directives := ds, next := some next }
  | concludes {ds : List Directive}
      (concluded : Concluded (some flow) hops 1 { directives := ds, visited := [id] }) :
      Effect.Sound flow hops id { directives := ds, next := none }

theorem handOn_sound (h : ∀ d ∈ ds, d.passes = true) : Effect.Sound flow hops b.id (handOn b ds) := by
  unfold handOn
  split
  · exact .handsOn h
  · exact .concludes (concluded_hangUp ds b.id h)

theorem stop_offer_sound {gather : Directive} {attempt : Int}
    (hb : Graph.block? flow.blocks b.id = some b) (htype : b.type = .menu)
    (h : offer settings flow b attempt (hops + 1) = .ok gather) :
    Effect.Sound flow hops b.id (stop [gather]) := by
  obtain ⟨prompt, voice, digits, timeout, rfl⟩ := offer_gathers h
  exact .concludes ⟨⟨[], _, rfl, by simp,
    .suspended rfl (parked_at hb rfl (by rw [htype]; rfl))⟩, Nat.le_refl 1⟩

theorem stop_connect_sound (hb : Graph.block? flow.blocks b.id = some b)
    (htype : b.type = .forward ∨ b.type = .multiForward)
    (h : connect settings flow b (hops + 1) = .ok ds) : Effect.Sound flow hops b.id (stop ds) := by
  rcases connect_dials h with hends | ⟨numbers, timeout, caller, recorded, -, rfl⟩
  · obtain ⟨say, hsay, rfl⟩ := speakAndEnd_speaks hends
    exact .concludes (concluded_hangUp [say] b.id (by simpa using passes_of_speak hsay))
  · exact .concludes ⟨⟨[], _, rfl, by simp, .suspended rfl
      (parked_at hb rfl (by rcases htype with htype | htype <;> rw [htype] <;> rfl))⟩, Nat.le_refl 1⟩

theorem stop_close_sound (hb : Graph.block? flow.blocks b.id = some b) (htype : b.type = .hangup)
    (h : close settings flow b (hops + 1) = .ok ds) : Effect.Sound flow hops b.id (stop ds) := by
  obtain ⟨spoken, hspoken, rfl | rfl⟩ := close_ends h
  · exact .concludes (concluded_hangUp spoken b.id hspoken)
  · exact .concludes ⟨⟨spoken, _, rfl, hspoken,
      .recorded (parked_at hb rfl (by rw [htype]; rfl))⟩, Nat.le_refl 1⟩

theorem execute_sound {effect : Effect} (hb : Graph.block? flow.blocks b.id = some b)
    (h : execute settings flow event b (hops + 1) = .ok effect) :
    Effect.Sound flow hops b.id effect := by
  rcases execute_cases h with ⟨-, ds, hds, rfl⟩ | ⟨htype, gather, hgather, rfl⟩ | ⟨htype, ds, hds, rfl⟩ |
    ⟨htype, ds, hds, rfl⟩
  · exact handOn_sound hds
  · exact stop_offer_sound hb htype hgather
  · exact stop_connect_sound hb htype hds
  · exact stop_close_sound hb htype hds

/-- Where a call goes on from the block at which it is parked: where the option leads that the caller chose, at the
block that is named for failures, or at the block itself if it waits for nothing. -/
inductive Heads (b : Block K) (event : CallEvent) : Value → Prop where
  | chosen {option : MenuOption} {target : Text} (menu : b.type = .menu)
      (found : b.optionFor event.lastInput = .ok (some option)) (leads : option.target? = some target) :
      Heads b event (.str target)
  | failed {v : Value} (named : b.onFail? = some v) : Heads b event v
  | again (linear : b.type.isLinear = true) : Heads b event (.str b.id)

theorem mem_edgeIds_of_heads {ids : List Text} {id : Text} (hids : b.edgeIds = .ok ids)
    (h : Heads b event (.str id)) : id ∈ ids ∨ b.type.isLinear = true ∧ id = b.id := by
  cases h with
  | chosen menu found leads => exact Or.inl (Block.target_mem_edgeIds hids menu found leads)
  | failed named => exact Or.inl (Block.onFail_mem_edgeIds hids named)
  | again linear => exact Or.inr ⟨linear, rfl⟩

/-- The answers of a block at which a call is parked: the call walks on, a menu is offered once more, or the call
ends. -/
inductive Resumed (settings : Settings) (flow : CallFlow K) (b : Block K) (event : CallEvent) :
    CallScript → Prop where
  | walks {v : Value} {s : CallScript} (heads : Heads b event v) (walk : walkFrom settings flow event v = .ok s) :
      Resumed settings flow b event s
  | reoffers {attempts : Int} {s : CallScript} (menu : b.type = .menu)
      (counted : maxAttempts settings b = .ok attempts) (more : event.attempt + 1 < attempts)
      (room : budget settings event.hops ≠ 0) (offers : offerAgain settings flow b event = .ok s) :
      Resumed settings flow b event s
  | limited (full : budget settings event.hops = 0) :
      Resumed settings flow b event (apology settings hopLimitMessage)
  | parts {message : Text} {ds : List Directive} (said : message ∈ [goodbyeMessage, unavailableMessage])
      (speaks : speakAndEnd settings b message = .ok ds) : Resumed settings flow b event (.ofDirectives ds)
  | hangsUp : Resumed settings flow b event (.ofDirectives [.hangup])

theorem resumed_of_fallBack {message : Text} {s : CallScript}
    (said : message ∈ [goodbyeMessage, unavailableMessage]) (h : fallBack settings flow b event message = .ok s) :
    Resumed settings flow b event s := by
  unfold fallBack at h
  split at h
  · exact .walks (.failed ‹_›) h
  · obtain ⟨ds, hds, rfl⟩ := Outcome.map_eq_ok.mp h
    exact .parts said hds

theorem resumed_of_resumeMenu {s : CallScript} (htype : b.type = .menu)
    (h : resumeMenu settings flow b event = .ok s) : Resumed settings flow b event s := by
  obtain ⟨option, hoption, h⟩ := Outcome.bind_eq_ok.mp h
  cases option with
  | some option =>
    dsimp only at h
    split at h
    · exact .walks (.chosen htype hoption ‹_›) h
    · obtain ⟨ds, hds, rfl⟩ := Outcome.map_eq_ok.mp h
      exact .parts (by simp) hds
  | none =>
    obtain ⟨attempts, hattempts, h⟩ := Outcome.bind_eq_ok.mp h
    split at h
    · rename_i more
      split at h
      · rename_i full
        rw [← Outcome.pure_eq_ok.mp h]
        exact .limited full
      · exact .reoffers htype hattempts more ‹_› h
    · exact resumed_of_fallBack (by simp) h

theorem resumed_of_resumeForward {s : CallScript} (h : resumeForward settings flow b event = .ok s) :
    Resumed settings flow b event s := by
  unfold resumeForward at h
  split at h
  · cases h
    exact .hangsUp
  · exact resumed_of_fallBack (by simp) h

theorem resumed_of_resume {s : CallScript} (h : resume settings flow b event = .ok s) :
    Resumed settings flow b event s := by
  unfold resume at h
  cases htype : b.type with
  | menu =>
    simp only [htype] at h
    exact resumed_of_resumeMenu htype h
  | forward | multiForward =>
    simp only [htype] at h
    exact resumed_of_resumeForward h
  | hangup =>
    simp only [htype] at h
    cases h
    exact .hangsUp
  | say | play | pause | sms =>
    simp only [htype] at h
    exact .walks (.again (by rw [htype]; rfl)) h

@[simp] theorem disclaimer_visited (settings : Settings) (flow : CallFlow K) :
    (disclaimer settings flow).visited = [] := by
  unfold disclaimer
  split <;> rfl

inductive Answered (settings : Settings) (flow : CallFlow K) (event : CallEvent) : CallScript → Prop where
  | begins {e : Block K} {rest : CallScript} (fresh : event.currentBlockId = none)
      (entry : Graph.entryBlock flow.blocks flow.entryBlockId = .ok (some e))
      (walk : walkFrom settings flow event (.str e.id) = .ok rest) :
      Answered settings flow event (disclaimer settings flow ++ rest)
  | resumes {b : Block K} {s : CallScript} (parked : event.currentBlockId = some b.id)
      (found : Graph.block? flow.blocks b.id = some b) (resumed : Resumed settings flow b event s) :
      Answered settings flow event s
  | lost : Answered settings flow event (apology settings settings.errorMessage)

theorem answered_of_answer {s : CallScript} (h : answer settings flow event = .ok s) :
    Answered settings flow event s := by
  unfold answer at h
  split at h
  · rename_i fresh
    obtain ⟨entry, hentry, h⟩ := Outcome.bind_eq_ok.mp h
    cases entry with
    | none =>
      rw [← Outcome.pure_eq_ok.mp h]
      exact .lost
    | some e =>
      obtain ⟨rest, hrest, h⟩ := Outcome.bind_eq_ok.mp h
      rw [← Outcome.pure_eq_ok.mp h]
      exact .begins fresh hentry hrest
  · rename_i id parked
    split at h
    · cases h
      exact .lost
    · rename_i b hb
      have hid := Graph.id_of_block?_eq_some hb
      subst hid
      exact .resumes parked hb (resumed_of_resume h)

theorem answered_handle (settings : Settings) (flow : CallFlow K) (event : CallEvent) :
    Answered settings flow event (handle settings (some flow) event) := by
  unfold handle
  dsimp only
  split
  · exact answered_of_answer ‹_›
  · exact .lost

theorem apology_concluded (flow : Option (CallFlow K)) (limit : Nat) (message : Text) :
    Concluded flow hops limit (apology settings message) :=
  Concluded.hangUp [.say message (some settings.defaultVoice)] (by simp [Directive.passes])

/-- A walk concludes a script within its budget. The induction is on the budget: each block takes one from it
and adds itself to the blocks of the rest. -/
theorem walk_concluded {budget : Nat} {id : Value} {s : CallScript}
    (h : walk settings flow event budget hops id = .ok s) : Concluded (some flow) hops budget s := by
  induction budget generalizing hops id s with
  | zero =>
    simp only [walk, Except.ok.injEq] at h
    exact h ▸ apology_concluded _ _ _
  | succ budget ih =>
    obtain ⟨found, hfound, h⟩ := Outcome.bind_eq_ok.mp h
    cases found with
    | none =>
      rw [← Outcome.pure_eq_ok.mp h]
      exact apology_concluded _ _ _
    | some b =>
      obtain ⟨effect, heffect, h⟩ := Outcome.bind_eq_ok.mp h
      have hb := Graph.block?_of_lookup hfound
      cases execute_sound hb heffect with
      | concludes concluded =>
        rw [← Outcome.pure_eq_ok.mp h]
        exact concluded.mono (by omega)
      | handsOn passes =>
        obtain ⟨rest, hrest, h⟩ := Outcome.bind_eq_ok.mp h
        rw [← Outcome.pure_eq_ok.mp h]
        exact (ih hrest).visit passes b.id

theorem walkFrom_concluded {id : Value} {s : CallScript} (h : walkFrom settings flow event id = .ok s) :
    Concluded (some flow) event.hops (budget settings event.hops) s :=
  walk_concluded h

def complaint (b : Block K) (event : CallEvent) : Value :=
  (b.config.get "invalid_message").orElse
    (.str (if (event.lastInput.filter (· != ("" : Text))).isSome then invalidChoiceMessage else noInputMessage))

/-- A menu is offered again after a complaint, with one more attempt and one more block. -/
theorem offerAgain_eq_ok {s : CallScript} : offerAgain settings flow b event = .ok s ↔
    ∃ say gather, speak settings b (complaint b event) = .ok say ∧
      offer settings flow b (event.attempt + 1) (event.hops + 1) = .ok gather ∧
      s = { directives := [say, gather], visited := [b.id] } := by
  unfold offerAgain
  simp only [Outcome.bind_eq_ok, Outcome.pure_eq_ok, eq_comm (b := s)]
  constructor
  · rintro ⟨say, hsay, gather, hgather, hs⟩
    exact ⟨say, gather, hsay, hgather, hs⟩
  · rintro ⟨say, gather, hsay, hgather, hs⟩
    exact ⟨say, hsay, gather, hgather, hs⟩

theorem offerAgain_concluded {s : CallScript} (hb : Graph.block? flow.blocks b.id = some b)
    (htype : b.type = .menu) (hbudget : budget settings event.hops ≠ 0)
    (h : offerAgain settings flow b event = .ok s) :
    Concluded (some flow) event.hops (budget settings event.hops) s := by
  obtain ⟨say, gather, hsay, hgather, rfl⟩ := offerAgain_eq_ok.mp h
  obtain ⟨prompt, voice, digits, timeout, rfl⟩ := offer_gathers hgather
  refine ⟨⟨[say], _, rfl, by simpa using passes_of_speak hsay,
    .suspended rfl (parked_at hb rfl (by rw [htype]; rfl))⟩, ?_⟩
  simp only [List.length_singleton]
  omega

theorem Resumed.concluded {s : CallScript} (hb : Graph.block? flow.blocks b.id = some b)
    (h : Resumed settings flow b event s) :
    Concluded (some flow) event.hops (budget settings event.hops) s := by
  cases h with
  | walks heads walk => exact walkFrom_concluded walk
  | reoffers menu counted more room offers => exact offerAgain_concluded hb menu room offers
  | limited full => exact apology_concluded _ _ _
  | parts said speaks =>
    obtain ⟨say, hsay, rfl⟩ := speakAndEnd_speaks speaks
    exact Concluded.hangUp [say] (by simpa using passes_of_speak hsay)
  | hangsUp => exact Concluded.hangUp [] (by simp)

theorem Answered.concluded {s : CallScript} (h : Answered settings flow event s) :
    Concluded (some flow) event.hops (budget settings event.hops) s := by
  cases h with
  | begins fresh entry walk =>
    have hr := walkFrom_concluded walk
    unfold disclaimer
    split
    · exact hr.speak _ (by simp [Directive.passes])
    · exact hr.speak [] (by simp)
  | resumes parked found resumed => exact resumed.concluded found
  | lost => exact apology_concluded _ _ _

/-- Every answer is complete, and counts the blocks of the call on from the event. -/
theorem handle_concluded (settings : Settings) (flow : Option (CallFlow K)) (event : CallEvent) :
    Concluded flow event.hops (budget settings event.hops) (handle settings flow event) := by
  cases flow with
  | none => exact apology_concluded _ _ _
  | some flow => exact (answered_handle settings flow event).concluded

section
variable {other : Settings} {changed : CallFlow K} (hvoice : other.defaultVoice = settings.defaultVoice)
  (hwalk : ∀ v, Heads b event v → walkFrom other changed event v = walkFrom settings flow event v)

include hvoice

omit hwalk in
theorem speakAndEnd_congr (message : Text) : speakAndEnd other b message = speakAndEnd settings b message := by
  rw [speakAndEnd, speakAndEnd, speak, speak, voice, voice, hvoice]

include hwalk

theorem fallBack_congr (message : Text) :
    fallBack other changed b event message = fallBack settings flow b event message := by
  unfold fallBack
  split
  · exact hwalk _ (.failed ‹_›)
  · rw [speakAndEnd_congr hvoice]

/-- A menu goes on alike under other settings and in another flow if walks do, it is as often offered again, and the
call has room for that. -/
theorem resumeMenu_congr (htype : b.type = .menu) (hattempts : other.menuMaxAttempts = settings.menuMaxAttempts)
    (hagain : offerAgain other changed b event = offerAgain settings flow b event)
    (hroom : ∀ n, maxAttempts settings b = .ok n → event.attempt + 1 < n →
      (budget other event.hops = 0 ↔ budget settings event.hops = 0)) :
    resumeMenu other changed b event = resumeMenu settings flow b event := by
  have hmax : maxAttempts other b = maxAttempts settings b := by rw [maxAttempts, maxAttempts, hattempts]
  unfold resumeMenu
  cases hoption : b.optionFor event.lastInput with
  | error fault => rfl
  | ok option =>
    simp only [bind, Except.bind]
    cases option with
    | some option =>
      cases htarget : option.target? with
      | none => simp only [htarget, speakAndEnd_congr hvoice]
      | some target =>
        simp only [htarget]
        exact hwalk _ (.chosen htype hoption htarget)
    | none =>
      rw [hmax]
      cases hn : maxAttempts settings b with
      | error fault => rfl
      | ok n =>
        dsimp only
        rw [fallBack_congr hvoice hwalk, hagain]
        split
        · rename_i hmore
          simp only [hroom n hn hmore, apology, farewell, hvoice]
        · rfl

theorem resume_congr
    (hmenu : b.type = .menu → resumeMenu other changed b event = resumeMenu settings flow b event) :
    resume other changed b event = resume settings flow b event := by
  have hforward : resumeForward other changed b event = resumeForward settings flow b event := by
    unfold resumeForward
    rw [fallBack_congr hvoice hwalk]
  unfold resume
  cases htype : b.type with
  | menu => exact hmenu htype
  | forward | multiForward => exact hforward
  | hangup => rfl
  | say | play | pause | sms => exact hwalk _ (.again (by rw [htype]; rfl))

end

theorem answer_of_parked {c : Continuation} {next : CallEvent}
    (hb : Graph.block? flow.blocks c.blockId = some b) (htype : d.parksAt b.type = true)
    (hnext : next.Returns c) :
    b.type = .menu ∧ answer settings flow next = resumeMenu settings flow b next ∨
    (b.type = .forward ∨ b.type = .multiForward) ∧
      answer settings flow next = resumeForward settings flow b next ∨
    b.type = .hangup ∧ answer settings flow next = .ok (.ofDirectives [.hangup]) := by
  have ha : answer settings flow next = resume settings flow b next := by
    simp only [answer, hnext.1, hb]
  rw [ha]
  unfold resume
  cases ht : b.type with
  | menu => simp
  | forward => simp
  | multiForward => simp
  | hangup => simp
  | say => cases d <;> simp [Directive.parksAt, ht] at htype
  | play => cases d <;> simp [Directive.parksAt, ht] at htype
  | pause => cases d <;> simp [Directive.parksAt, ht] at htype
  | sms => cases d <;> simp [Directive.parksAt, ht] at htype

/-- Every answer is a usable script. An event that returns its continuation finds the block where the call is
parked, as long as the flow does not change, and goes on there in the way of the block's type; it never walks
on from the block itself. -/
theorem handle_usable (settings : Settings) (flow : Option (CallFlow K)) (event : CallEvent) :
    (handle settings flow event).Usable flow ∧
    ∀ f, flow = some f → ∀ c ∈ (handle settings flow event).continuations,
      ∀ next : CallEvent, next.Returns c → ∃ b, Graph.block? f.blocks c.blockId = some b ∧
        (b.type = .menu ∧ answer settings f next = resumeMenu settings f b next ∨
        (b.type = .forward ∨ b.type = .multiForward) ∧
          answer settings f next = resumeForward settings f b next ∨
        b.type = .hangup ∧ answer settings f next = .ok (.ofDirectives [.hangup])) := by
  have hs := handle_concluded settings flow event
  refine ⟨hs.usable, ?_⟩
  intro f hf c hc next hnext
  obtain ⟨d, parked⟩ := hs.parked_of_mem hc
  obtain ⟨f', b, hf', -, hb, htype⟩ := parked.placed
  obtain rfl : f = f' := Option.some.inj (hf.symm.trans hf')
  exact ⟨b, hb, answer_of_parked hb htype hnext⟩

theorem handle_usable_menu :
    let menu : Block Unit := {
      id := "main", type := .menu, config := [("prompt", .str "Press 1")], position := ⟨(), ()⟩, next := [] }
    let welcome : Block Unit := {
      id := "welcome", type := .say, config := [("text", .str "Hello")], position := ⟨(), ()⟩
      next := ["main"] }
    let f : CallFlow Unit := {
      id := some "f", owner := "o", phoneNumber := "+15550001111", blocks := [welcome, menu] }
    let c : Continuation := { flowId := some "f", blockId := "main", hops := 2 }
    let next : CallEvent := { currentBlockId := some "main", lastInput := some "7", hops := 2 }
    c ∈ (handle {} (some f) {}).continuations ∧ next.Returns c ∧
    (handle {} (some f) {}).Usable (some f) ∧
    ∃ b, Graph.block? f.blocks c.blockId = some b ∧
      (b.type = .menu ∧ answer {} f next = resumeMenu {} f b next ∨
      (b.type = .forward ∨ b.type = .multiForward) ∧
        answer {} f next = resumeForward {} f b next ∨
      b.type = .hangup ∧ answer {} f next = .ok (.ofDirectives [.hangup])) := by
  intro menu welcome f c next
  have hc : c ∈ (handle {} (some f) {}).continuations := by decide +kernel
  have hnext : next.Returns c := ⟨rfl, rfl, rfl⟩
  have h := handle_usable {} (some f) {}
  exact ⟨hc, hnext, h.1, h.2 f rfl c hc next hnext⟩

end Interpreter
end Switchboard
