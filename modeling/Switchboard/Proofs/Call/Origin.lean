import Switchboard.Proofs.Call.Answer

/-! # Where directives come from

Every directive of an answer is one of a block that the call goes through or is parked at, or one of the few that the
interpreter gives by itself. What can be told of all of these can be told of every answer.
-/
namespace Switchboard.Interpreter

variable {K : Type} {settings : Settings} {flow : CallFlow K} {event : CallEvent} {b : Block K} {hops counted : Int}
  {d : Directive} {s : CallScript} {v : Value}

/-- Where a directive of an answer comes from, if the call has gone through `counted` blocks after it. -/
inductive Origin (settings : Settings) (flow : CallFlow K) (event : CallEvent) (counted : Int) :
    Directive → Prop where
  | executed {b : Block K} {hops : Int} {effect : Effect} {d : Directive}
      (found : Graph.block? flow.blocks b.id = some b) (executes : execute settings flow event b hops = .ok effect)
      (mem : d ∈ effect.directives) : Origin settings flow event counted d
  | complains {b : Block K} {d : Directive} (found : Graph.block? flow.blocks b.id = some b)
      (speaks : speak settings b (complaint b event) = .ok d) : Origin settings flow event counted d
  | reoffers {b : Block K} {d : Directive} (found : Graph.block? flow.blocks b.id = some b) (menu : b.type = .menu)
      (offers : offer settings flow b (event.attempt + 1) (event.hops + 1) = .ok d) :
      Origin settings flow event counted d
  | parts {b : Block K} {message : Text} {d : Directive} (found : Graph.block? flow.blocks b.id = some b)
      (said : message ∈ [goodbyeMessage, unavailableMessage]) (speaks : speak settings b (.str message) = .ok d) :
      Origin settings flow event counted d
  | discloses {d : Directive} (mem : d ∈ (disclaimer settings flow).directives) :
      Origin settings flow event counted d
  | fails : Origin settings flow event counted (.say settings.errorMessage (some settings.defaultVoice))
  | limited (full : settings.maxHops ≤ counted) :
      Origin settings flow event counted (.say hopLimitMessage (some settings.defaultVoice))
  | hangsUp : Origin settings flow event counted .hangup

/-- What holds of the directives of every block, and of those that end a walk where it cannot go on, holds of those of a
walk. The induction is on the budget, of which a walk has used up as much as it has gone through blocks. -/
theorem walk_forall {P : Directive → Prop} {budget : Nat}
    (hexecute : ∀ b hops effect, Graph.block? flow.blocks b.id = some b →
      execute settings flow event b hops = .ok effect → ∀ d ∈ effect.directives, P d)
    (hmissing : ∀ d ∈ farewell settings settings.errorMessage, P d)
    (hlimit : s.visited.length = budget → ∀ d ∈ farewell settings hopLimitMessage, P d)
    (h : walk settings flow event budget hops v = .ok s) : ∀ d ∈ s.directives, P d := by
  induction budget generalizing hops v s with
  | zero =>
    cases h
    exact hlimit rfl
  | succ budget ih =>
    obtain ⟨found, hfound, h⟩ := Outcome.bind_eq_ok.mp h
    cases found with
    | none =>
      cases h
      exact hmissing
    | some b =>
      obtain ⟨effect, heffect, h⟩ := Outcome.bind_eq_ok.mp h
      have heach := hexecute b _ effect (Graph.block?_of_lookup hfound) heffect
      cases hnext : effect.next with
      | none =>
        simp only [hnext, Outcome.pure_eq_ok] at h
        exact h ▸ heach
      | some next =>
        simp only [hnext] at h
        obtain ⟨rest, hrest, h⟩ := Outcome.bind_eq_ok.mp h
        rw [← Outcome.pure_eq_ok.mp h] at hlimit ⊢
        intro d hd
        rcases List.mem_append.mp hd with hd | hd
        · exact heach d hd
        · refine ih (fun hfull => hlimit ?_) hrest d hd
          simp [hfull]

theorem origin_of_walkFrom (h : walkFrom settings flow event v = .ok s) (hd : d ∈ s.directives) :
    Origin settings flow event (event.hops + s.visited.length) d := by
  refine walk_forall (P := Origin settings flow event (event.hops + s.visited.length)) ?_ ?_ ?_ h d hd
  · exact fun b hops effect found executes d mem => .executed found executes mem
  · simpa [farewell] using ⟨.fails, .hangsUp⟩
  · intro hfull
    simp only [farewell, List.forall_mem_cons, List.not_mem_nil, false_imp_iff, implies_true, and_true]
    refine ⟨.limited ?_, .hangsUp⟩
    rw [hfull, budget]
    omega

theorem origin_of_farewell {message : Text}
    (hsay : Origin settings flow event counted (.say message (some settings.defaultVoice)))
    (hd : d ∈ (apology settings message).directives) : Origin settings flow event counted d := by
  rcases List.mem_pair.mp hd with rfl | rfl
  · exact hsay
  · exact .hangsUp

theorem Resumed.origin (found : Graph.block? flow.blocks b.id = some b) (h : Resumed settings flow b event s)
    (hd : d ∈ s.directives) : Origin settings flow event (event.hops + s.visited.length) d := by
  cases h with
  | walks heads walk => exact origin_of_walkFrom walk hd
  | reoffers menu counted more room offers =>
    obtain ⟨say, gather, hsay, hgather, rfl⟩ := offerAgain_eq_ok.mp offers
    rcases List.mem_pair.mp hd with rfl | rfl
    · exact .complains found hsay
    · exact .reoffers found menu hgather
  | limited full =>
    refine origin_of_farewell (.limited ?_) hd
    rw [budget] at full
    simp only [apology, CallScript.ofDirectives, List.length_nil]
    omega
  | parts said speaks =>
    obtain ⟨say, hsay, hds⟩ := Outcome.bind_eq_ok.mp speaks
    obtain rfl := Outcome.pure_eq_ok.mp hds
    rcases List.mem_pair.mp hd with rfl | rfl
    · exact .parts found said hsay
    · exact .hangsUp
  | hangsUp =>
    rw [List.mem_singleton.mp hd]
    exact .hangsUp

theorem Answered.origin (h : Answered settings flow event s) (hd : d ∈ s.directives) :
    Origin settings flow event (event.hops + s.visited.length) d := by
  cases h with
  | begins fresh entry walk =>
    rw [CallScript.visited_append, disclaimer_visited, List.nil_append]
    rcases List.mem_append.mp hd with hd | hd
    · exact .discloses hd
    · exact origin_of_walkFrom walk hd
  | resumes parked found resumed => exact resumed.origin found hd
  | lost => exact origin_of_farewell .fails hd

theorem mem_closing {spoken closing : List Directive} {c : Continuation} (hpasses : ∀ d ∈ spoken, d.passes = true)
    (hd : d ∈ spoken ++ closing) (hc : d.continuation? = some c) : d ∈ closing := by
  rcases List.mem_append.mp hd with hd | hd
  · rw [Directive.continuation?_of_passes (hpasses d hd)] at hc
    cases hc
  · exact hd

theorem continuation?_of_handOn {ds : List Directive} (hpasses : ∀ d ∈ ds, d.passes = true)
    (hd : d ∈ (handOn b ds).directives) : d.continuation? = none := by
  rcases mem_handOn hd with hd | rfl
  · exact Directive.continuation?_of_passes (hpasses d hd)
  · rfl

/-- A block that hands the call back tells its own place and no failed attempt; and a gathering is its offer as a
menu. -/
theorem place_of_execute {effect : Effect} {c : Continuation} (h : execute settings flow event b hops = .ok effect)
    (hd : d ∈ effect.directives) (hc : d.continuation? = some c) :
    c = { flowId := flow.id, blockId := b.id, hops } ∧
      ∀ prompt voice digits timeout, d = .gather prompt voice digits timeout c →
        offer settings flow b 0 hops = .ok d := by
  rcases execute_cases h with ⟨-, ds, hpasses, rfl⟩ | ⟨-, gather, hgather, rfl⟩ | ⟨-, ds, hds, rfl⟩ |
    ⟨-, ds, hds, rfl⟩
  · rw [continuation?_of_handOn hpasses hd] at hc
    cases hc
  · obtain rfl := List.mem_singleton.mp hd
    obtain ⟨prompt, voice, digits, timeout, rfl⟩ := offer_gathers hgather
    cases hc
    exact ⟨rfl, fun _ _ _ _ _ => hgather⟩
  · rcases connect_dials hds with hends | ⟨numbers, timeout, caller, recorded, -, rfl⟩
    · obtain ⟨say, hsay, rfl⟩ := speakAndEnd_speaks hends
      have hpasses : ∀ d ∈ [say], d.passes = true := by simpa using passes_of_speak hsay
      have hlast : d ∈ [.hangup] := mem_closing hpasses hd hc
      rw [List.mem_singleton.mp hlast] at hc
      cases hc
    · obtain rfl := List.mem_singleton.mp hd
      cases hc
      exact ⟨rfl, nofun⟩
  · obtain ⟨spoken, hspoken, rfl | rfl⟩ := close_ends hds
    · rw [List.mem_singleton.mp (mem_closing hspoken hd hc)] at hc
      cases hc
    · rcases List.mem_pair.mp (mem_closing hspoken hd hc) with rfl | rfl
      · cases hc
        exact ⟨rfl, nofun⟩
      · cases hc

theorem attempt_of_walkFrom {c : Continuation} (h : walkFrom settings flow event v = .ok s) (hc : c ∈ s.continuations) :
    c.attempt = 0 := by
  obtain ⟨d, hd, hdc⟩ := List.mem_filterMap.mp hc
  have hfarewell (message : Text) (d : Directive) (hd : d ∈ farewell settings message) :
      ∀ c, d.continuation? = some c → c.attempt = 0 := by
    rcases List.mem_pair.mp hd with rfl | rfl <;> simp [Directive.continuation?]
  refine walk_forall (P := fun d => ∀ c, d.continuation? = some c → c.attempt = 0) ?_ (hfarewell _)
    (fun _ => hfarewell _) h d hd c hdc
  intro b hops effect _ heffect d hd c hc
  rw [(place_of_execute heffect hd hc).1]

theorem continuations_of_speakAndEnd {message : Text} {ds : List Directive}
    (h : speakAndEnd settings b message = .ok ds) : (CallScript.ofDirectives ds).continuations = [] := by
  obtain ⟨say, hsay, rfl⟩ := speakAndEnd_speaks h
  refine List.filterMap_eq_nil_iff.mpr fun d hd => ?_
  rcases List.mem_pair.mp hd with rfl | rfl
  · exact Directive.continuation?_of_passes (passes_of_speak hsay)
  · rfl

theorem Origin.offered {prompt : Text} {voice : Option Text} {digits timeout : Int} {c : Continuation}
    (h : Origin settings flow event counted (.gather prompt voice digits timeout c)) :
    ∃ b, Graph.block? flow.blocks b.id = some b ∧ b.id = c.blockId ∧
      offer settings flow b c.attempt c.hops = .ok (.gather prompt voice digits timeout c) := by
  cases h with
  | @executed b hops effect _ found executes mem =>
    obtain ⟨rfl, hoffer⟩ := place_of_execute executes mem rfl
    exact ⟨b, found, rfl, hoffer _ _ _ _ rfl⟩
  | complains found speaks => cases passes_of_speak speaks
  | @reoffers b _ found menu offers =>
    obtain ⟨_, _, _, _, hd⟩ := offer_gathers offers
    cases hd
    exact ⟨b, found, rfl, offers⟩
  | parts found said speaks => cases passes_of_speak speaks
  | discloses mem =>
    unfold disclaimer at mem
    split at mem
    · cases List.mem_singleton.mp mem
    · cases mem

end Switchboard.Interpreter
