import Switchboard.Proofs.Call.Steady
import Switchboard.Proofs.Value.Kinds

/-! # Settings that no call fails on

The validation of a flow leaves some settings free that calls depend on: what is spoken, called or sent to has to be
a text, and a number that is waited, tried or repeated has to be finite. A flow that may be saved and whose settings
are of this kind answers every event, so its calls never end in the apology for a failure. The validation alone does
not ensure it.
-/
namespace Switchboard

variable {K : Type}

namespace Value

/-- Whether a value can be used as a text: it is one, or it counts as nothing and something else is used. -/
def isWording : Value → Bool
  | .str _ => true
  | v => !v.truthy

def isInfinite : Value → Bool
  | .float (.infinite _) => true
  | _ => false

def countsInfinite (v : Value) : Bool :=
  match v.toNumber with
  | .ok (.infinite _) => true
  | _ => false

theorem eq_of_truthy? {v w : Value} (h : v.truthy? = some w) : w = v := by
  unfold truthy? at h
  split at h
  · exact (Option.some.inj h).symm
  · cases h

theorem orElse_ofText? {v : Value} (h : v.isWording = true) (alternative : Option Text) :
    ∃ s, v.orElse (.ofText? alternative) = .ofText? s := by
  unfold orElse
  split
  · rename_i htruthy
    cases v with
    | str s => exact ⟨some s, rfl⟩
    | _ => simp_all [isWording]
  · exact ⟨alternative, rfl⟩

theorem orElse_str {v : Value} (h : v.isWording = true) (alternative : Text) :
    ∃ s, v.orElse (.str alternative) = .str s := by
  unfold orElse
  split
  · rename_i htruthy
    cases v with
    | str s => exact ⟨s, rfl⟩
    | _ => simp_all [isWording]
  · exact ⟨alternative, rfl⟩

theorem toNumber_ne_infinite {v : Value} (h : v.countsInfinite = false) (negative : Bool) :
    v.toNumber ≠ .ok (.infinite negative) := by
  intro he
  simp [countsInfinite, he] at h

end Value

namespace Block

def wording (b : Block K) (key : Text) : Bool := (b.config.get key).isWording

def bounded (b : Block K) (key : Text) : Bool := !(b.config.get key).countsInfinite

def callerIsText (b : Block K) : Bool :=
  match b.config.get "caller_id" with
  | .null | .str _ => true
  | _ => false

def writable (b : Block K) (key : Text) : Bool := (b.config.get key).hasText

def hasWritableNumbers (b : Block K) : Bool :=
  (Interpreter.destinations b).toOption.all fun numbers => numbers.all Value.hasText

/-- Whether the settings that a block uses, and that its validation leaves free, are texts where texts are used, can be
written where they are written as texts, and are finite where they are numbers. -/
def isPlain (b : Block K) : Bool :=
  match b.type with
  | .say => b.wording "voice" && b.writable "text"
  | .hangup => b.wording "voice" && b.writable "message"
  | .play => b.bounded "loop" && b.writable "url"
  | .pause => b.bounded "seconds"
  | .sms => b.wording "to" && b.writable "body"
  | .menu => b.wording "voice" && b.wording "prompt" && b.wording "invalid_message" &&
      b.bounded "timeout" && !(b.config.get "max_attempts").isInfinite
  | .forward | .multiForward =>
    b.wording "voice" && b.callerIsText && b.bounded "timeout" && b.hasWritableNumbers

end Block

/-- Whether the numbers of seconds that stand in for settings that are not made can be converted. -/
def Settings.isPlain (s : Settings) : Bool :=
  (Binary64.ofInt? s.menuTimeout).isSome && (Binary64.ofInt? s.forwardTimeout).isSome

namespace Binary64

theorem ofInt?_ne_infinite {n : Int} {x : Binary64} (h : ofInt? n = some x) (negative : Bool) :
    x ≠ .infinite negative := by
  rintro rfl
  unfold ofInt? at h
  split at h <;> simp_all

theorem toIntegerBy_succeeds {round : Binary64 → Option Int}
    (hround : ∀ s m e, ∃ n, round (.finite s m e) = some n) {x : Binary64}
    (hx : ∀ negative, x ≠ .infinite negative) (hn : x ≠ .nan) : ∃ n, x.toIntegerBy round = .ok n := by
  cases x with
  | nan => exact absurd rfl hn
  | infinite negative => exact absurd rfl (hx negative)
  | finite s m e =>
    obtain ⟨n, hn⟩ := hround s m e
    exact ⟨n, by rw [toIntegerBy, hn]⟩

theorem toIntegerBy_ne_tooLarge {x : Binary64} (hx : ∀ negative, x ≠ .infinite negative) :
    x.toIntegerBy truncate? ≠ .error .tooLarge := by
  cases x with
  | nan => simp [toIntegerBy, truncate?]
  | infinite negative => exact absurd rfl (hx negative)
  | finite s m e => simp [toIntegerBy, truncate?]

end Binary64

namespace Validation

variable {b : Block K} {key : Text}

theorem toNumber_of_checkNumber (h : checkNumber b key = .ok []) :
    (b.config.get key).toNumber ≠ .error .tooLarge := by
  intro he
  unfold checkNumber at h
  simp only at h
  split at h
  · rename_i hunset
    cases hv : b.config.get key with
    | null => rw [hv] at he; simp [Value.toNumber, Value.asInt?] at he
    | str s =>
      rw [hv, Value.toNumber] at he
      split at he <;> simp at he
    | _ => simp [hv, isUnset] at hunset
  · obtain ⟨positive, hpositive, -⟩ := Outcome.bind_eq_ok.mp h
    simp [isPositive, he] at hpositive

theorem checkNumber_of_play (h : checkConfig b = .ok []) (htype : b.type = .play) :
    checkNumber b "loop" = .ok [] := by
  simp only [checkConfig, htype] at h
  exact Outcome.eq_nil_of_append h

theorem checkNumber_of_forward (h : checkConfig b = .ok []) (htype : b.type = .forward) :
    checkNumber b "timeout" = .ok [] := by
  simp only [checkConfig, htype] at h
  exact Outcome.eq_nil_of_append h

theorem checkNumbers_of_multiForward (h : checkConfig b = .ok []) (htype : b.type = .multiForward) :
    checkNumbers b = .ok [] ∧ checkNumber b "timeout" = .ok [] := by
  simp only [checkConfig, htype] at h
  obtain ⟨numbers, hnumbers, h⟩ := Outcome.bind_eq_ok.mp h
  obtain ⟨timeout, htimeout, h⟩ := Outcome.bind_eq_ok.mp h
  obtain ⟨rfl, rfl⟩ := List.append_eq_nil_iff.mp (Outcome.pure_eq_ok.mp h)
  exact ⟨hnumbers, htimeout⟩

theorem checks_of_menu (h : checkConfig b = .ok []) (htype : b.type = .menu) :
    checkNumber b "timeout" = .ok [] ∧ checkNumber b "max_attempts" = .ok [] ∧ checkOptions b = .ok [] := by
  simp only [checkConfig, htype] at h
  obtain ⟨timeout, htimeout, h⟩ := Outcome.bind_eq_ok.mp h
  obtain ⟨attempts, hattempts, h⟩ := Outcome.bind_eq_ok.mp h
  obtain ⟨options, hoptions, h⟩ := Outcome.bind_eq_ok.mp h
  obtain ⟨hnumbers, rfl⟩ := List.append_eq_nil_iff.mp (Outcome.pure_eq_ok.mp h)
  obtain ⟨hfirst, rfl⟩ := List.append_eq_nil_iff.mp hnumbers
  obtain ⟨-, rfl⟩ := List.append_eq_nil_iff.mp hfirst
  exact ⟨htimeout, hattempts, hoptions⟩

theorem toNumber_of_isPositive {v : Value} (h : isPositive v = .ok true) :
    ∃ x, v.toNumber = .ok x ∧ Binary64.ofInt 0 < x := by
  unfold isPositive at h
  split at h
  · rename_i x hx
    exact ⟨x, hx, of_decide_eq_true (Except.ok.inj h)⟩
  · cases h
  · cases h

/-- A numeric setting that is made and passes its check is a number above zero. -/
theorem toNumber_of_made (h : checkNumber b key = .ok []) (hmade : isUnset (b.config.get key) = false) :
    ∃ x, (b.config.get key).toNumber = .ok x ∧ Binary64.ofInt 0 < x := by
  simp only [checkNumber, hmade, Bool.false_eq_true, if_false] at h
  obtain ⟨positive, hpositive, h⟩ := Outcome.bind_eq_ok.mp h
  cases positive with
  | false => cases h
  | true => exact toNumber_of_isPositive hpositive

theorem toNumber_of_checkSeconds (h : checkSeconds b = .ok []) :
    ∃ x, (b.config.get "seconds").toNumber = .ok x ∧ x ≠ .nan := by
  unfold checkSeconds at h
  simp only at h
  split at h
  · rename_i hnull
    have hunset : isUnset (b.config.get "seconds") = true := by
      cases hv : b.config.get "seconds" <;> simp_all [Value.isNull, isUnset]
    simp [checkRequired, hunset, errorAt] at h
  · obtain ⟨positive, hpositive, h⟩ := Outcome.bind_eq_ok.mp h
    cases positive with
    | false => simp [errorAt] at h
    | true =>
      obtain ⟨x, hx, hpos⟩ := toNumber_of_isPositive hpositive
      refine ⟨x, hx, ?_⟩
      rintro rfl
      cases hpos

end Validation

namespace Interpreter
open Validation (checkNumber checkConfig Accepts)

variable {settings : Settings} {flow : CallFlow K} {event : CallEvent} {b : Block K} {hops : Int}

theorem atLeastOne_succeeds (fallback : Int) {x : Outcome Int} (h : x ≠ .error .tooLarge) :
    ∃ n, atLeastOne fallback x = .ok n := by
  unfold atLeastOne
  split
  · exact ⟨_, rfl⟩
  · exact absurd rfl h
  · exact ⟨_, rfl⟩

theorem numericSetting_succeeds {key : Text} {fallback : Int} (hf : (Binary64.ofInt? fallback).isSome = true)
    (hc : checkNumber b key = .ok []) (hb : b.bounded key = true) :
    ∃ n, numericSetting b.config key fallback = .ok n := by
  apply atLeastOne_succeeds
  unfold Value.orElse
  split
  · have hsmall := Validation.toNumber_of_checkNumber hc
    have hfinite := Value.toNumber_ne_infinite (by simpa [Block.bounded] using hb)
    cases hx : (b.config.get key).toNumber with
    | error fault => simpa [Except.bind, hx] using hsmall
    | ok x => exact Binary64.toIntegerBy_ne_tooLarge fun negative he => hfinite negative (he ▸ hx)
  · obtain ⟨x, hx⟩ := Option.isSome_iff_exists.mp hf
    have hnumber : (Value.int fallback).toNumber = .ok x := by
      simp only [Value.toNumber, Value.asInt?, hx]
    rw [hnumber]
    exact Binary64.toIntegerBy_ne_tooLarge (Binary64.ofInt?_ne_infinite hx)

theorem maxAttempts_succeeds (settings : Settings) (h : (b.config.get "max_attempts").isInfinite = false) :
    ∃ n, maxAttempts settings b = .ok n := by
  apply atLeastOne_succeeds
  unfold Value.orElse
  split
  · -- what is no float is read as an integer, and an integer is never too large
    cases hv : b.config.get "max_attempts" with
    | float x =>
      apply Binary64.toIntegerBy_ne_tooLarge
      rintro negative rfl
      rw [hv] at h
      cases h
    | str s =>
      rw [Value.toInteger]
      split <;> simp
    | _ => simp [Value.toInteger, Value.asInt?]
  · simp [Value.toInteger, Value.asInt?]

theorem pauseSeconds_succeeds (hc : Validation.checkSeconds b = .ok []) (hb : b.bounded "seconds" = true) :
    ∃ n, pauseSeconds b.config = .ok n := by
  have hx : ∃ x, ((b.config.get "seconds").orElse (.int 1)).toNumber = .ok x ∧ x ≠ .nan ∧
      ∀ negative, x ≠ .infinite negative := by
    unfold Value.orElse
    split
    · obtain ⟨x, hx, hnan⟩ := Validation.toNumber_of_checkSeconds hc
      have hfinite := Value.toNumber_ne_infinite (by simpa [Block.bounded] using hb)
      exact ⟨x, hx, hnan, fun negative he => hfinite negative (he ▸ hx)⟩
    · exact ⟨Binary64.ofInt 1, rfl, by decide, by decide⟩
  obtain ⟨x, hx, hnan, hfinite⟩ := hx
  have hround : ∀ s m e, ∃ n, Binary64.nearestInt? (.finite s m e) = some n := fun s m e => ⟨_, rfl⟩
  obtain ⟨n, hn⟩ := Binary64.toIntegerBy_succeeds hround hfinite hnan
  refine ⟨max 1 n, ?_⟩
  simp only [pauseSeconds, hx, bind, Except.bind, hn]
  rfl

theorem voice_str (settings : Settings) (hb : b.wording "voice" = true) : ∃ s, voice settings b = .str s :=
  Value.orElse_str hb settings.defaultVoice

theorem speak_succeeds (settings : Settings) (hb : b.wording "voice" = true) (text : Text) :
    ∃ d, speak settings b (.str text) = .ok d := by
  obtain ⟨name, hname⟩ := voice_str settings hb
  exact ⟨.say text (some name), by rw [speak, hname]; rfl⟩

theorem speakAndEnd_succeeds (settings : Settings) (hb : b.wording "voice" = true) (message : Text) :
    ∃ ds, speakAndEnd settings b message = .ok ds := by
  obtain ⟨d, hd⟩ := speak_succeeds settings hb message
  exact ⟨[d, .hangup], by rw [speakAndEnd, hd]; rfl⟩

theorem whenMade_succeeds {key : Text} {f : Value → Outcome Directive} (hb : b.writable key = true)
    (hf : ∀ v t, v.written = .ok t → ∃ d, f v = .ok d) : ∃ ds, whenMade b.config key f = .ok ds := by
  obtain ⟨t, ht⟩ := Value.written_succeeds_iff.mpr hb
  refine Outcome.mapM_succeeds fun v hv => hf v t ?_
  rwa [Value.eq_of_truthy? (Option.mem_toList.mp hv)]

theorem offer_succeeds (hs : settings.isPlain = true) (hc : checkConfig b = .ok []) (htype : b.type = .menu)
    (hb : b.isPlain = true) (attempt : Int) : ∃ d, offer settings flow b attempt hops = .ok d := by
  simp only [Block.isPlain, htype, Bool.and_eq_true] at hb
  obtain ⟨⟨⟨⟨hvoice, hprompt⟩, -⟩, hbounded⟩, -⟩ := hb
  obtain ⟨htimeout, -, hoptions⟩ := Validation.checks_of_menu hc htype
  obtain ⟨options, hoptions, -⟩ := Outcome.bind_eq_ok.mp hoptions
  obtain ⟨timeout, htimeout⟩ :=
    numericSetting_succeeds (Bool.and_eq_true_iff.mp hs).1 htimeout hbounded
  obtain ⟨prompt, hprompt⟩ := Value.orElse_str hprompt defaultPrompt
  obtain ⟨name, hname⟩ := voice_str settings hvoice
  simp only [offer, hoptions, htimeout, hprompt, hname, bind, Except.bind]
  exact ⟨_, rfl⟩

theorem destinations_succeeds (hc : checkConfig b = .ok []) (htype : b.type = .forward ∨ b.type = .multiForward) :
    ∃ numbers, destinations b = .ok numbers := by
  unfold destinations
  split
  · exact ⟨_, rfl⟩
  · rename_i hsingle
    have hmulti := htype.resolve_left hsingle
    obtain ⟨numbers, hnumbers, -⟩ := Outcome.bind_eq_ok.mp (Validation.checkNumbers_of_multiForward hc hmulti).1
    exact ⟨_, by rw [hnumbers]; rfl⟩

theorem connect_succeeds (hs : settings.isPlain = true) (hc : checkConfig b = .ok [])
    (htype : b.type = .forward ∨ b.type = .multiForward) (hb : b.isPlain = true) :
    ∃ ds, connect settings flow b hops = .ok ds := by
  have hplain : (b.wording "voice" && b.callerIsText && b.bounded "timeout" && b.hasWritableNumbers) = true := by
    rcases htype with htype | htype <;> simpa only [Block.isPlain, htype] using hb
  simp only [Bool.and_eq_true] at hplain
  obtain ⟨⟨⟨hvoice, hcaller⟩, hbounded⟩, hwritable⟩ := hplain
  obtain ⟨numbers, hnumbers⟩ := destinations_succeeds hc htype
  obtain ⟨texts, htexts⟩ : ∃ texts, numbers.mapM Value.written = .ok texts := by
    rw [Block.hasWritableNumbers, hnumbers] at hwritable
    exact Outcome.mapM_succeeds fun v hv => Value.written_succeeds_iff.mpr (List.all_eq_true.mp hwritable v hv)
  have hchecked : checkNumber b "timeout" = .ok [] := by
    rcases htype with htype | htype
    · exact Validation.checkNumber_of_forward hc htype
    · exact (Validation.checkNumbers_of_multiForward hc htype).2
  obtain ⟨timeout, htimeout⟩ :=
    numericSetting_succeeds (Bool.and_eq_true_iff.mp hs).2 hchecked hbounded
  have hread : ∃ caller, textPart? "caller_id" (b.config.get "caller_id") = .done caller := by
    unfold Block.callerIsText at hcaller
    split at hcaller
    · rename_i hnull
      exact ⟨none, by rw [hnull]; rfl⟩
    · rename_i s hstr
      exact ⟨some s, by rw [hstr]; rfl⟩
    · cases hcaller
  obtain ⟨caller, hcaller⟩ := hread
  simp only [connect, hnumbers, bind, Except.bind]
  split
  · exact speakAndEnd_succeeds settings hvoice missingDestinationMessage
  · simp only [htimeout, htexts, hcaller]
    exact ⟨_, rfl⟩

theorem close_succeeds (settings : Settings) (flow : CallFlow K) (htype : b.type = .hangup)
    (hb : b.isPlain = true) : ∃ ds, close settings flow b hops = .ok ds := by
  simp only [Block.isPlain, htype, Bool.and_eq_true] at hb
  have htext : ∃ text, closingText b = .ok text := by
    unfold closingText
    split
    · next message hmessage =>
      have hmade := hb.2
      rw [Block.writable, ← Value.eq_of_truthy? hmessage] at hmade
      exact Outcome.map_succeeds (Value.written_succeeds_iff.mpr hmade) _
    · exact ⟨_, rfl⟩
  refine Outcome.bind_succeeds htext fun text _ =>
    Outcome.bind_succeeds (Outcome.mapM_succeeds ?_) fun spoken _ => ⟨_, rfl⟩
  exact fun text _ => speak_succeeds settings hb.1 text

theorem execute_succeeds (hs : settings.isPlain = true) (hc : checkConfig b = .ok []) (hb : b.isPlain = true) :
    ∃ effect, execute settings flow event b hops = .ok effect := by
  unfold execute
  cases htype : b.type with
  | say =>
    simp only [Block.isPlain, htype, Bool.and_eq_true] at hb
    exact Outcome.map_succeeds (whenMade_succeeds hb.2 fun v t ht =>
      Outcome.bind_succeeds ⟨t, ht⟩ fun text _ => speak_succeeds settings hb.1 text) _
  | play =>
    simp only [Block.isPlain, htype, Bool.and_eq_true] at hb
    have hloop : ∃ n, numericSetting b.config "loop" 1 = .ok n :=
      numericSetting_succeeds rfl (Validation.checkNumber_of_play hc htype) hb.1
    exact Outcome.map_succeeds (whenMade_succeeds hb.2 fun v t ht =>
      Outcome.bind_succeeds ⟨t, ht⟩ fun url _ => Outcome.bind_succeeds hloop fun n _ => ⟨_, rfl⟩) _
  | pause =>
    simp only [Block.isPlain, htype] at hb
    simp only [checkConfig, htype] at hc
    exact Outcome.bind_succeeds (pauseSeconds_succeeds hc hb) fun seconds _ => ⟨_, rfl⟩
  | sms =>
    simp only [Block.isPlain, htype, Bool.and_eq_true] at hb
    obtain ⟨recipient, hrecipient⟩ := Value.orElse_ofText? hb.1 event.callerNumber
    have hread : textPart? "to" (.ofText? recipient) = .done recipient := by
      cases recipient <;> rfl
    refine Outcome.map_succeeds (whenMade_succeeds hb.2 fun v t ht =>
      Outcome.bind_succeeds ⟨t, ht⟩ fun body _ => ⟨.sms body recipient event.calledNumber, ?_⟩) _
    rw [hrecipient, hread]
    rfl
  | menu => exact Outcome.bind_succeeds (offer_succeeds hs hc htype hb 0) fun gather _ => ⟨_, rfl⟩
  | forward => exact Outcome.map_succeeds (connect_succeeds hs hc (Or.inl htype) hb) _
  | multiForward => exact Outcome.map_succeeds (connect_succeeds hs hc (Or.inr htype) hb) _
  | hangup => exact Outcome.map_succeeds (close_succeeds settings flow htype hb) _

section
variable (ha : Accepts flow.blocks flow.entryBlockId) (hs : settings.isPlain = true)
  (hp : ∀ b ∈ Graph.distinct flow.blocks, b.isPlain = true)

include ha hs hp

/-- A walk from a block on gets to its end. The induction is on the budget; the next block exists because the edges
of an accepted flow lead to blocks. -/
theorem walk_succeeds {budget : Nat} {v : Value} (hv : ∃ c, Graph.lookup flow.blocks v = .ok (some c)) :
    ∃ s, walk settings flow event budget hops v = .ok s := by
  induction budget generalizing hops v with
  | zero => exact ⟨_, rfl⟩
  | succ budget ih =>
    obtain ⟨b, hfound⟩ := hv
    have hb := Graph.block?_of_lookup hfound
    have hmem := Graph.mem_distinct_iff.mpr hb
    obtain ⟨effect, heffect⟩ : ∃ effect, execute settings flow event b (hops + 1) = .ok effect :=
      execute_succeeds hs (ha.checked hmem).2 (hp b hmem)
    simp only [walk, hfound, heffect, bind, Except.bind]
    cases hnext : effect.next with
    | none => exact ⟨_, rfl⟩
    | some next =>
      exact Outcome.bind_succeeds (ih (ha.lookup_next hmem (firstNext_of_execute heffect hnext)))
        fun rest _ => ⟨_, rfl⟩

variable (hb : Graph.block? flow.blocks b.id = some b)

include hb

theorem fallBack_succeeds (hvoice : b.wording "voice" = true) (message : Text) :
    ∃ s, fallBack settings flow b event message = .ok s := by
  unfold fallBack
  split
  · rename_i v hfail
    exact walk_succeeds ha hs hp (ha.lookup_onFail (Graph.mem_distinct_iff.mpr hb) hfail)
  · exact Outcome.map_succeeds (speakAndEnd_succeeds settings hvoice message) _

theorem resumeMenu_succeeds (htype : b.type = .menu) : ∃ s, resumeMenu settings flow b event = .ok s := by
  have hmem := Graph.mem_distinct_iff.mpr hb
  have hplain := hp b hmem
  have hc := (ha.checked hmem).2
  simp only [Block.isPlain, htype, Bool.and_eq_true, Bool.not_eq_true'] at hplain
  obtain ⟨⟨⟨⟨hvoice, -⟩, hinvalid⟩, -⟩, hattempts⟩ := hplain
  obtain ⟨options, hoptions, -⟩ := Outcome.bind_eq_ok.mp (Validation.checks_of_menu hc htype).2.2
  have hchoice : ∃ option, b.optionFor event.lastInput = .ok option := by
    unfold Block.optionFor
    split
    · exact ⟨none, rfl⟩
    · exact ⟨none, rfl⟩
    · exact Outcome.bind_succeeds ⟨options, hoptions⟩ fun options _ => ⟨_, rfl⟩
  refine Outcome.bind_succeeds hchoice fun choice hchoice => ?_
  cases choice with
  | some option =>
    dsimp only
    split
    · rename_i target htarget
      exact walk_succeeds ha hs hp (ha.lookup_target hmem htype hchoice htarget)
    · exact Outcome.map_succeeds (speakAndEnd_succeeds settings hvoice goodbyeMessage) _
  | none =>
    refine Outcome.bind_succeeds (maxAttempts_succeeds settings hattempts) fun attempts _ => ?_
    split
    · split
      · exact ⟨_, rfl⟩
      · obtain ⟨complaint, hcomplaint⟩ := Value.orElse_str hinvalid
          (if (event.lastInput.filter (· != ("" : Text))).isSome then invalidChoiceMessage else noInputMessage)
        have hsay := speak_succeeds settings hvoice complaint
        rw [← hcomplaint] at hsay
        refine Outcome.bind_succeeds hsay fun say _ => ?_
        exact Outcome.bind_succeeds (offer_succeeds hs hc htype (hp b hmem) _) fun gather _ => ⟨_, rfl⟩
    · exact fallBack_succeeds ha hs hp hb hvoice goodbyeMessage

theorem resume_succeeds : ∃ s, resume settings flow b event = .ok s := by
  have hplain := hp b (Graph.mem_distinct_iff.mpr hb)
  have hforward (htype : b.type = .forward ∨ b.type = .multiForward) :
      ∃ s, resumeForward settings flow b event = .ok s := by
    have hvoice : b.wording "voice" = true := by
      rcases htype with htype | htype <;> simp_all [Block.isPlain]
    unfold resumeForward
    split
    · exact ⟨_, rfl⟩
    · exact fallBack_succeeds ha hs hp hb hvoice unavailableMessage
  unfold resume
  split
  · rename_i htype
    exact resumeMenu_succeeds ha hs hp hb htype
  · rename_i htype
    exact hforward (Or.inl htype)
  · rename_i htype
    exact hforward (Or.inr htype)
  · exact ⟨_, rfl⟩
  · exact walk_succeeds ha hs hp ⟨b, by rw [Graph.lookup_str, hb]⟩

end

/-- A flow that may be saved and whose settings are plain is never left without an answer: no event of a call fails,
so what is said is what its blocks say. -/
theorem answer_of_plain (ha : Accepts flow.blocks flow.entryBlockId) (hs : settings.isPlain = true)
    (hp : ∀ b ∈ Graph.distinct flow.blocks, b.isPlain = true) (event : CallEvent) :
    ∃ s, answer settings flow event = .ok s ∧ handle settings (some flow) event = s := by
  have hanswer : ∃ s, answer settings flow event = .ok s := by
    unfold answer
    split
    · obtain ⟨e, he⟩ := ha.hasEntry
      have hin : ∃ c, Graph.lookup flow.blocks (.str e.id) = .ok (some c) :=
        ⟨e, by rw [Graph.lookup_str, Graph.block?_of_entryBlock he]⟩
      simp only [start, he, bind, Except.bind]
      exact Outcome.bind_succeeds (walk_succeeds ha hs hp hin) fun rest _ => ⟨_, rfl⟩
    · rename_i id hcurrent
      split
      · -- parked where no block is: the call ends, but nothing fails
        exact ⟨_, rfl⟩
      · rename_i b hb
        have hid := Graph.id_of_block?_eq_some hb
        subst hid
        exact resume_succeeds ha hs hp hb
  obtain ⟨s, hs⟩ := hanswer
  exact ⟨s, hs, by rw [handle, hs]⟩

theorem answer_of_plain_shop :
    let greeting : Block Unit := {
      id := "greeting", type := .play, position := ⟨(), ()⟩, next := ["main"]
      config := [("url", .str "https://example.com/hello.mp3"), ("loop", .str "2.5")] }
    let main : Block Unit := {
      id := "main", type := .menu, position := ⟨(), ()⟩, next := []
      config := [("prompt", .str "Press 1"), ("timeout", .int 4), ("options", .obj [("1", .str "desk")])] }
    let desk : Block Unit := {
      id := "desk", type := .forward, position := ⟨(), ()⟩, next := []
      config := [("to", .str "+15551230001"), ("on_fail", .str "main")] }
    let flow : CallFlow Unit := {
      id := some "f", owner := "o", phoneNumber := "+15550001111", blocks := [greeting, main, desk] }
    Accepts flow.blocks flow.entryBlockId ∧ Settings.isPlain {} = true ∧
    (∀ b ∈ Graph.distinct flow.blocks, b.isPlain = true) ∧
    ∃ s, answer {} flow {} = .ok s ∧ handle {} (some flow) {} = s := by
  intro greeting main desk flow
  have haccepts : Accepts flow.blocks flow.entryBlockId := by decide +kernel
  have hs : Settings.isPlain {} = true := by decide +kernel
  have hp : ∀ b ∈ Graph.distinct flow.blocks, b.isPlain = true := by decide +kernel
  exact ⟨haccepts, hs, hp, answer_of_plain haccepts hs hp {}⟩

/-- The validation alone does not keep a call from failing: it lets an infinite number of repeats pass. -/
theorem accepted_endless_fails :
    let greeting : Block Unit := {
      id := "greeting", type := .play, position := ⟨(), ()⟩, next := []
      config := [("url", .str "https://example.com/hello.mp3"), ("loop", .str "inf")] }
    let flow : CallFlow Unit := {
      id := some "f", owner := "o", phoneNumber := "+15550001111", blocks := [greeting] }
    Accepts flow.blocks flow.entryBlockId ∧ (∀ s, answer {} flow {} ≠ .ok s) ∧
    handle {} (some flow) {} = apology {} (Settings.errorMessage {}) := by
  intro greeting flow
  have haccepts : Accepts flow.blocks flow.entryBlockId := by decide +kernel
  have hfails : (answer {} flow {}).toOption = none := by decide +kernel
  have hsaid : handle {} (some flow) {} = apology {} (Settings.errorMessage {}) := by decide +kernel
  refine ⟨haccepts, ?_, hsaid⟩
  intro s h
  rw [h] at hfails
  cases hfails

end Interpreter
end Switchboard
