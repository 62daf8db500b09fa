import Switchboard.Proofs.Call.Origin
import Switchboard.Proofs.Value.Kinds

/-! # What is said in an answer

What a caller hears is one of the texts of the service, or it comes from the settings or from the flow. That the call
cannot be completed is said for its own sake only when it has gone through as many blocks as it may.
-/
namespace Switchboard

variable {K : Type}

/-- The texts of a flow that may be said: its disclaimer and whatever its blocks are set up with. -/
def CallFlow.texts (flow : CallFlow K) : List Text :=
  flow.recordingDisclaimer.toList ++ flow.blocks.flatMap fun b => b.config.filterMap fun entry => entry.2.text?

namespace Interpreter

variable {settings : Settings} {flow : CallFlow K} {event : CallEvent} {b : Block K} {hops counted : Int}
  {text key message : Text} {spoken : Option Text} {v : Value}

/-- What the service says in its own words, but for the notice that a call is too long. -/
def ownWords : List Text :=
  [goodbyeMessage, invalidChoiceMessage, noInputMessage, unavailableMessage, missingDestinationMessage,
    voicemailPrompt]

def givenWords (settings : Settings) (flow : CallFlow K) : List Text :=
  settings.errorMessage :: settings.recordingDisclaimer :: flow.texts

theorem text_mem_texts (found : Graph.block? flow.blocks b.id = some b) (h : (b.config.get key).truthy = true)
    (htext : (b.config.get key).text? = some text) : text ∈ flow.texts := by
  refine List.mem_append_right _ (List.mem_flatMap.mpr ⟨b, Graph.mem_of_block? found, ?_⟩)
  unfold Entries.get Entries.get? at h htext
  cases hv : b.config.lookup key with
  | none =>
    rw [hv] at h
    cases h
  | some v =>
    obtain ⟨before, after, hconfig, -⟩ := List.lookup_eq_some_iff.mp hv
    rw [hv, Option.getD_some] at htext
    exact List.mem_filterMap.mpr ⟨(key, v), by simp [hconfig], htext⟩

theorem text_of_speak (h : speak settings b v = .ok (.say text spoken)) : v = .str text := by
  obtain ⟨said, _, hv, -, hd⟩ := speak_eq_ok.mp h
  cases hd
  exact hv

theorem said_of_whenMade {f : Value → Outcome Directive} {ds : List Directive}
    (hf : ∀ v, f v = .ok (.say text spoken) → v.text? = some text) (h : whenMade b.config key f = .ok ds)
    (hd : .say text spoken ∈ ds) : (b.config.get key).truthy = true ∧ (b.config.get key).text? = some text := by
  obtain ⟨htruthy, hsaid⟩ := mem_whenMade h hd
  exact ⟨htruthy, hf _ hsaid⟩

theorem said_of_handOn {ds : List Directive} (hd : .say text spoken ∈ (handOn b ds).directives) :
    .say text spoken ∈ ds :=
  (mem_handOn hd).resolve_right nofun

theorem said_of_speakAndEnd {ds : List Directive} (h : speakAndEnd settings b message = .ok ds)
    (hd : .say text spoken ∈ ds) : text = message := by
  obtain ⟨say, hsay, rfl⟩ := speakAndEnd_speaks h
  rcases List.mem_pair.mp hd with rfl | hd
  · cases text_of_speak hsay
    rfl
  · cases hd

theorem said_of_connect {ds : List Directive} (h : connect settings flow b hops = .ok ds)
    (hd : .say text spoken ∈ ds) : text = missingDestinationMessage := by
  rcases connect_dials h with hends | ⟨numbers, timeout, caller, recorded, -, rfl⟩
  · exact said_of_speakAndEnd hends hd
  · cases List.mem_singleton.mp hd

theorem said_of_close {ds : List Directive} (h : close settings flow b hops = .ok ds) (hd : .say text spoken ∈ ds) :
    text = voicemailPrompt ∨
      (b.config.get "message").truthy = true ∧ (b.config.get "message").text? = some text := by
  obtain ⟨closing, hclosing, h⟩ := Outcome.bind_eq_ok.mp h
  obtain ⟨said, hsaid, h⟩ := Outcome.bind_eq_ok.mp h
  rw [← Outcome.pure_eq_ok.mp h] at hd
  have hmem : .say text spoken ∈ said := by
    rcases List.mem_append.mp hd with hd | hd
    · rcases List.mem_append.mp hd with hd | hd
      · exact hd
      · split at hd
        · cases List.mem_singleton.mp hd
        · cases hd
    · cases List.mem_singleton.mp hd
  obtain ⟨own, hown, hspeak⟩ := Outcome.mem_of_mapM_eq_ok hsaid hmem
  cases text_of_speak hspeak
  rw [Option.mem_toList] at hown
  unfold closingText Value.truthy? at hclosing
  split at hclosing
  · rename_i message hmessage
    obtain ⟨t, ht, rfl⟩ := Outcome.map_eq_ok.mp hclosing
    cases hown
    split at hmessage
    · rename_i htruthy
      cases hmessage
      exact Or.inr ⟨htruthy, Value.written_eq_ok.mp ht⟩
    · cases hmessage
  · split at hclosing
    · cases hclosing
      cases hown
      exact Or.inl rfl
    · cases hclosing
      cases hown

/-- What a block says is a setting of it, or what is said where a setting is missing. -/
theorem said_of_execute {effect : Effect} (h : execute settings flow event b hops = .ok effect)
    (hd : .say text spoken ∈ effect.directives) : text ∈ ownWords ∨
      ∃ key, (b.config.get key).truthy = true ∧ (b.config.get key).text? = some text := by
  unfold execute at h
  cases htype : b.type with
  | say =>
    simp only [htype] at h
    obtain ⟨ds, hds, rfl⟩ := Outcome.map_eq_ok.mp h
    refine Or.inr ⟨"text", said_of_whenMade (fun v hv => ?_) hds (said_of_handOn hd)⟩
    obtain ⟨t, ht, hv⟩ := Outcome.bind_eq_ok.mp hv
    obtain rfl : t = text := Value.str.inj (text_of_speak hv)
    exact Value.written_eq_ok.mp ht
  | play =>
    simp only [htype] at h
    obtain ⟨ds, hds, rfl⟩ := Outcome.map_eq_ok.mp h
    refine Or.inr ⟨"url", said_of_whenMade (fun v hv => ?_) hds (said_of_handOn hd)⟩
    obtain ⟨url, -, hv⟩ := Outcome.bind_eq_ok.mp hv
    obtain ⟨loop, -, hv⟩ := Outcome.bind_eq_ok.mp hv
    cases Outcome.pure_eq_ok.mp hv
  | pause =>
    simp only [htype] at h
    obtain ⟨seconds, -, h⟩ := Outcome.bind_eq_ok.mp h
    rw [← Outcome.pure_eq_ok.mp h] at hd
    cases List.mem_singleton.mp (said_of_handOn hd)
  | sms =>
    simp only [htype] at h
    obtain ⟨ds, hds, rfl⟩ := Outcome.map_eq_ok.mp h
    refine Or.inr ⟨"body", said_of_whenMade (fun v hv => ?_) hds (said_of_handOn hd)⟩
    obtain ⟨body, -, hv⟩ := Outcome.bind_eq_ok.mp hv
    simp only [Reading.outcome_eq_ok, Reading.seq_eq_done, Reading.map_eq_done] at hv
    obtain ⟨_, _, ⟨_, _, rfl⟩, _, hv⟩ := hv
    cases hv
  | menu =>
    simp only [htype] at h
    obtain ⟨gather, hgather, h⟩ := Outcome.bind_eq_ok.mp h
    obtain ⟨_, _, _, _, rfl⟩ := offer_gathers hgather
    rw [← Outcome.pure_eq_ok.mp h] at hd
    cases List.mem_singleton.mp hd
  | forward | multiForward =>
    simp only [htype] at h
    obtain ⟨ds, hds, rfl⟩ := Outcome.map_eq_ok.mp h
    exact Or.inl (by simp [ownWords, said_of_connect hds hd])
  | hangup =>
    simp only [htype] at h
    obtain ⟨ds, hds, rfl⟩ := Outcome.map_eq_ok.mp h
    rcases said_of_close hds hd with rfl | hsaid
    · exact Or.inl (by simp [ownWords])
    · exact Or.inr ⟨"message", hsaid⟩

/-- Wherever it comes from, what is said is said in the words of the service or in those that it was given, or it tells
that the call has gone through as many blocks as it may. -/
theorem Origin.said (h : Origin settings flow event counted (.say text spoken)) :
    text ∈ ownWords ∨ text ∈ givenWords settings flow ∨ text = hopLimitMessage ∧ settings.maxHops ≤ counted := by
  have hgiven (text : Text) (hmem : text ∈ flow.texts) : text ∈ givenWords settings flow :=
    List.mem_cons_of_mem _ (List.mem_cons_of_mem _ hmem)
  cases h with
  | executed found executes mem =>
    rcases said_of_execute executes mem with hown | ⟨key, htruthy, htext⟩
    · exact Or.inl hown
    · exact Or.inr (Or.inl (hgiven _ (text_mem_texts found htruthy htext)))
  | @complains b _ found speaks =>
    have htext := text_of_speak speaks
    unfold complaint Value.orElse at htext
    split at htext
    · rename_i htruthy
      have hmem : text ∈ flow.texts := text_mem_texts found htruthy (by rw [htext]; rfl)
      exact Or.inr (Or.inl (hgiven _ hmem))
    · rw [← Value.str.inj htext]
      left
      split <;> simp [ownWords]
  | reoffers found menu offers =>
    obtain ⟨_, _, _, _, hd⟩ := offer_gathers offers
    cases hd
  | parts found said speaks =>
    cases text_of_speak speaks
    rcases List.mem_pair.mp said with rfl | rfl <;> exact Or.inl (by simp [ownWords])
  | discloses mem =>
    unfold disclaimer at mem
    split at mem
    · cases List.mem_singleton.mp mem
      right
      left
      cases hflow : flow.recordingDisclaimer with
      | none => simp [givenWords]
      | some own =>
        rw [Option.filter_some]
        split <;> simp [givenWords, CallFlow.texts, hflow]
    · cases mem
  | fails => exact Or.inr (Or.inl List.mem_cons_self)
  | limited full => exact Or.inr (Or.inr ⟨rfl, full⟩)

end Interpreter
end Switchboard
