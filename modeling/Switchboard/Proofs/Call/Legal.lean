import Switchboard.Proofs.Call.Origin
import Switchboard.Proofs.Markup.Legal
import Switchboard.Proofs.Markup.Writable
import Switchboard.Proofs.Value.Kinds

/-! # Scripts of legal texts

What a script says, plays, sends and dials comes from the settings, from the configuration of the blocks and from the
event. Where the texts among these are legal, every directive of the answer is.
-/
namespace Switchboard

def Value.isLegal (v : Value) : Bool :=
  v.asText?.all Text.isLegal

/-- Whether a value is legal if it is a text, and so is what one comes by in going through it. -/
def Value.isLegalThrough (v : Value) : Bool :=
  v.isLegal && match v.items with
    | .ok items => items.all Value.isLegal
    | .error _ => true

def Block.isLegal {K : Type} (b : Block K) : Bool :=
  b.config.all fun entry => entry.2.isLegalThrough

def CallFlow.isLegal {K : Type} (flow : CallFlow K) : Bool :=
  flow.recordingDisclaimer.all Text.isLegal && flow.blocks.all Block.isLegal

/-- Whether the ids of a flow and of its blocks are strings. -/
def CallFlow.hasPlainIds {K : Type} (flow : CallFlow K) : Bool :=
  flow.id.all Text.isPlain && flow.blocks.all fun b => b.id.isPlain

def CallEvent.isLegal (event : CallEvent) : Bool :=
  event.calledNumber.all Text.isLegal && event.callerNumber.all Text.isLegal

def Settings.isLegal (settings : Settings) : Bool :=
  [settings.publicBaseUrl, settings.defaultVoice, settings.recordingDisclaimer, settings.noFlowMessage,
    settings.errorMessage].all Text.isLegal

theorem Directive.isLegal_eq_all (d : Directive) : d.isLegal = d.ownTexts.all Text.isLegal := by
  cases d with
  | say text voice => cases voice <;> simp [isLegal, ownTexts]
  | gather prompt voice => cases voice <;> simp [isLegal, ownTexts]
  | dial numbers timeout callerId => cases callerId <;> simp [isLegal, ownTexts]
  | sms body recipient sender => cases recipient <;> cases sender <;> simp [isLegal, ownTexts, Bool.and_assoc]
  | _ => simp [isLegal, ownTexts]

namespace Value

@[simp] theorem isLegal_str (t : Text) : (str t).isLegal = t.isLegal := by
  simp [isLegal, asText?]

/-- A value that is no text is written out in legal characters. -/
theorem isLegal_of_written {v : Value} {t : Text} (h : v.isLegal = true) (ht : v.written = .ok t) : t.isLegal = true := by
  rw [written_eq_ok] at ht
  cases v with
  | str s =>
    obtain rfl := Option.some.inj ht
    rwa [isLegal_str] at h
  | _ =>
    simp only [text?, Option.map_eq_some_iff] at ht
    obtain ⟨s, hs, rfl⟩ := ht
    exact Text.isLegal_iff.mpr ⟨s, rfl, Markup.isLegalText_valueQuoted _ s hs⟩

theorem isLegal_orElse {v w : Value} (hv : v.isLegal = true) (hw : w.isLegal = true) :
    (v.orElse w).isLegal = true := by
  unfold orElse
  split
  · exact hv
  · exact hw

theorem isLegal_ofText? {s : Option Text} (h : s.all Text.isLegal = true) : (ofText? s).isLegal = true := by
  cases s with
  | none => rfl
  | some s => simpa [ofText?] using h

end Value

namespace Interpreter

variable {K : Type} {settings : Settings} {flow : CallFlow K} {event : CallEvent} {b : Block K} {hops : Int}
  {d : Directive} {ds : List Directive} {s : CallScript}

theorem isLegalThrough_get (hb : b.isLegal = true) (key : Text) : (b.config.get key).isLegalThrough = true := by
  unfold Entries.get Entries.get?
  cases h : b.config.lookup key with
  | none => rfl
  | some v =>
    obtain ⟨before, after, hconfig, -⟩ := List.lookup_eq_some_iff.mp h
    rw [Block.isLegal, hconfig, List.all_eq_true] at hb
    exact hb (key, v) (by simp)

theorem isLegal_get (hb : b.isLegal = true) (key : Text) : (b.config.get key).isLegal = true := by
  have h := isLegalThrough_get hb key
  rw [Value.isLegalThrough, Bool.and_eq_true] at h
  exact h.1

theorem isLegal_of_made (hb : b.isLegal = true) {key : Text} {v : Value}
    (hv : v ∈ (b.config.get key).truthy?.toList) : v.isLegal = true := by
  unfold Value.truthy? at hv
  split at hv
  · rw [List.mem_singleton.mp hv]
    exact isLegal_get hb key
  · cases hv

theorem legal_of_textPart? {name : Text} {v : Value} {text : Option Text} (hv : v.isLegal = true)
    (h : textPart? name v = .done text) : text.all Text.isLegal = true := by
  cases v with
  | null =>
    cases h
    rfl
  | str s =>
    cases h
    rwa [Value.isLegal_str] at hv
  | _ => cases h

section
variable (hs : settings.isLegal = true) (hb : b.isLegal = true)

include hs

theorem isLegal_defaultVoice : settings.defaultVoice.isLegal = true :=
  List.all_eq_true.mp hs _ (by simp)

include hb

theorem isLegal_voice : (voice settings b).isLegal = true :=
  Value.isLegal_orElse (isLegal_get hb "voice") (by simpa using isLegal_defaultVoice hs)

theorem speak_legal {text : Value} (ht : text.isLegal = true) (h : speak settings b text = .ok d) :
    d.isLegal = true := by
  obtain ⟨said, spoken, rfl, hspoken, rfl⟩ := speak_eq_ok.mp h
  rw [Directive.isLegal, ← Value.isLegal_str, ht, legal_of_textPart? (isLegal_voice hs hb) hspoken]
  rfl

theorem speakAndEnd_legal {message : Text} (hm : message.isLegal = true)
    (h : speakAndEnd settings b message = .ok ds) : ds.all Directive.isLegal = true := by
  obtain ⟨say, hsay, rfl⟩ := speakAndEnd_speaks h
  have hlegal := speak_legal hs hb (by simpa using hm) hsay
  simp [hlegal]

theorem offer_legal {attempt : Int} (h : offer settings flow b attempt hops = .ok d) : d.isLegal = true := by
  obtain ⟨options, timeout, prompt, spoken, -, -, hprompt, hspoken, rfl⟩ := offer_eq_ok.mp h
  have hdefault : defaultPrompt.isLegal = true := by decide
  have hlegal := Value.isLegal_orElse (isLegal_get hb "prompt") ((Value.isLegal_str _).trans hdefault)
  rw [hprompt, Value.isLegal_str] at hlegal
  rw [Directive.isLegal, hlegal, legal_of_textPart? (isLegal_voice hs hb) hspoken]
  rfl

omit hs in
theorem destinations_legal {numbers : List Value} (h : destinations b = .ok numbers) :
    ∀ v ∈ numbers, v.isLegal = true := by
  unfold destinations at h
  split at h
  · cases h
    exact fun v hv => isLegal_of_made hb hv
  · obtain ⟨items, hitems, h⟩ := Outcome.bind_eq_ok.mp h
    rw [← Outcome.pure_eq_ok.mp h]
    have hthrough : ((b.config.get "numbers").orElse (.arr [])).isLegalThrough = true := by
      unfold Value.orElse
      split
      · exact isLegalThrough_get hb "numbers"
      · rfl
    rw [Value.isLegalThrough, hitems, Bool.and_eq_true, List.all_eq_true] at hthrough
    exact fun v hv => hthrough.2 v (List.mem_of_mem_filter hv)

theorem connect_legal (h : connect settings flow b hops = .ok ds) : ds.all Directive.isLegal = true := by
  obtain ⟨numbers, hnumbers, h⟩ := Outcome.bind_eq_ok.mp h
  split at h
  · exact speakAndEnd_legal hs hb (by decide) h
  · obtain ⟨timeout, -, h⟩ := Outcome.bind_eq_ok.mp h
    obtain ⟨texts, htexts, h⟩ := Outcome.bind_eq_ok.mp h
    obtain ⟨dial, hdial, h⟩ := Outcome.bind_eq_ok.mp h
    simp only [Reading.outcome_eq_ok, Reading.seq_eq_done, Reading.map_eq_done] at hdial
    obtain ⟨f, c, ⟨g, r, ⟨caller, hcaller, rfl⟩, -, rfl⟩, -, rfl⟩ := hdial
    have hlegal : texts.all Text.isLegal = true := by
      refine List.all_eq_true.mpr fun t ht => ?_
      obtain ⟨v, hv, hwritten⟩ := Outcome.mem_of_mapM_eq_ok htexts ht
      exact Value.isLegal_of_written (destinations_legal hb hnumbers v hv) hwritten
    rw [← Outcome.pure_eq_ok.mp h, List.all_cons, Directive.isLegal, hlegal,
      legal_of_textPart? (isLegal_get hb "caller_id") hcaller]
    rfl

omit hs in
theorem closingText_legal {text : Option Text} (h : closingText b = .ok text) : text.all Text.isLegal = true := by
  unfold closingText at h
  split at h
  · next message hmessage =>
    obtain ⟨t, ht, rfl⟩ := Outcome.map_eq_ok.mp h
    exact Value.isLegal_of_written (isLegal_of_made hb (Option.mem_toList.mpr hmessage)) ht
  · obtain rfl := Except.ok.inj h
    split <;> decide

theorem close_legal (h : close settings flow b hops = .ok ds) : ds.all Directive.isLegal = true := by
  obtain ⟨text, htext, h⟩ := Outcome.bind_eq_ok.mp h
  obtain ⟨spoken, hspoken, h⟩ := Outcome.bind_eq_ok.mp h
  have hlegal : spoken.all Directive.isLegal = true := by
    refine List.all_eq_true.mpr fun d hd => ?_
    obtain ⟨said, hsaid, hd⟩ := Outcome.mem_of_mapM_eq_ok hspoken hd
    refine speak_legal hs hb ?_ hd
    rw [Value.isLegal_str]
    exact (Option.all_eq_true _ _).mp (closingText_legal hb htext) said (Option.mem_toList.mp hsaid)
  rw [← Outcome.pure_eq_ok.mp h]
  split <;> simp [hlegal, Directive.isLegal]

omit hs in
theorem whenMade_legal {key : Text} {f : Value → Outcome Directive}
    (hf : ∀ v d, v.isLegal = true → f v = .ok d → d.isLegal = true) (h : whenMade b.config key f = .ok ds) :
    ds.all Directive.isLegal = true := by
  exact List.all_eq_true.mpr fun d hd => hf _ d (isLegal_get hb key) (mem_whenMade h hd).2

omit hs hb in
theorem handOn_legal (h : ds.all Directive.isLegal = true) : (handOn b ds).directives.all Directive.isLegal = true := by
  unfold handOn
  split <;> simp [h]

theorem execute_legal {effect : Effect} (he : event.isLegal = true)
    (h : execute settings flow event b hops = .ok effect) : effect.directives.all Directive.isLegal = true := by
  unfold execute at h
  cases htype : b.type with
  | say =>
    simp only [htype] at h
    obtain ⟨ds, hds, rfl⟩ := Outcome.map_eq_ok.mp h
    refine handOn_legal (whenMade_legal hb (fun v d hv hd => ?_) hds)
    obtain ⟨text, htext, hd⟩ := Outcome.bind_eq_ok.mp hd
    exact speak_legal hs hb (by simpa using Value.isLegal_of_written hv htext) hd
  | play =>
    simp only [htype] at h
    obtain ⟨ds, hds, rfl⟩ := Outcome.map_eq_ok.mp h
    refine handOn_legal (whenMade_legal hb (fun v d hv hd => ?_) hds)
    obtain ⟨url, hurl, hd⟩ := Outcome.bind_eq_ok.mp hd
    obtain ⟨loop, -, hd⟩ := Outcome.bind_eq_ok.mp hd
    rw [← Outcome.pure_eq_ok.mp hd]
    exact Value.isLegal_of_written hv hurl
  | pause =>
    simp only [htype] at h
    obtain ⟨seconds, -, h⟩ := Outcome.bind_eq_ok.mp h
    rw [← Outcome.pure_eq_ok.mp h]
    exact handOn_legal rfl
  | sms =>
    simp only [htype] at h
    obtain ⟨ds, hds, rfl⟩ := Outcome.map_eq_ok.mp h
    refine handOn_legal (whenMade_legal hb (fun v d hv hd => ?_) hds)
    obtain ⟨body, hbody, hd⟩ := Outcome.bind_eq_ok.mp hd
    simp only [Reading.outcome_eq_ok, Reading.seq_eq_done, Reading.map_eq_done] at hd
    obtain ⟨f, sender, ⟨recipient, hrecipient, rfl⟩, hsender, rfl⟩ := hd
    cases hsender
    rw [CallEvent.isLegal, Bool.and_eq_true] at he
    have hto := legal_of_textPart? (Value.isLegal_orElse (isLegal_get hb "to") (Value.isLegal_ofText? he.2)) hrecipient
    rw [Directive.isLegal, Value.isLegal_of_written hv hbody, hto, he.1]
    rfl
  | menu =>
    simp only [htype] at h
    obtain ⟨gather, hgather, h⟩ := Outcome.bind_eq_ok.mp h
    rw [← Outcome.pure_eq_ok.mp h]
    simpa [stop] using offer_legal hs hb hgather
  | forward =>
    simp only [htype] at h
    obtain ⟨ds, hds, rfl⟩ := Outcome.map_eq_ok.mp h
    exact connect_legal hs hb hds
  | multiForward =>
    simp only [htype] at h
    obtain ⟨ds, hds, rfl⟩ := Outcome.map_eq_ok.mp h
    exact connect_legal hs hb hds
  | hangup =>
    simp only [htype] at h
    obtain ⟨ds, hds, rfl⟩ := Outcome.map_eq_ok.mp h
    exact close_legal hs hb hds

end

theorem complaint_legal (hb : b.isLegal = true) : (complaint b event).isLegal = true := by
  refine Value.isLegal_orElse (isLegal_get hb "invalid_message") ?_
  rw [Value.isLegal_str]
  split <;> decide

section
variable (hs : settings.isLegal = true) (hflow : flow.isLegal = true)

include hs

theorem farewell_legal {message : Text} (hm : message.isLegal = true) :
    (farewell settings message).all Directive.isLegal = true := by
  have hvoice := isLegal_defaultVoice hs
  simp [farewell, Directive.isLegal, hm, hvoice]

theorem errorApology_legal : (apology settings settings.errorMessage).directives.all Directive.isLegal = true :=
  farewell_legal hs (List.all_eq_true.mp hs _ (by simp))

include hflow

omit hs in
theorem isLegal_of_block? {id : Text} (h : Graph.block? flow.blocks id = some b) : b.isLegal = true := by
  rw [CallFlow.isLegal, Bool.and_eq_true, List.all_eq_true] at hflow
  exact hflow.2 b (Graph.mem_of_block? h)

theorem disclaimer_legal : (disclaimer settings flow).directives.all Directive.isLegal = true := by
  have hvoice := isLegal_defaultVoice hs
  have htext : ((flow.recordingDisclaimer.filter (· != ("" : Text))).getD settings.recordingDisclaimer).isLegal = true := by
    have hdefault : settings.recordingDisclaimer.isLegal = true := List.all_eq_true.mp hs _ (by simp)
    rw [CallFlow.isLegal, Bool.and_eq_true] at hflow
    cases h : flow.recordingDisclaimer with
    | none => exact hdefault
    | some text =>
      rw [h, Option.all_some] at hflow
      rw [Option.filter_some]
      split
      · exact hflow.1
      · exact hdefault
  unfold disclaimer
  split
  · simp [CallScript.ofDirectives, Directive.isLegal, htext, hvoice]
  · rfl

/-- Wherever it comes from, a directive is legal. -/
theorem origin_legal {counted : Int} (he : event.isLegal = true) (h : Origin settings flow event counted d) :
    d.isLegal = true := by
  cases h with
  | executed found executes mem =>
    exact List.all_eq_true.mp (execute_legal hs (isLegal_of_block? hflow found) he executes) d mem
  | complains found speaks =>
    have hb := isLegal_of_block? hflow found
    exact speak_legal hs hb (complaint_legal hb) speaks
  | reoffers found menu offers => exact offer_legal hs (isLegal_of_block? hflow found) offers
  | parts found said speaks =>
    refine speak_legal hs (isLegal_of_block? hflow found) ?_ speaks
    rw [Value.isLegal_str]
    rcases List.mem_pair.mp said with rfl | rfl <;> decide
  | discloses mem => exact List.all_eq_true.mp (disclaimer_legal hs hflow) d mem
  | fails => exact List.all_eq_true.mp (errorApology_legal hs) _ List.mem_cons_self
  | limited => exact List.all_eq_true.mp (farewell_legal hs (by decide)) _ List.mem_cons_self
  | hangsUp => rfl

end

theorem handle_legal {flow : Option (CallFlow K)} (hs : settings.isLegal = true)
    (hflow : flow.all CallFlow.isLegal = true) (he : event.isLegal = true) :
    (handle settings flow event).directives.all Directive.isLegal = true := by
  cases flow with
  | none => exact farewell_legal hs (List.all_eq_true.mp hs _ (by simp))
  | some flow =>
    refine List.all_eq_true.mpr fun d hd => ?_
    exact origin_legal hs (by simpa using hflow) he ((answered_handle settings flow event).origin hd)

theorem handle_plainIds {flow : Option (CallFlow K)} (h : flow.all CallFlow.hasPlainIds = true)
    (hd : d ∈ (handle settings flow event).directives) {c : Continuation} (hc : d.continuation? = some c) :
    ∀ t ∈ c.texts, t.isPlain = true := by
  have hmem : c ∈ (handle settings flow event).continuations := List.mem_filterMap.mpr ⟨d, hd, hc⟩
  obtain ⟨_, parked⟩ := (handle_concluded settings flow event).parked_of_mem hmem
  obtain ⟨f, b, rfl, hid, hb, -⟩ := parked.placed
  rw [Option.all_some, CallFlow.hasPlainIds, Bool.and_eq_true, List.all_eq_true] at h
  have hblock := h.2 b (Graph.mem_of_block? hb)
  rw [Graph.id_of_block?_eq_some hb] at hblock
  rw [Continuation.texts, hid, List.forall_mem_append, List.forall_mem_singleton]
  exact ⟨fun t ht => (Option.all_eq_true _ _).mp h.1 t (Option.mem_toList.mp ht), hblock⟩

end Interpreter

end Switchboard
