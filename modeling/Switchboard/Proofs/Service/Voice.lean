import Switchboard.Proofs.Call.Legal
import Switchboard.Proofs.Markup.Writable
import Switchboard.Service.Routing

/-! # The answer to a call

A callback about a call that comes in, once it is signed as it has to be, is answered with a script and nothing else,
whatever fails on the way. The script is one element with all its tags closed and all marks in its texts replaced, but
its characters are not looked at: the answer is a well-formed document as long as the texts that come into it are
legal, and a control character in one of them makes it ill-formed.
-/
namespace Switchboard.Service

open Http (Request Response)
open Store (Database FlowRow)
open Interpreter (apology)

def IsSigned (settings : Settings) (request : Request) : Prop :=
  ∃ form, formToVerify settings request = .ok form ∧ isAuthentic settings request form = .ok true

def voiceScript (settings : Settings) (db : Database) (request : Request) : CallScript :=
  match eventOf settings request with
  | .error _ => apology settings settings.errorMessage
  | .ok event =>
    match governingFlow db event with
    | .error _ => apology settings settings.errorMessage
    | .ok flow => Interpreter.handle settings flow event

/-- Whether all texts are legal that can come into the answer to a callback: those of the settings, of the event, and
of the flow that governs the call, whose ids can be any strings. -/
def hasLegalTexts (settings : Settings) (db : Database) (request : Request) : Bool :=
  settings.isLegal && (eventOf settings request).toOption.all fun event =>
    event.isLegal && (governingFlow db event).toOption.all fun flow =>
      flow.all fun flow => flow.isLegal && flow.hasPlainIds

variable {settings : Settings} {db : Database} {now : String} {request : Request}

theorem respond_voice (hpath : request.path = Markup.voicePath)
    (hmethod : request.method = .get ∨ request.method = .post) (hsigned : IsSigned settings request) :
    respond settings db now request = answerCall settings db now request := by
  obtain ⟨form, hform, hauthentic⟩ := hsigned
  have hnamed : Resource.ofPath Markup.voicePath = [.voice] := by decide +kernel
  have hknown : (Resource.methods .voice).contains request.method = true := by
    rcases hmethod with h | h <;> rw [h] <;> rfl
  simp only [respond, hpath, hnamed, List.find?_cons, hknown, answerAt, authenticated, hform, hauthentic]

section
variable {script : CallScript}

theorem scriptResponse_of_render {body : String}
    (h : Markup.render settings.publicBaseUrl Markup.voicePath script.directives = .ok body) :
    scriptResponse settings script = { status := 200, content := .markup body } := by
  rw [scriptResponse, h]
  rfl

theorem scriptResponse_of_not_render
    (h : ¬ ∃ body, Markup.render settings.publicBaseUrl Markup.voicePath script.directives = .ok body) :
    scriptResponse settings script = failure := by
  unfold scriptResponse
  cases hrender : Markup.render settings.publicBaseUrl Markup.voicePath script.directives with
  | ok body => exact absurd ⟨body, hrender⟩ h
  | error fault => rfl

end

theorem answerCall_response : (answerCall settings db now request).1 =
    scriptResponse settings (voiceScript settings db request) := by
  unfold answerCall voiceScript
  cases eventOf settings request with
  | error fault => rfl
  | ok event =>
    simp only [answerEvent]
    cases governingFlow db event <;> rfl

/-- A legal directive that tells a place by strings only. -/
structure IsPresentable (d : Directive) : Prop where
  legal : d.isLegal = true
  ids : ∀ c ∈ d.continuation?, ∀ t ∈ c.texts, t.isPlain = true

theorem isPresentable_errorApology (hs : settings.isLegal = true) :
    ∀ d ∈ (apology settings settings.errorMessage).directives, IsPresentable d := by
  intro d hd
  refine ⟨List.all_eq_true.mp (Interpreter.errorApology_legal hs) d hd, ?_⟩
  rcases List.mem_pair.mp hd with rfl | rfl <;> nofun

theorem voiceScript_presentable (h : hasLegalTexts settings db request = true) :
    ∀ d ∈ (voiceScript settings db request).directives, IsPresentable d := by
  rw [hasLegalTexts, Bool.and_eq_true] at h
  obtain ⟨hs, h⟩ := h
  unfold voiceScript
  cases hevent : eventOf settings request with
  | error fault => exact isPresentable_errorApology hs
  | ok event =>
    simp only [hevent, Except.toOption, Option.all_some, Bool.and_eq_true] at h
    dsimp only
    cases hflow : governingFlow db event with
    | error fault => exact isPresentable_errorApology hs
    | ok flow =>
      simp only [hflow, Option.all_some] at h
      have hflow : flow.all CallFlow.isLegal = true ∧ flow.all CallFlow.hasPlainIds = true := by
        cases flow with
        | none => exact ⟨rfl, rfl⟩
        | some flow => simpa using h.2
      intro d hd
      exact ⟨List.all_eq_true.mp (Interpreter.handle_legal hs hflow.1 h.1) d hd,
        fun c hc => Interpreter.handle_plainIds hflow.2 hd hc⟩

theorem IsPresentable.isWritable {d : Directive} (h : IsPresentable d) (hbase : settings.publicBaseUrl.isLegal = true)
    (hintegers : ∀ n ∈ d.integers, n.natAbs < Numeral.leastOversized) : d.IsWritable settings.publicBaseUrl where
  texts := by
    have hlegal := h.legal
    rw [Directive.isLegal_eq_all, List.all_eq_true] at hlegal
    refine List.forall_mem_append.mpr ⟨fun t ht => Text.isPlain_of_isLegal (hlegal t ht), ?_⟩
    intro t ht
    obtain ⟨c, hc, ht⟩ := List.mem_flatMap.mp ht
    exact h.ids c (Option.mem_toList.mp hc) t ht
  integers := hintegers
  base _ := Text.isPlain_of_isLegal hbase

/-- A signed callback about a call that comes in is answered with a script, unless there is something in the script that
cannot be written. The answer is a well-formed document exactly when the texts in it are legal, which they are if those
that it is made of are. -/
theorem voice_answered (settings : Settings) (db : Database) (now : String) (request : Request)
    (hpath : request.path = Markup.voicePath) (hmethod : request.method = .get ∨ request.method = .post)
    (hsigned : IsSigned settings request) :
    let directives := (voiceScript settings db request).directives
    let response := (respond settings db now request).1
    ((∀ d ∈ directives, d.IsWritable settings.publicBaseUrl) →
      ∃ body, response = { status := 200, content := .markup body } ∧
        (Markup.IsDocument body ↔ ∀ d ∈ directives,
          ∀ text ∈ Markup.writtenTexts settings.publicBaseUrl Markup.voicePath d, Markup.isLegalText text = true)) ∧
    ((¬ ∀ d ∈ directives, d.IsWritable settings.publicBaseUrl) → response = failure) ∧
    (hasLegalTexts settings db request = true →
      (∀ d ∈ directives, ∀ n ∈ d.integers, n.natAbs < Numeral.leastOversized) →
      ∃ body, response = { status := 200, content := .markup body } ∧ Markup.IsDocument body) := by
  intro directives response
  have hresponse : response = scriptResponse settings (voiceScript settings db request) := by
    change (respond settings db now request).1 = _
    rw [respond_voice hpath hmethod hsigned, answerCall_response]
  have hwritten (h : ∀ d ∈ directives, d.IsWritable settings.publicBaseUrl) :
      ∃ body, response = { status := 200, content := .markup body } ∧
        (Markup.IsDocument body ↔ ∀ d ∈ directives,
          ∀ text ∈ Markup.writtenTexts settings.publicBaseUrl Markup.voicePath d, Markup.isLegalText text = true) := by
    obtain ⟨body, hbody⟩ := Markup.render_succeeds_iff.mpr h
    exact ⟨body, hresponse.trans (scriptResponse_of_render hbody), Markup.isDocument_render_iff hbody⟩
  refine ⟨hwritten, ?_, ?_⟩
  · intro h
    exact hresponse.trans (scriptResponse_of_not_render fun hrender => h (Markup.render_succeeds_iff.mp hrender))
  · intro h hintegers
    have hscript := voiceScript_presentable h
    have hbase : settings.publicBaseUrl.isLegal = true := by
      rw [hasLegalTexts, Bool.and_eq_true] at h
      exact List.all_eq_true.mp h.1 _ (by simp)
    obtain ⟨body, hbody, hdocument⟩ := hwritten fun d hd => (hscript d hd).isWritable hbase (hintegers d hd)
    exact ⟨body, hbody, hdocument.mpr fun d hd => Markup.legal_writtenTexts hbase (by decide) (hscript d hd).legal⟩

def greetingRow (text : Text) : FlowRow where
  id := "shop"
  owner := "ann"
  phoneNumber := "+15550001111"
  name := "Shop"
  status := some "active"
  document := some (.arr [.obj [("id", .str "hello"), ("type", .str "say"), ("config", .obj [("text", .str text)])]])
  recordingEnabled := false

theorem voice_answered_shop :
    let db : Database := { flows := [greetingRow "Fish & chips < 5 pounds"] }
    let request : Request := { method := .get, path := "/webhook/voice", query := "flow=shop" }
    let body := "<?xml version=\"1.0\" encoding=\"UTF-8\"?><Response>" ++
      "<Say voice=\"alice\">Fish &amp; chips &lt; 5 pounds</Say><Hangup /></Response>"
    (respond {} db "" request).1 = { status := 200, content := .markup body } ∧ Markup.IsDocument body := by
  intro db request body
  have hlegal : hasLegalTexts {} db request = true := by decide +kernel
  have hintegers : ∀ d ∈ (voiceScript {} db request).directives, ∀ n ∈ d.integers,
      n.natAbs < Numeral.leastOversized := by decide +kernel
  have htext : (respond {} db "" request).1.content.text = body := by decide +kernel
  obtain ⟨-, -, hanswer⟩ := voice_answered {} db "" request rfl (.inl rfl) ⟨[], rfl, rfl⟩
  obtain ⟨answered, hresponse, hdocument⟩ := hanswer hlegal hintegers
  have hanswered : answered = body := by rwa [hresponse] at htext
  exact hanswered ▸ ⟨hresponse, hdocument⟩

/-- A control character of a text stands in the answer as it is, and the answer is no well-formed document. -/
theorem controlCharacter_written :
    let db : Database := { flows := [greetingRow "Fish\x01chips"] }
    let request : Request := { method := .get, path := "/webhook/voice", query := "flow=shop" }
    IsSigned {} request ∧ ∃ body, (respond {} db "" request).1 = { status := 200, content := .markup body } ∧
      '\x01' ∈ body.toList ∧ ¬ Markup.IsDocument body := by
  intro db request
  have hsigned : IsSigned {} request := ⟨[], rfl, rfl⟩
  have hrender : (Markup.render "http://localhost:8000" Markup.voicePath
      (voiceScript {} db request).directives).toOption.any (fun body => '\x01' ∈ body.toList) = true := by decide +kernel
  obtain ⟨body, hbody, hwritten⟩ := (Option.any_eq_true _ _).mp hrender
  refine ⟨hsigned, body, ?_, of_decide_eq_true hwritten, ?_⟩
  · rw [respond_voice rfl (.inl rfl) hsigned, answerCall_response]
    exact scriptResponse_of_render (Outcome.eq_ok_of_toOption hbody)
  · intro h
    have hlegal := List.all_eq_true.mp h.legal _ (of_decide_eq_true hwritten)
    exact absurd hlegal (by decide)

end Switchboard.Service
