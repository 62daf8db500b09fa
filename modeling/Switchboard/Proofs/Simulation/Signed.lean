import Switchboard.Proofs.Http.Form
import Switchboard.Proofs.Service.Voice
import Switchboard.Proofs.Signature
import Switchboard.Proofs.Simulation.Steps
import Switchboard.Simulation.Host

/-! # Simulated calls that are signed

The caller of a simulated call signs what it sends, and the service verifies what arrives. Both put the signed text
together from parts of their own: the caller from the path of the script before, the service from the path, the query and
the form of the request. They agree on every callback of a call, so none is refused.
-/
namespace Switchboard

open Http (Origin Parameters Request Response Url)
open Text (dropTrailing dropTrailingString encodePairs bytesOf)

namespace Service

variable {settings : Settings} {request : Request} {form others : Parameters} {short : String}

/-- The address of a request is its path and its query behind the address of the service. -/
theorem publicUrl_of_isPlain (h : Url.IsPlain { path := request.path, query := request.query }) :
    publicUrl settings request = dropTrailing '/' settings.publicBaseUrl ++
      Url.target { path := request.path, query := request.query } := by
  rw [publicUrl, Url.withoutLineEnds_eq_self h.isShown_target, h.splitPath_target]

def formType : String := "application/x-www-form-urlencoded"

theorem formParameters_of_type (hmethod : request.method = .post) (htype : request.contentType = formType) :
    formParameters request = Parameters.ofForm request.body := by
  have hholds : Text.holds "form" formType = true := by decide +kernel
  have hvalue : ((Http.HeaderValue.parse formType).value == formType) = true := by decide +kernel
  have hsends : sendsForm request = true := by
    rw [sendsForm, htype, hholds, hmethod]
    rfl
  rw [formParameters, if_pos hsends, Request.form, htype]
  exact if_pos hvalue

theorem isSigned_of_sign {token url : String} (hfilled : token ≠ "") (hexpected : settings.authToken = some (token : Text))
    (hform : formParameters request = .ok form) (hurl : publicUrl settings request = url)
    (hsignature : request.header? "x-twilio-signature" = some (Signature.sign token url form)) :
    IsSigned settings request := by
  have htoken : Store.filled settings.authToken = some (.plain token) := by
    rw [hexpected, Store.filled, Option.filter_some, if_pos]
    simpa using hfilled
  refine ⟨form, ?_, ?_⟩
  · rw [formToVerify, htoken]
    exact hform
  · rw [isAuthentic, htoken, hurl, hsignature]
    exact Signature.verify_sign token url form

theorem isAuthentic_perm (h : form.Perm others) (hnodup : (form.map Prod.fst).Nodup) :
    isAuthentic settings request form = isAuthentic settings request others := by
  rw [isAuthentic, isAuthentic]
  split
  · rfl
  · exact Signature.verify_perm h hnodup _ _ _

end Service

namespace Simulation

structure Callback.IsVoice (callback : Callback) : Prop where
  target : ∃ url : Url, url.IsPlain ∧ url.path = Markup.voicePath ∧ callback.path = url.target
  filled : callback.parameters ≠ []
  names : (callback.parameters.map Prod.fst).Nodup
  few : callback.parameters.length ≤ Http.mostFields

/-- Whether a callback arrives as a request: one for a script, with the form and the signature of the callback. -/
structure Callback.ArrivesAs (callback : Callback) (request : Request) (settings : Settings) (token : String) : Prop where
  path : request.path = Markup.voicePath
  method : request.method = .post
  type : request.contentType = Service.formType
  body : request.body = bytesOf (encodePairs callback.parameters).toList
  signature : ∃ url : String, Service.publicUrl settings request = url ∧
    request.header? "x-twilio-signature" = some (Signature.sign token url callback.parameters)

namespace Caller

structure SignsFor (caller : Caller) (settings : Settings) (token : String) : Prop where
  filled : token ≠ ""
  secret : caller.secret = some token
  expected : settings.authToken = some (token : Text)
  address : dropTrailing '/' settings.publicBaseUrl = dropTrailingString '/' caller.publicBase

variable {caller : Caller} {callback next : Callback} {settings : Settings} {token : String} {request : Request}
  {origin : Origin} {digits rest : List String} {directives : List Directive}

theorem isVoice_firstCallback (caller : Caller) : caller.firstCallback.IsVoice where
  target := ⟨{ path := Markup.voicePath, query := "" },
    { begins := (rfl : Markup.voicePath.toList.head? = some '/')
      path := Continuation.voicePath_plain
      query := by simp }, rfl, rfl⟩
  filled := List.cons_ne_nil _ _
  names := (by decide : ["CallSid", "From", "To", "Direction"].Nodup)
  few := (by decide : 4 ≤ Http.mostFields)

/-- After a script that is read the call is over, or its next callback goes where the script tells it to go on. -/
theorem next?_cases (hbase : dropTrailing '/' settings.publicBaseUrl = origin.text) (digits : List String)
    {directives : List Directive} {document : String}
    (hdocument : Markup.render settings.publicBaseUrl Markup.voicePath directives = .ok document) :
    (Markup.readDocument? document = none ∧ caller.next? digits document = .error .malformedDocument) ∨
      caller.next? digits document = .ok none ∨
      ∃ (place told : Parameters) (rest : List String), (told.map Prod.fst).Sublist ["Digits"] ∧
        caller.next? digits document = .ok (some
          ({ path := (Continuation.address place).target, parameters := caller.parameters ++ told }, rest)) := by
  cases hread : Markup.readDocument? document with
  | none =>
    refine .inl ⟨rfl, ?_⟩
    rw [next?, nextStep, hread]
    rfl
  | some root =>
    obtain ⟨⟨action, redirect⟩, hstep⟩ : ∃ step, nextStep document = .ok step := ⟨_, by rw [nextStep, hread]⟩
    have hpath {url : String} (hurl : url ∈ action ∨ url ∈ redirect) := pathOf_nextStep hbase hdocument hstep hurl
    right
    rw [next?, hstep]
    dsimp only [bind, Except.bind]
    split
    · rename_i url digit left
      obtain ⟨place, hplace⟩ := hpath (.inl rfl)
      exact .inr ⟨place, [("Digits", digit)], left, List.Sublist.refl _, by rw [hplace]; rfl⟩
    · rename_i url hredirect
      obtain ⟨place, hplace⟩ := hpath (.inr (Option.filter_eq_some_iff.mp hredirect).1)
      exact .inr ⟨place, [], [], List.nil_sublist _, by rw [hplace, List.append_nil]; rfl⟩
    · exact .inl rfl

theorem isVoice_continuation (caller : Caller) (place : Parameters) {told : Parameters}
    (htold : (told.map Prod.fst).Sublist ["Digits"]) :
    Callback.IsVoice { path := (Continuation.address place).target, parameters := caller.parameters ++ told } := by
  have hnames : ((caller.parameters ++ told).map Prod.fst).Sublist ["CallSid", "From", "To", "Digits"] := by
    rw [List.map_append]
    exact (List.Sublist.refl ["CallSid", "From", "To"]).append htold
  constructor
  · exact ⟨Continuation.address place, Continuation.isPlain_address place, rfl, rfl⟩
  · exact List.cons_ne_nil _ _
  · exact List.Nodup.sublist hnames (by decide)
  · have hlength := hnames.length_le
    rw [List.length_map] at hlength
    exact hlength.trans (by decide)

theorem signatureHeader_eq (hsigns : caller.SignsFor settings token) (callback : Callback) :
    caller.signatureHeader callback = [("X-Twilio-Signature", Signature.sign token
      (dropTrailingString '/' caller.publicBase ++ callback.path) callback.parameters)] := by
  have hfilled : (some token).filter (· != "") = some token := by
    rw [Option.filter_some, if_pos (bne_iff_ne.mpr hsigns.filled)]
  rw [signatureHeader, hsigns.secret, hfilled]
  rfl

theorem exists_request (hsigns : caller.SignsFor settings token) (hkeeps : Url.KeepsTargets caller.base)
    (hcallback : callback.IsVoice) : ∃ request, caller.request callback = .ok request ∧
      callback.ArrivesAs request settings token := by
  obtain ⟨url, hurl, hvoice, hpath⟩ := hcallback.target
  have hdecoded : Text.decodePath url.path = url.path := by
    rw [hvoice]
    decide +kernel
  have hrequest : caller.request callback = .ok (.deliveredTo url .post
      (("Content-Type", Service.formType) :: caller.signatureHeader callback)
      (bytesOf (encodePairs callback.parameters).toList)) := by
    rw [request, hpath, hkeeps url hurl]
    rfl
  refine ⟨_, hrequest, ?_⟩
  rw [Request.deliveredTo, hdecoded, signatureHeader_eq hsigns]
  have hnames : Http.headerName "Content-Type" = "content-type" ∧
      Http.headerName "X-Twilio-Signature" = "x-twilio-signature" := by decide
  constructor
  · exact hvoice
  · rfl
  · simp [Request.contentType, Request.header?, hnames]
  · rfl
  · refine ⟨dropTrailingString '/' caller.publicBase ++ callback.path, ?_, ?_⟩
    · rw [Service.publicUrl_of_isPlain hurl, hsigns.address, hpath]
      rfl
    · simp [Request.header?, hnames]

theorem isSigned_of_arrivesAs (h : callback.ArrivesAs request settings token) (hsigns : caller.SignsFor settings token)
    (hcallback : callback.IsVoice) {form : Parameters} (hform : form.Perm callback.parameters) :
    Service.IsSigned settings { request with body := bytesOf (encodePairs form).toList } := by
  have hread : Parameters.ofForm (bytesOf (encodePairs form).toList) = .ok form :=
    Parameters.ofForm_encodePairs (fun hnil => hcallback.filled (List.Perm.nil_eq (hnil ▸ hform)).symm)
      ((hform.map Prod.fst).nodup_iff.mpr hcallback.names) (hform.length_eq ▸ hcallback.few)
  obtain ⟨sent, hsent⟩ : ∃ sent : Request, sent = { request with body := bytesOf (encodePairs form).toList } := ⟨_, rfl⟩
  have hparameters : Service.formParameters sent = .ok form := by
    rw [Service.formParameters_of_type (hsent ▸ h.method) (hsent ▸ h.type), hsent, hread]
  obtain ⟨url, hurl, hsignature⟩ := h.signature
  have hsigned : sent.header? "x-twilio-signature" = some (Signature.sign token url form) := by
    rw [Signature.sign_perm hform ((hform.map Prod.fst).nodup_iff.mpr hcallback.names), hsent]
    exact hsignature
  rw [← hsent]
  exact Service.isSigned_of_sign hsigns.filled hsigns.expected hparameters (hsent ▸ hurl) hsigned

end Caller

structure Exchange.IsAccepted (settings : Settings) (exchange : Exchange) : Prop where
  signed : Service.IsSigned settings exchange.request
  reordered : ∀ form : Parameters, form.Perm exchange.callback.parameters →
    Service.IsSigned settings { exchange.request with body := bytesOf (encodePairs form).toList }
  answered : exchange.response.status = 200 ∨ exchange.response = Service.failure ∧
    ∃ db, ¬ ∀ d ∈ (Service.voiceScript settings db exchange.request).directives, d.IsWritable settings.publicBaseUrl

variable {settings : Settings} {clock : Nat → String} {host : Host} {request : Request}

theorem scriptResponse_cases (db : Store.Database) (request : Request) :
    (Service.scriptResponse settings (Service.voiceScript settings db request)).status = 200 ∨
      Service.scriptResponse settings (Service.voiceScript settings db request) = Service.failure ∧
        ∃ db, ¬ ∀ d ∈ (Service.voiceScript settings db request).directives, d.IsWritable settings.publicBaseUrl := by
  by_cases h : ∃ body, Markup.render settings.publicBaseUrl Markup.voicePath
      (Service.voiceScript settings db request).directives = .ok body
  · obtain ⟨body, hbody⟩ := h
    rw [Service.scriptResponse_of_render hbody]
    exact .inl rfl
  · exact .inr ⟨Service.scriptResponse_of_not_render h, db, fun hall => h (Markup.render_succeeds_iff.mpr hall)⟩

theorem serve_voice (hpath : request.path = Markup.voicePath) (hmethod : request.method = .post)
    (hsigned : Service.IsSigned settings request) : (Host.serve settings clock host request).1 =
      Service.scriptResponse settings (Service.voiceScript settings host.database request) := by
  rw [Host.serve, Service.respond_voice hpath (.inr hmethod) hsigned]
  exact Service.answerCall_response

/-- Whether the answer of an exchange breaks a call off with a fault: it is a script that cannot be read, or a failure of
the service. -/
def Exchange.BreaksOff (exchange : Exchange) (fault : Fault) : Prop :=
  (fault = .malformedDocument ∧ Markup.readDocument? exchange.document = none) ∨
    (fault = .requestFailed ∧ exchange.response = Service.failure)

structure Run.IsAccepted {σ : Type} (settings : Settings) (run : Run σ) : Prop where
  exchanges : ∀ exchange ∈ run.exchanges, exchange.IsAccepted settings
  failure : ∀ fault ∈ run.failure, ∃ exchange ∈ run.exchanges.getLast?, exchange.BreaksOff fault

theorem Run.IsAccepted.cons {σ : Type} {run : Run σ} (h : run.IsAccepted settings) {exchange : Exchange}
    (hexchange : exchange.IsAccepted settings) :
    Run.IsAccepted settings { run with exchanges := [exchange] ++ run.exchanges } where
  exchanges := List.forall_mem_cons.mpr ⟨hexchange, h.exchanges⟩
  failure fault hfault := by
    obtain ⟨last, hlast, hbreaks⟩ := h.failure fault hfault
    refine ⟨last, ?_, hbreaks⟩
    rw [List.getLast?_append, Option.mem_def.mp hlast]
    rfl

namespace Caller

variable {caller : Caller} {callback : Callback} {token : String} {origin : Origin}

theorem exists_exchange (hsigns : caller.SignsFor settings token) (hkeeps : Url.KeepsTargets caller.base)
    (hcallback : callback.IsVoice) (clock : Nat → String) (host : Host) :
    ∃ request script after, caller.request callback = .ok request ∧
      Host.serve settings clock host request = (Service.scriptResponse settings script, after) ∧
      Exchange.IsAccepted settings { callback, request, response := Service.scriptResponse settings script } := by
  obtain ⟨request, hrequest, harrives⟩ := exists_request hsigns hkeeps hcallback
  have hreordered (form : Parameters) (hform : form.Perm callback.parameters) :=
    isSigned_of_arrivesAs harrives hsigns hcallback hform
  have hsigned : Service.IsSigned settings request := by
    have hsame := hreordered callback.parameters (List.Perm.refl _)
    rwa [← harrives.body] at hsame
  exact ⟨request, _, _, hrequest, Prod.ext (serve_voice harrives.path harrives.method hsigned) rfl, hsigned, hreordered,
    scriptResponse_cases host.database request⟩

/-- After a callback that is answered the call goes on as its script tells. -/
theorem walk_answered {σ : Type} {deliver : σ → Request → Response × σ} {state after : σ} {response : Response}
    (hrequest : caller.request callback = .ok request) (hdeliver : deliver state request = (response, after))
    (hanswered : response.failed = false) (budget : Nat) (digits : List String) :
    caller.walk deliver (budget + 1) callback digits state =
      match caller.next? digits response.content.text with
      | .error fault => { exchanges := [{ callback, request, response }], failure := some fault, state := after }
      | .ok none => { exchanges := [{ callback, request, response }], failure := none, state := after }
      | .ok (some (next, rest)) =>
        let run := caller.walk deliver budget next rest after
        { run with exchanges := [{ callback, request, response }] ++ run.exchanges } := by
  rw [walk, hrequest]
  dsimp only
  rw [hdeliver]
  exact if_neg (Bool.eq_false_iff.mp hanswered)

theorem walk_failed {σ : Type} {deliver : σ → Request → Response × σ} {state after : σ} {response : Response}
    (hrequest : caller.request callback = .ok request) (hdeliver : deliver state request = (response, after))
    (hfailed : response.failed = true) (budget : Nat) (digits : List String) :
    caller.walk deliver (budget + 1) callback digits state =
      { exchanges := [{ callback, request, response }], failure := some .requestFailed, state := after } := by
  rw [walk, hrequest]
  dsimp only
  rw [hdeliver]
  exact if_pos hfailed

theorem walk_accepted (hbase : dropTrailing '/' settings.publicBaseUrl = origin.text)
    (hsigns : caller.SignsFor settings token) (hkeeps : Url.KeepsTargets caller.base) (budget : Nat)
    (hcallback : callback.IsVoice) (digits : List String) (host : Host) :
    (caller.walk (Host.serve settings clock) budget callback digits host).IsAccepted settings := by
  -- whatever follows a callback to the scripts is one as well, and this carries the induction
  induction budget generalizing callback digits host with
  | zero => exact ⟨List.forall_mem_nil _, fun fault hfault => by cases hfault⟩
  | succ budget ih =>
    obtain ⟨request, script, after, hrequest, hserve, haccepted⟩ := exists_exchange hsigns hkeeps hcallback clock host
    cases hrender : Markup.render settings.publicBaseUrl Markup.voicePath script.directives with
    | error fault =>
      have hfailure : Service.scriptResponse settings script = Service.failure := by
        rw [Service.scriptResponse, hrender]
        rfl
      rw [hfailure] at hserve haccepted
      rw [walk_failed hrequest hserve rfl]
      refine ⟨List.forall_mem_singleton.mpr haccepted, ?_⟩
      rintro fault ⟨⟩
      exact ⟨_, rfl, .inr ⟨rfl, rfl⟩⟩
    | ok document =>
      rw [Service.scriptResponse_of_render hrender] at hserve haccepted
      rw [walk_answered hrequest hserve rfl]
      rcases next?_cases hbase digits hrender with ⟨hunread, hnext⟩ | hnext | ⟨place, told, rest, htold, hnext⟩
      · rw [show (Http.Content.markup document).text = document from rfl, hnext]
        refine ⟨List.forall_mem_singleton.mpr haccepted, ?_⟩
        rintro fault ⟨⟩
        exact ⟨_, rfl, .inl ⟨rfl, hunread⟩⟩
      · rw [show (Http.Content.markup document).text = document from rfl, hnext]
        exact ⟨List.forall_mem_singleton.mpr haccepted, fun fault hfault => by cases hfault⟩
      · rw [show (Http.Content.markup document).text = document from rfl, hnext]
        exact (ih (isVoice_continuation caller place htold) rest after).cons haccepted

theorem head?_walk {σ : Type} (deliver : σ → Request → Response × σ)
    (hrequest : caller.request callback = .ok request) (budget : Nat) (digits : List String) (state : σ) :
    ∃ response, (caller.walk deliver (budget + 1) callback digits state).exchanges.head? =
      some { callback, request, response } := by
  refine ⟨(deliver state request).1, ?_⟩
  rw [walk, hrequest]
  dsimp only
  split
  · rfl
  · split <;> rfl

theorem head?_call {σ : Type} (deliver : σ → Request → Response × σ)
    (hrequest : caller.request caller.firstCallback = .ok request) (digits : List String) (state : σ) :
    ∃ exchange ∈ (caller.call deliver digits state).exchanges.head?, exchange.callback = caller.firstCallback := by
  obtain ⟨response, hfirst⟩ := head?_walk deliver hrequest 19 digits state
  exact ⟨_, hfirst, rfl⟩

end Caller

/-- Callbacks are signed as the service expects it. Whatever is stored, whatever numbers call each other and whatever
digits are pressed, every request of a simulated call is signed as it has to be and answered, if the caller has the
secret of the service and signs for its address; and whether a request is signed does not depend on the order of its
parameters. Only a script that cannot be written or read breaks the call off. -/
theorem Plan.run_signed (plan : Plan) (settings : Settings) (clock : Nat → String) (host : Host) (token : String)
    (origin : Origin) (hfilled : token ≠ "") (hsecret : plan.secret = some token)
    (hexpected : settings.authToken = some (token : Text))
    (hpublic : dropTrailingString '/' ((plan.publicBase.filter (· != "")).getD plan.base) = origin.text)
    (hservice : dropTrailing '/' settings.publicBaseUrl = origin.text) (hkeeps : Url.KeepsTargets plan.base) :
    let run := plan.run settings clock host
    (∃ exchange ∈ run.exchanges.head?, exchange.callback.path = Markup.voicePath) ∧
      (∀ exchange ∈ run.exchanges, Service.IsSigned settings exchange.request ∧
        (exchange.response.status = 200 ∨ exchange.response = Service.failure ∧ ∃ db,
          ¬ ∀ d ∈ (Service.voiceScript settings db exchange.request).directives, d.IsWritable settings.publicBaseUrl) ∧
        ∀ form : Parameters, form.Perm exchange.callback.parameters →
          Service.IsSigned settings { exchange.request with body := bytesOf (encodePairs form).toList }) ∧
      (∀ fault ∈ run.failure, ∃ exchange ∈ run.exchanges.getLast?, exchange.BreaksOff fault) ∧
      ∀ (request : Request) (form others : Parameters), form.Perm others → (form.map Prod.fst).Nodup →
        Service.isAuthentic settings request form = Service.isAuthentic settings request others := by
  obtain ⟨caller, start, hcaller, hrun⟩ : ∃ caller start, caller = plan.toCaller (plan.nameCall host.database.supply).1 ∧
      plan.run settings clock host = caller.call (Host.serve settings clock) plan.digits start := ⟨_, _, rfl, rfl⟩
  have hsigns : caller.SignsFor settings token := by
    rw [hcaller]
    exact ⟨hfilled, hsecret, hexpected, hservice.trans (congrArg Text.plain hpublic.symm)⟩
  have hkeeps : Url.KeepsTargets caller.base := by
    rw [hcaller]
    exact hkeeps
  have haccepted : (caller.call (Host.serve settings clock) plan.digits start).IsAccepted settings :=
    Caller.walk_accepted hservice hsigns hkeeps Caller.maxCallbacks caller.isVoice_firstCallback plan.digits start
  obtain ⟨request, hrequest, -⟩ := Caller.exists_request hsigns hkeeps caller.isVoice_firstCallback
  obtain ⟨first, hfirst, hcallback⟩ := Caller.head?_call (Host.serve settings clock) hrequest plan.digits start
  rw [hrun]
  generalize caller.call (Host.serve settings clock) plan.digits start = run at haccepted hfirst
  refine ⟨⟨first, hfirst, congrArg Callback.path hcallback⟩, ?_, haccepted.failure, ?_⟩
  · intro exchange hexchange
    have h := haccepted.exchanges exchange hexchange
    exact ⟨h.signed, h.answered, h.reordered⟩
  · exact fun _ _ _ => Service.isAuthentic_perm

def menuRow : Store.FlowRow :=
  { Service.greetingRow "" with document := some (.arr [.obj [("id", .str "main menu"), ("type", .str "menu"),
      ("config", .obj [("prompt", .str "Sales & service?"), ("options", .arr [.obj [("digit", .str "1")]])])]]) }

theorem run_signed_menu :
    let settings : Settings := { authToken := some "secret", publicBaseUrl := "http://localhost:8000//" }
    let plan : Plan := { secret := some "secret", called := "+15550001111", digits := ["2", "1"] }
    let run := plan.run settings (fun _ => "") { database := { flows := [menuRow] } }
    (∃ exchange ∈ run.exchanges.head?, exchange.callback.path = Markup.voicePath) ∧
      ∀ exchange ∈ run.exchanges, Service.IsSigned settings exchange.request ∧ exchange.response.status ≠ 403 := by
  intro settings plan
  have hpublic : dropTrailingString '/' ((plan.publicBase.filter (· != "")).getD plan.base) =
      Continuation.localhost.text := by decide +kernel
  have hservice : dropTrailing '/' settings.publicBaseUrl = Continuation.localhost.text := by decide +kernel
  have hkeeps : Url.KeepsTargets plan.base := Url.keepsTargets_of_origin (Continuation.localhost.dropTrailing_text 0)
  obtain ⟨hfirst, hsigned, -⟩ := Plan.run_signed plan settings (fun _ => "") { database := { flows := [menuRow] } } "secret"
    Continuation.localhost (by decide) rfl rfl hpublic hservice hkeeps
  refine ⟨hfirst, fun exchange hexchange => ?_⟩
  obtain ⟨hauthentic, hanswered, -⟩ := hsigned exchange hexchange
  refine ⟨hauthentic, ?_⟩
  rcases hanswered with hstatus | ⟨hfailure, -⟩
  · rw [hstatus]
    decide
  · rw [hfailure]
    decide

end Simulation
end Switchboard
