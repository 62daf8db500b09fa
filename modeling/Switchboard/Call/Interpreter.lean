import Switchboard.Call.Event
import Switchboard.Flow.CallFlow
import Switchboard.Flow.Graph
import Switchboard.Settings
/-! # The interpreter of calls

Every callback is answered with a call script. A new call walks from the entry of its flow; a call that
is parked at a block goes on from there, by what the caller pressed or how a forward ended. A walk runs
through blocks one after the other until one ends the call or hands it back to the provider. The blocks
of a call are counted, over all of its callbacks, and a call that has gone through too many is ended.
Whatever fails, the caller hears an apology.
-/
namespace Switchboard.Interpreter

variable {K : Type}

def goodbyeMessage : Text := "Thank you for calling. Goodbye."
def invalidChoiceMessage : Text := "Sorry, that is not a valid choice."
def noInputMessage : Text := "Sorry, we did not receive your selection."
def unavailableMessage : Text := "The person you are trying to reach is not available. Goodbye."
def hopLimitMessage : Text := "We are unable to complete your call right now. Goodbye."
def missingDestinationMessage : Text := "This destination is not configured. Goodbye."
def voicemailPrompt : Text := "Please leave a message after the tone."
def defaultPrompt : Text := "Please make a selection."

def answeredStatuses : List String := ["completed", "answered"]

def farewell (settings : Settings) (message : Text) : List Directive :=
  [.say message (some settings.defaultVoice), .hangup]

def apology (settings : Settings) (message : Text) : CallScript :=
  .ofDirectives (farewell settings message)

def voice (settings : Settings) (b : Block K) : Value :=
  (b.config.get "voice").orElse (.str settings.defaultVoice)

def textPart (name : Text) (v : Value) : Reading Text :=
  Reading.under (.field name) (Reading.text v)

def textPart? (name : Text) (v : Value) : Reading (Option Text) :=
  Reading.under (.field name) (Reading.nullable Reading.text v)

def speak (settings : Settings) (b : Block K) (text : Value) : Outcome Directive :=
  (Directive.say <$> textPart "text" text <*> textPart? "voice" (voice settings b)).outcome

def speakAndEnd (settings : Settings) (b : Block K) (message : Text) : Outcome (List Directive) := do
  let say ← speak settings b (.str message)
  return [say, .hangup]

/-- A number of at least one, or the fallback where a setting holds none. A number that is too large is
a failure. -/
def atLeastOne (fallback : Int) : Outcome Int → Outcome Int
  | .ok n => .ok (max 1 n)
  | .error .tooLarge => .error .tooLarge
  | .error _ => .ok (max 1 fallback)

/-- A numeric setting without its fraction, at least one. -/
def numericSetting (config : Entries) (key : Text) (fallback : Int) : Outcome Int :=
  let v := (config.get key).orElse (.int fallback)
  atLeastOne fallback (v.toNumber.bind (Binary64.toIntegerBy Binary64.truncate?))

def maxAttempts (settings : Settings) (b : Block K) : Outcome Int :=
  let v := (b.config.get "max_attempts").orElse (.int settings.menuMaxAttempts)
  atLeastOne settings.menuMaxAttempts v.toInteger

/-- The seconds of a pause: the nearest integer, at least one. -/
def pauseSeconds (config : Entries) : Outcome Int := do
  let x ← ((config.get "seconds").orElse (.int 1)).toNumber
  let n ← x.toIntegerBy Binary64.nearestInt?
  return max 1 n

def digitsWanted (options : List MenuOption) : Nat :=
  if options.isEmpty then 1 else (options.map fun o => o.digit.length).foldl max 0

def offer (settings : Settings) (flow : CallFlow K) (b : Block K) (attempt hops : Int) :
    Outcome Directive := do
  let options ← b.menuOptions
  let timeout ← numericSetting b.config "timeout" settings.menuTimeout
  (Directive.gather <$> textPart "prompt" ((b.config.get "prompt").orElse (.str defaultPrompt))
    <*> textPart? "voice" (voice settings b)
    <*> pure (digitsWanted options : Int) <*> pure timeout
    <*> pure { flowId := flow.id, blockId := b.id, attempt, hops }).outcome

def destinations (b : Block K) : Outcome (List Value) :=
  if b.type = .forward then .ok ((b.config.get "to").truthy?.toList)
  else do
    let numbers ← ((b.config.get "numbers").orElse (.arr [])).items
    return numbers.filter Value.truthy

def connect (settings : Settings) (flow : CallFlow K) (b : Block K) (hops : Int) :
    Outcome (List Directive) := do
  let numbers ← destinations b
  if numbers.isEmpty then
    speakAndEnd settings b missingDestinationMessage
  else
    let timeout ← numericSetting b.config "timeout" settings.forwardTimeout
    let numbers ← numbers.mapM Value.written
    let dial ← (Directive.dial numbers timeout
      <$> textPart? "caller_id" (b.config.get "caller_id")
      <*> pure flow.recordingEnabled
      <*> pure (some { flowId := flow.id, blockId := b.id, hops })).outcome
    return [dial]

def takesMessage (b : Block K) : Bool :=
  (b.config.get "voicemail").truthy

/-- What is said before the call ends, if anything. -/
def closingText (b : Block K) : Outcome (Option Text) :=
  match (b.config.get "message").truthy? with
  | some message => some <$> message.written
  | none => .ok (if takesMessage b then some voicemailPrompt else none)

def close (settings : Settings) (flow : CallFlow K) (b : Block K) (hops : Int) :
    Outcome (List Directive) := do
  let text ← closingText b
  let spoken ← text.toList.mapM fun text => speak settings b (.str text)
  let recorded := if takesMessage b then
      [Directive.record 120 true (some { flowId := flow.id, blockId := b.id, hops })]
    else []
  return spoken ++ recorded ++ [.hangup]

structure Effect where
  directives : List Directive
  next : Option Text
deriving DecidableEq, Repr

/-- The effect of a block that hands on to the first block that follows, or else ends the call. -/
def handOn (b : Block K) (directives : List Directive) : Effect :=
  match b.firstNext? with
  | some id => { directives, next := some id }
  | none => { directives := directives ++ [.hangup], next := none }

def stop (directives : List Directive) : Effect := { directives, next := none }

def whenMade (config : Entries) (key : Text) (f : Value → Outcome Directive) :
    Outcome (List Directive) :=
  (config.get key).truthy?.toList.mapM f

def execute (settings : Settings) (flow : CallFlow K) (event : CallEvent) (b : Block K) (hops : Int) :
    Outcome Effect :=
  match b.type with
  | .say => handOn b <$> whenMade b.config "text" fun v => do
      let text ← v.written
      speak settings b (.str text)
  | .play => handOn b <$> whenMade b.config "url" fun v => do
      let url ← v.written
      let loop ← numericSetting b.config "loop" 1
      return .play url loop
  | .pause => do
    let seconds ← pauseSeconds b.config
    return handOn b [.pause seconds]
  | .sms => handOn b <$> whenMade b.config "body" fun v => do
      let body ← v.written
      (Directive.sms body
        <$> textPart? "to" ((b.config.get "to").orElse (.ofText? event.callerNumber))
        <*> pure event.calledNumber).outcome
  | .menu => do
    let gather ← offer settings flow b 0 hops
    return stop [gather]
  | .forward | .multiForward => stop <$> connect settings flow b hops
  | .hangup => stop <$> close settings flow b hops

/-- Walks from a block on. `budget` is how many more blocks the call may go through. -/
def walk (settings : Settings) (flow : CallFlow K) (event : CallEvent) :
    Nat → Int → Value → Outcome CallScript
  | 0, _, _ => .ok (apology settings hopLimitMessage)
  | budget + 1, hops, id => do
    match ← Graph.lookup flow.blocks id with
    | none => return apology settings settings.errorMessage
    | some b =>
      let effect ← execute settings flow event b (hops + 1)
      let script : CallScript := { directives := effect.directives, visited := [b.id] }
      match effect.next with
      | none => return script
      | some next =>
        let rest ← walk settings flow event budget (hops + 1) (.str next)
        return script ++ rest

def budget (settings : Settings) (hops : Int) : Nat :=
  (settings.maxHops - hops).toNat

def walkFrom (settings : Settings) (flow : CallFlow K) (event : CallEvent) (id : Value) :
    Outcome CallScript :=
  walk settings flow event (budget settings event.hops) event.hops id

def offerAgain (settings : Settings) (flow : CallFlow K) (b : Block K) (event : CallEvent) :
    Outcome CallScript := do
  let complaint := if (event.lastInput.filter (· != ("" : Text))).isSome then invalidChoiceMessage
    else noInputMessage
  let say ← speak settings b ((b.config.get "invalid_message").orElse (.str complaint))
  let gather ← offer settings flow b (event.attempt + 1) (event.hops + 1)
  return { directives := [say, gather], visited := [b.id] }

/-- Goes on at the block that is named for failures, or else ends the call with a text. -/
def fallBack (settings : Settings) (flow : CallFlow K) (b : Block K) (event : CallEvent)
    (message : Text) : Outcome CallScript :=
  match b.onFail? with
  | some id => walkFrom settings flow event id
  | none => CallScript.ofDirectives <$> speakAndEnd settings b message

def resumeMenu (settings : Settings) (flow : CallFlow K) (b : Block K) (event : CallEvent) :
    Outcome CallScript := do
  match ← b.optionFor event.lastInput with
  | some option =>
    match option.target? with
    | some target => walkFrom settings flow event (.str target)
    | none => CallScript.ofDirectives <$> speakAndEnd settings b goodbyeMessage
  | none =>
    let attempts ← maxAttempts settings b
    if event.attempt + 1 < attempts then
      if budget settings event.hops = 0 then return apology settings hopLimitMessage
      else offerAgain settings flow b event
    else fallBack settings flow b event goodbyeMessage

/-- Whether a forward has been answered, or nothing is told about how it ended. -/
def isOver (status : Option Text) : Bool :=
  (status.getD "").plain?.any fun s => ("" :: answeredStatuses).contains (Text.lowercase s)

/-- Goes on at a forward by how it ended. -/
def resumeForward (settings : Settings) (flow : CallFlow K) (b : Block K) (event : CallEvent) :
    Outcome CallScript :=
  if isOver event.dialStatus then .ok (.ofDirectives [.hangup])
  else fallBack settings flow b event unavailableMessage

def resume (settings : Settings) (flow : CallFlow K) (b : Block K) (event : CallEvent) :
    Outcome CallScript :=
  match b.type with
  | .menu => resumeMenu settings flow b event
  | .forward | .multiForward => resumeForward settings flow b event
  | .hangup => .ok (.ofDirectives [.hangup])
  | _ => walkFrom settings flow event (.str b.id)

def disclaimer (settings : Settings) (flow : CallFlow K) : CallScript :=
  if flow.recordingEnabled then
    let text := (flow.recordingDisclaimer.filter (· != ("" : Text))).getD settings.recordingDisclaimer
    .ofDirectives [.say text (some settings.defaultVoice)]
  else {}

def start (settings : Settings) (flow : CallFlow K) (event : CallEvent) : Outcome CallScript := do
  match ← Graph.entryBlock flow.blocks flow.entryBlockId with
  | none => return apology settings settings.errorMessage
  | some entry =>
    let rest ← walkFrom settings flow event (.str entry.id)
    return disclaimer settings flow ++ rest

def answer (settings : Settings) (flow : CallFlow K) (event : CallEvent) : Outcome CallScript :=
  match event.currentBlockId with
  | none => start settings flow event
  | some id =>
    match Graph.block? flow.blocks id with
    | none => .ok (apology settings settings.errorMessage)
    | some b => resume settings flow b event

/-- Answers an event; without a flow, and whatever fails, with an apology. -/
def handle (settings : Settings) (flow : Option (CallFlow K)) (event : CallEvent) : CallScript :=
  match flow with
  | none => apology settings settings.noFlowMessage
  | some flow =>
    match answer settings flow event with
    | .ok script => script
    | .error _ => apology settings settings.errorMessage

def outboundLeg (settings : Settings) (event : CallEvent) : CallScript :=
  match event.calledNumber.filter (· != ("" : Text)) with
  | none => apology settings missingDestinationMessage
  | some number =>
    .ofDirectives [.dial [number] settings.forwardTimeout event.callerNumber false none, .hangup]

end Switchboard.Interpreter
