import Switchboard.Call.Directive
import Switchboard.Fault
import Switchboard.Markup.Element
import Switchboard.Text.Blank
import Switchboard.Text.Percent
/-! # Call scripts as markup

The provider takes a call script as a document with an element for each directive. A continuation is
written into the address that the provider calls back. A script cannot be sent if one of its texts is loose
or one of its integers has too many digits.
-/
namespace Switchboard.Markup

def voicePath : String := "/webhook/voice"

def integerText (n : Int) : Outcome String :=
  Fault.unlessOversized (Numeral.text? n)

def continuationParameters (c : Continuation) : Outcome (List (String × String)) := do
  let flow ← (c.flowId.filter (· != ("" : Text))).toList.mapM Text.encoded
  let node ← c.blockId.encoded
  let attempt ← integerText c.attempt
  let hops ← integerText c.hops
  return flow.map (fun id => ("flow", id)) ++ [("node", node), ("attempt", attempt), ("hops", hops)]

def continuationUrl (base : Text) (path : String) (c : Continuation) : Outcome String := do
  let parameters ← continuationParameters c
  let base ← (Text.dropTrailing '/' base).encoded
  return base ++ path ++ "?" ++ Text.encodePairs parameters

def optional (name : String) (value : Option String) : List (String × String) :=
  value.toList.map fun v => (name, v)

def callbackAttributes (action : Option String) : List (String × String) :=
  optional "action" action ++ optional "method" (action.map fun _ => "POST")

def spoken (text : Text) (voice : Option Text) : Outcome Element := do
  let voice ← voice.mapM Text.encoded
  let text ← text.encoded
  return .leaf "Say" (optional "voice" voice) text

/-- The elements of a directive. After digits are collected comes the redirect that is followed when there
are none. -/
def elementsOf (base : Text) (path : String) : Directive → Outcome (List Element)
  | .say text voice => do return [← spoken text voice]
  | .play url loop => do
    let loop ← integerText loop
    let url ← url.encoded
    return [.leaf "Play" [("loop", loop)] url]
  | .pause seconds => do
    let seconds ← integerText seconds
    return [.leaf "Pause" [("length", seconds)] ""]
  | .gather prompt voice numDigits timeout c => do
    let action ← continuationUrl base path c
    let numDigits ← integerText numDigits
    let timeout ← integerText timeout
    let say ← spoken prompt voice
    return [.parent "Gather" ([("input", "dtmf"), ("numDigits", numDigits), ("timeout", timeout)] ++
        callbackAttributes (some action)) [say],
      .leaf "Redirect" [("method", "POST")] action]
  | .dial numbers timeout callerId record c => do
    let action ← c.mapM (continuationUrl base path)
    let timeout ← integerText timeout
    let callerId ← callerId.mapM Text.encoded
    let numbers ← numbers.mapM Text.encoded
    return [.parent "Dial" ([("timeout", timeout)] ++ optional "callerId" callerId ++
        optional "record" (if record then some "record-from-answer" else none) ++
        callbackAttributes action)
        (numbers.map fun number => .leaf "Number" [] number)]
  | .sms body recipient sender => do
    let recipient ← recipient.mapM Text.encoded
    let sender ← sender.mapM Text.encoded
    let body ← body.encoded
    return [.leaf "Sms" (optional "to" recipient ++ optional "from" sender) body]
  | .record maxLength playBeep c => do
    let action ← c.mapM (continuationUrl base path)
    let maxLength ← integerText maxLength
    return [.leaf "Record" ([("maxLength", maxLength),
        ("playBeep", if playBeep then "true" else "false")] ++ callbackAttributes action) ""]
  | .hangup => .ok [.leaf "Hangup" [] ""]

def render (base : Text) (path : String) (directives : List Directive) : Outcome String := do
  let elements ← directives.mapM (elementsOf base path)
  return document (.parent "Response" [] elements.flatten)

/-- The document of a list in which texts may stand in place of directives; a text refuses it. -/
def renderMixed (base : Text) (path : String) (items : List (Directive ⊕ Text)) : Outcome String := do
  let elements ← items.mapM fun item =>
    match item with
    | .inl d => elementsOf base path d
    | .inr text => .error (Fault.unknownDirective text)
  return document (.parent "Response" [] elements.flatten)

end Switchboard.Markup
