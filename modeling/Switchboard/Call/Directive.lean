import Switchboard.Reading
/-! # Directives

A call script is a list of directives for the telephony provider. A directive that hands the call back
carries a continuation: what the provider has to return with its next callback.
-/
namespace Switchboard

/-- The place of a call, handed to the provider and returned with its next callback. -/
structure Continuation where
  flowId : Option Text := none
  blockId : Text
  attempt : Int := 0
  hops : Int := 0
deriving DecidableEq, Repr

namespace Continuation

def readEntries (entries : Entries) : Reading Continuation :=
  Continuation.mk <$> Reading.fieldOr entries "flow_id" none (Reading.nullable Reading.text)
    <*> Reading.field entries "block_id" Reading.text
    <*> Reading.fieldOr entries "attempt" 0 Reading.integer
    <*> Reading.fieldOr entries "hops" 0 Reading.integer

def read : Value → Reading Continuation :=
  Reading.record "Continuation" readEntries

def toValue (c : Continuation) : Value :=
  .obj [("flow_id", .ofText? c.flowId), ("block_id", .str c.blockId), ("attempt", .int c.attempt),
    ("hops", .int c.hops)]

end Continuation

/-- An instruction for the telephony provider. -/
inductive Directive where
  | say (text : Text) (voice : Option Text)
  | play (url : Text) (loop : Int)
  | pause (seconds : Int)
  | gather (prompt : Text) (voice : Option Text) (numDigits timeout : Int)
      (continuation : Continuation)
  | dial (numbers : List Text) (timeout : Int) (callerId : Option Text) (record : Bool)
      (continuation : Option Continuation)
  | sms (body : Text) (recipient sender : Option Text)
  | record (maxLength : Int) (playBeep : Bool) (continuation : Option Continuation)
  | hangup
deriving DecidableEq, Repr

namespace Directive

def kind : Directive → String
  | say .. => "say"
  | play .. => "play"
  | pause .. => "pause"
  | gather .. => "gather"
  | dial .. => "dial"
  | sms .. => "sms"
  | record .. => "record"
  | hangup => "hangup"

def continuation? : Directive → Option Continuation
  | gather _ _ _ _ c => some c
  | dial _ _ _ _ c => c
  | record _ _ c => c
  | _ => none

def suspends : Directive → Bool
  | gather .. => true
  | dial _ _ _ _ c => c.isSome
  | _ => false

def readKind? (kind : String) (entries : Entries) : Option (Reading Directive) :=
  let text (name : Text) := Reading.field entries name Reading.text
  let text? (name : Text) := Reading.fieldOr entries name none (Reading.nullable Reading.text)
  let integer (name : Text) (absent : Int) := Reading.fieldOr entries name absent Reading.integer
  let bool (name : Text) (absent : Bool) := Reading.fieldOr entries name absent Reading.bool
  let continuation? :=
    Reading.fieldOr entries "continuation" none (Reading.nullable Continuation.read)
  match kind with
  | "say" => some (say <$> text "text" <*> text? "voice")
  | "play" => some (play <$> text "url" <*> integer "loop" 1)
  | "pause" => some (pause <$> integer "seconds" 1)
  | "gather" => some (gather <$> text "prompt" <*> text? "voice" <*> integer "num_digits" 1
      <*> integer "timeout" 5 <*> Reading.field entries "continuation" Continuation.read)
  | "dial" => some (dial <$> Reading.field entries "numbers" (Reading.list Reading.text)
      <*> integer "timeout" 30 <*> text? "caller_id" <*> bool "record" false <*> continuation?)
  | "sms" => some (sms <$> text "body" <*> text? "to" <*> text? "from_number")
  | "record" => some (record <$> integer "max_length" 120 <*> bool "play_beep" true
      <*> continuation?)
  | "hangup" => some (pure hangup)
  | _ => none

def continuationValue (c : Option Continuation) : Value :=
  (c.map Continuation.toValue).getD .null

def fields : Directive → Entries
  | say text voice => [("text", .str text), ("voice", .ofText? voice)]
  | play url loop => [("url", .str url), ("loop", .int loop)]
  | pause seconds => [("seconds", .int seconds)]
  | gather prompt voice numDigits timeout c =>
    [("prompt", .str prompt), ("voice", .ofText? voice), ("num_digits", .int numDigits),
      ("timeout", .int timeout), ("continuation", c.toValue)]
  | dial numbers timeout callerId recorded c =>
    [("numbers", .arr (numbers.map .str)), ("timeout", .int timeout), ("caller_id", .ofText? callerId),
      ("record", .bool recorded), ("continuation", continuationValue c)]
  | sms body recipient sender =>
    [("body", .str body), ("to", .ofText? recipient), ("from_number", .ofText? sender)]
  | record maxLength playBeep c =>
    [("max_length", .int maxLength), ("play_beep", .bool playBeep),
      ("continuation", continuationValue c)]
  | hangup => []

def toValue (d : Directive) : Value :=
  .obj (("kind", .str d.kind) :: d.fields)

end Directive

/-- What a callback is answered with. -/
structure CallScript where
  directives : List Directive := []
  visited : List Text := []
deriving DecidableEq, Repr

namespace CallScript

def append (s t : CallScript) : CallScript where
  directives := s.directives ++ t.directives
  visited := s.visited ++ t.visited

instance : Append CallScript := ⟨append⟩

@[simp] theorem directives_append (s t : CallScript) :
    (s ++ t).directives = s.directives ++ t.directives := rfl

@[simp] theorem visited_append (s t : CallScript) : (s ++ t).visited = s.visited ++ t.visited := rfl

def ofDirectives (directives : List Directive) : CallScript := { directives }

def suspended (s : CallScript) : Bool :=
  (s.directives.getLast?.map Directive.suspends).getD false

def kinds (s : CallScript) : List String :=
  s.directives.map Directive.kind

def continuation? (s : CallScript) : Option Continuation :=
  (s.directives.filterMap Directive.continuation?).getLast?

end CallScript
end Switchboard
