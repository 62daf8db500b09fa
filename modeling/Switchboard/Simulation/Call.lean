import Switchboard.Http.Parameters
import Switchboard.Markup.Script
import Switchboard.Signature
import Switchboard.Simulation.Steps
/-! # Simulated calls

A simulated call makes the callbacks that the provider would make. Whoever delivers them is left open. While
there are digits the next one is sent to the action of the script, after that its redirect is followed, until
a script no longer waits or there were too many callbacks.
-/
namespace Switchboard.Simulation

open Http (Parameters Request Response)

/-- One who calls, and how the callbacks of the call are sent. -/
structure Caller where
  base : String
  /-- The address that the service has for the provider; callbacks are signed for it. -/
  publicBase : String
  secret : Option String := none
  callSid : String
  caller : String
  called : String
deriving DecidableEq, Repr

structure Callback where
  path : String
  parameters : Parameters
deriving DecidableEq, Repr

structure Exchange where
  callback : Callback
  request : Request
  response : Response
deriving Repr

structure Run (σ : Type) where
  exchanges : List Exchange
  failure : Option Fault
  state : σ

namespace Caller

def parameters (caller : Caller) : Parameters :=
  [("CallSid", caller.callSid), ("From", caller.caller), ("To", caller.called)]

def firstCallback (caller : Caller) : Callback where
  path := Markup.voicePath
  parameters := caller.parameters ++ [("Direction", "inbound")]

def signatureHeader (caller : Caller) (callback : Callback) : List (String × String) :=
  (caller.secret.filter (· != "")).toList.map fun secret =>
    ("X-Twilio-Signature", Signature.sign secret
      (Text.dropTrailingString '/' caller.publicBase ++ callback.path) callback.parameters)

def request (caller : Caller) (callback : Callback) : Outcome Request := do
  let url ← Http.Url.parse (Text.dropTrailingString '/' caller.base ++ callback.path)
  return .deliveredTo url .post
    (("Content-Type", "application/x-www-form-urlencoded") :: caller.signatureHeader callback)
    (Text.bytesOf (Text.encodePairs callback.parameters).toList)

def next? (caller : Caller) (digits : List String) (document : String) :
    Outcome (Option (Callback × List String)) := do
  let (action, redirect) ← nextStep document
  match action, digits, redirect.filter (· != "") with
  | some action, digit :: digits, _ =>
    let path ← pathOf action
    return some ({ path, parameters := caller.parameters ++ [("Digits", digit)] }, digits)
  | some _, [], some redirect =>
    let path ← pathOf redirect
    return some ({ path, parameters := caller.parameters }, [])
  | _, _, _ => return none

/-- Makes a callback and those that follow, at most as many as the budget. -/
def walk {σ : Type} (deliver : σ → Request → Response × σ) (caller : Caller) :
    Nat → Callback → List String → σ → Run σ
  | 0, _, _, state => { exchanges := [], failure := none, state }
  | budget + 1, callback, digits, state =>
    match caller.request callback with
    | .error fault => { exchanges := [], failure := some fault, state }
    | .ok request =>
      let (response, state) := deliver state request
      let exchanges := [{ callback, request, response }]
      if response.failed then { exchanges, failure := some .requestFailed, state }
      else
        match caller.next? digits response.content.text with
        | .error fault => { exchanges, failure := some fault, state }
        | .ok none => { exchanges, failure := none, state }
        | .ok (some (callback, digits)) =>
          let rest := walk deliver caller budget callback digits state
          { rest with exchanges := exchanges ++ rest.exchanges }

def maxCallbacks : Nat := 20

def call {σ : Type} (deliver : σ → Request → Response × σ) (caller : Caller) (digits : List String)
    (state : σ) : Run σ :=
  walk deliver caller maxCallbacks caller.firstCallback digits state

end Caller

def Exchange.document (exchange : Exchange) : String :=
  exchange.response.content.text

namespace Run

def documents {σ : Type} (run : Run σ) : Outcome (List String) :=
  match run.failure with
  | some fault => .error fault
  | none => .ok (run.exchanges.map Exchange.document)

def transcript {σ : Type} (run : Run σ) : Outcome String :=
  match run.failure with
  | some fault => .error fault
  | none => .ok (String.join (run.exchanges.map fun exchange =>
      "--- " ++ exchange.callback.path ++ "\n" ++ exchange.document ++ "\n"))

end Run
end Switchboard.Simulation
