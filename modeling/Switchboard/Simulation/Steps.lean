import Switchboard.Http.Url
import Switchboard.Markup.Reader
import Switchboard.Text.Blank
/-! # Steps of a simulated call

From the document that answers a callback follows where the next callback goes: to the action that
collects digits, or to the redirect for a caller who presses none.
-/
namespace Switchboard.Simulation

def redirectOf (root : Markup.Element) : Option String :=
  ((root.child? "Redirect").map Markup.Element.text).filter (· != "") |>.map Text.trimString

/-- The action that collects digits and the redirect that follows it, each if the document has one. -/
def nextStep (document : String) : Outcome (Option String × Option String) :=
  match Markup.readDocument? document with
  | none => .error .malformedDocument
  | some root => .ok ((root.child? "Gather").bind (·.attribute? "action"), redirectOf root)

def pathOf (url : String) : Outcome String :=
  Http.Url.target <$> Http.Url.parse url

def nextStepAt : Value → Outcome (Option String × Option String)
  | .str document => document.encoded.bind nextStep
  | v => .error (.notText v.kind)

def pathAt : Value → Outcome String
  | .str url => url.encoded.bind pathOf
  | .arr _ => .error (.notText .arr)
  | .obj _ => .error (.notText .obj)
  | v => .error (if v.truthy then .noPart v.kind "decode" else .notText v.kind)

end Switchboard.Simulation
