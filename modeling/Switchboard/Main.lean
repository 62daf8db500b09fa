import Switchboard.Simulation.CommandLine
/-! # The program

Walks one call through the service. A flow on the standard input is stored before the call; the settings of
the service and some options are taken from the environment.
-/
namespace Switchboard

partial def readAll (input : IO.FS.Stream) : IO String := do
  let line ← input.getLine
  if line.isEmpty then return ""
  return line ++ (← readAll input)

def environmentSettings : IO (Outcome Settings) := do
  let environment ← (Settings.names.filterMap Text.plain?).filterMapM fun name => do
    return (← IO.getEnv name).map fun (value : String) => ((name : Text), Value.str value)
  return (Settings.ofEnvironment environment).outcome

def environmentPlan : IO Simulation.Plan := do
  let plan : Simulation.Plan := {}
  return { plan with
    base := (← IO.getEnv "BASE_URL").getD plan.base
    publicBase := ← IO.getEnv "PUBLIC_BASE_URL"
    secret := ← IO.getEnv "TWILIO_AUTH_TOKEN" }

def clock (number : Nat) : String :=
  toString number

/-- The service with the flow of a document, if the document is not blank. -/
def hostOf (document : String) : Outcome Simulation.Host :=
  if Text.isBlankText document then .ok {}
  else
    match Json.read? document with
    | none => .error .malformedDocument
    | some value => do
      let flow ← (CallFlow.read value).outcome
      let (saved, database) := ({} : Store.Database).saveFlow flow true (clock 0)
      let _ ← saved
      return { database }

/-- What a call prints, by the plan, the settings and the document of the flow. -/
def callTranscript (plan : Simulation.Plan) (settings : Outcome Settings) (document : String) :
    Outcome String := do
  let settings ← settings
  let host ← hostOf document
  (plan.run settings clock host).transcript

end Switchboard

open Switchboard

def main (arguments : List String) : IO UInt32 := do
  match Simulation.CommandLine.parse (← environmentPlan) arguments with
  | .error .help =>
    IO.print Simulation.CommandLine.usageText
    return 0
  | .error usage =>
    IO.eprint usage.message
    return usage.status
  | .ok plan =>
    let document ← readAll (← IO.getStdin)
    match callTranscript plan (← environmentSettings) document with
    | .ok transcript =>
      IO.print transcript
      return 0
    | .error fault =>
      IO.eprintln (String.ofList fault.message.chars)
      return 1
