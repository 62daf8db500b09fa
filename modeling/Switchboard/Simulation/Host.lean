import Switchboard.Service.Routing
import Switchboard.Simulation.Call
/-! # Calls to the service

A simulated call is delivered to the service itself. Each request is answered at a time of its own, and a
call without a name gets a fresh one.
-/
namespace Switchboard.Simulation

open Http (Request Response)
open Store (Database)

structure Host where
  database : Database := {}
  served : Nat := 0
deriving Repr

def Host.serve (settings : Settings) (clock : Nat → String) (host : Host) (request : Request) :
    Response × Host :=
  let served := host.served + 1
  let (response, database) := Service.respond settings host.database (clock served) request
  (response, { database, served })

structure Plan where
  base : String := "http://localhost:8000"
  /-- The address that callbacks are signed for, if it is another one. -/
  publicBase : Option String := none
  secret : Option String := none
  callSid : Option String := none
  caller : String := "+15550001111"
  called : String := ""
  digits : List String := []
deriving DecidableEq, Repr

namespace Plan

def toCaller (plan : Plan) (callSid : String) : Caller where
  base := plan.base
  publicBase := (plan.publicBase.filter (· != "")).getD plan.base
  secret := plan.secret
  callSid := callSid
  caller := plan.caller
  called := plan.called

def nameCall (plan : Plan) (supply : Supply) : String × Supply :=
  match plan.callSid.filter (· != "") with
  | some sid => (sid, supply)
  | none => ("CA" ++ supply.next, supply.advance)

def run (plan : Plan) (settings : Settings) (clock : Nat → String) (host : Host) : Run Host :=
  let (sid, supply) := plan.nameCall host.database.supply
  let host := { host with database := { host.database with supply } }
  (plan.toCaller sid).call (Host.serve settings clock) plan.digits host

end Plan
end Switchboard.Simulation
