import ServiceBalancer.Agenda
import ServiceBalancer.Leadership.Elector
import ServiceBalancer.Leadership.LossWatch
import ServiceBalancer.Simulation.ScriptedServer

/-! One replica that campaigns for leadership at a scripted API server, and a watcher that waits
for leadership to be lost. -/
namespace ServiceBalancer.Simulation

structure Election where
  leaseNamespace : String
  identity : String
  /-- what the replica's clock shows in all rounds -/
  moment : Timestamp
  leading : Bool
  watcher : LossWatch := {}
  lost : Bool := false
  server : ScriptedServer := {}
  /-- The time in milliseconds. -/
  now : Nat := 0
  /-- when the next round begins, unless the last one never ends -/
  due : Option Nat := some 0

namespace Election

def look (e : Election) : Election :=
  if e.lost then e
  else
    let (lost, watcher) := e.watcher.poll e.leading
    { e with lost, watcher }

def round (e : Election) : Election :=
  match (Elector.round e.leaseNamespace e.identity e.moment).advance ScriptedServer.reply e.server with
  | (.finished result, server) =>
    let leading := Elector.leads result
    let due := Agenda.dueAt ⟨e.now * 1000000 + (Elector.interval leading).nanos⟩
    { e with server, leading, due := some due }.look
  | (_, server) => { e with server, due := none }

def passWithin (time : Nat) : Nat → Election → Election
  | 0, e => e
  | fuel + 1, e =>
    match e.due with
    | some due => if due ≤ time then passWithin time fuel { e with now := due }.round else { e with now := time }
    | none => { e with now := time }

/-- Lets a number of milliseconds pass. Rounds are five seconds apart at least. -/
def pass (e : Election) (millis : Nat) : Election := passWithin (e.now + millis) (millis / 5000 + 2) e

/-- Begins: the watcher looks before the first round. -/
def start (e : Election) : Election := e.look.pass 0

end Election
end ServiceBalancer.Simulation
