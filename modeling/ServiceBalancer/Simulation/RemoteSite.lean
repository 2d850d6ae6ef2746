import ServiceBalancer.Agenda
import ServiceBalancer.Cluster.Readiness
import ServiceBalancer.Cluster.Remote
import ServiceBalancer.Cluster.Watch
import ServiceBalancer.Object.Endpoints
import ServiceBalancer.Object.Node
import ServiceBalancer.Simulation.DeltaText
import ServiceBalancer.Simulation.ScriptedServer

/-! The view of a cluster through a scripted API server, on virtual time. -/
namespace ServiceBalancer.Simulation

inductive WatchActivity where
  /-- not started yet -/
  | resting
  | running
  | pausing (due : Nat)
  /-- waiting for an answer or a line that never comes -/
  | silent
  | stopped
  deriving DecidableEq

/-- An informer at work: the rest of its stream, and the changes that it told. -/
structure WatchTask (α : Type) where
  informer : Informer α := {}
  activity : WatchActivity := .resting
  stream : List Json × Bool := ([], false)
  deltas : List (Delta α) := []

namespace WatchTask
variable {α : Type} [Resource α]

def reply (collection : String) (q : Watch.Request) (w : WatchTask α × ScriptedServer) :
    Program.Reply (Watch.Answer α q) × (WatchTask α × ScriptedServer) :=
  let (t, server) := w
  match q with
  | .list _ =>
    match server.reply { verb := .get, collection } with
    | (.now r, server) => (.now (r.content (Listing.ofJson? Resource.ofJson?)), t, server)
    | (_, server) => (.never, t, server)
  | .stream _ =>
    match server.take { verb := .watch, collection } with
    | (some (.stream lines staysOpen), server) => (.now (.ok ()), { t with stream := (lines, staysOpen) }, server)
    | (some (.response r), server) =>
      match r.content some with
      | .ok body => (.now (.ok ()), { t with stream := ([body], false) }, server)
      | .error e => (.now (.error e), t, server)
    | (none, server) => (.never, t, server)
  | .line =>
    match t.stream with
    | (line :: rest, staysOpen) =>
      (.now (some (.ofJson Resource.ofJson? line)), { t with stream := (rest, staysOpen) }, server)
    | ([], true) => (.never, t, server)
    | ([], false) => (.now none, t, server)

def settleWithin (collection : String) (now : Nat) : Nat → WatchTask α × ScriptedServer → WatchTask α × ScriptedServer
  | 0, w => w
  | fuel + 1, (t, server) =>
    if t.activity ≠ .running then (t, server)
    else
      match t.informer.watch.step.advance (reply collection) (t, server) with
      | (.finished s, t, server) =>
        let (deltas, informer) := t.informer.take s
        let activity := match s.1 with
          | .failed => .pausing (Agenda.dueAt ⟨now * 1000000 + (Watch.pause informer.failures).nanos⟩)
          | _ => .running
        settleWithin collection now fuel ({ t with informer, activity, deltas := t.deltas ++ deltas }, server)
      | (_, t, server) => ({ t with activity := .silent }, server)

def due? (t : WatchTask α) : Option Nat :=
  match t.activity with
  | .pausing due => some due
  | _ => none

def wake (t : WatchTask α) (now : Nat) : WatchTask α :=
  match t.activity with
  | .pausing due => if due ≤ now then { t with activity := .running } else t
  | _ => t

def start (t : WatchTask α) : WatchTask α :=
  if t.activity = .resting then { t with activity := .running } else t

def stop (t : WatchTask α) : WatchTask α :=
  if t.activity = .resting then t else { t with activity := .stopped }

def phase (t : WatchTask α) : StorePhase :=
  if t.informer.reflector.ready then .complete
  else if t.activity = .stopped then .abandoned
  else .waiting

end WatchTask

/-- A server, the informers of three kinds, and the time in milliseconds. -/
structure RemoteSite where
  server : ScriptedServer := {}
  services : WatchTask Service := {}
  nodes : WatchTask Node := {}
  endpoints : WatchTask Endpoints := {}
  now : Nat := 0

namespace RemoteSite

def patience : Nat := 1000000

def settle (s : RemoteSite) : RemoteSite :=
  let path (plural : String) : String := Api.collection Api.coreRoot plural none
  let (services, server) := WatchTask.settleWithin (path "services") s.now patience (s.services, s.server)
  let (nodes, server) := WatchTask.settleWithin (path "nodes") s.now patience (s.nodes, server)
  let (endpoints, server) := WatchTask.settleWithin (path "endpoints") s.now patience (s.endpoints, server)
  { s with server, services, nodes, endpoints }

def moveTo (s : RemoteSite) (time : Nat) : RemoteSite :=
  { s with
    services := s.services.wake time
    nodes := s.nodes.wake time
    endpoints := s.endpoints.wake time
    now := time }

def nextDue? (s : RemoteSite) : Option Nat :=
  [s.services.due?, s.nodes.due?, s.endpoints.due?].reduceOption.min?

def passWithin (enough : RemoteSite → Bool) (time : Nat) : Nat → RemoteSite → RemoteSite
  | 0, s => s
  | fuel + 1, s =>
    let s := s.settle
    if enough s then s
    else
      match s.nextDue? with
      | some due => if due ≤ time then passWithin enough time fuel (s.moveTo due) else (s.moveTo time).settle
      | none => (s.moveTo time).settle

def pass (s : RemoteSite) (millis : Nat) : RemoteSite :=
  passWithin (fun _ => false) (s.now + millis) patience s

def start (s : RemoteSite) : RemoteSite :=
  { s with services := s.services.start, nodes := s.nodes.start, endpoints := s.endpoints.start }.settle

def abort (s : RemoteSite) : RemoteSite :=
  { s with services := s.services.stop, nodes := s.nodes.stop, endpoints := s.endpoints.stop }

def phases (s : RemoteSite) : List StorePhase := [s.services.phase, s.nodes.phase, s.endpoints.phase]

def hour : Nat := 3600000

/-- Waits until the stores are complete or one is abandoned, an hour at most, and says whether the
wait was over. -/
def waitForSync (s : RemoteSite) : Bool × RemoteSite :=
  let isOver (s : RemoteSite) : Bool := StorePhase.waitIsOver s.phases
  let s := passWithin isOver (s.now + hour) patience s
  (isOver s, s)

/-- Makes calls to the server, and tells what they came to, if they were answered within an hour. -/
def call {α : Type} (talk : Api.Talk α) (s : RemoteSite) : Option α × RemoteSite :=
  match talk.advance ScriptedServer.reply s.server with
  | (.finished a, server) => (some a, { s with server })
  | (_, server) => (none, { s with server }.pass hour)

def deltaTexts (s : RemoteSite) : List String :=
  s.endpoints.deltas.map (Delta.text "Endpoints ") ++ s.nodes.deltas.map (Delta.text "Node ") ++
    s.services.deltas.map (Delta.text "Service ")

def turnPage (s : RemoteSite) : RemoteSite :=
  { s with
    server := { s.server with log := [] }
    services := { s.services with deltas := [] }
    nodes := { s.nodes with deltas := [] }
    endpoints := { s.endpoints with deltas := [] } }

def ended (s : RemoteSite) : List Bool :=
  if s.services.activity = .resting then []
  else [s.services.activity, s.nodes.activity, s.endpoints.activity].map (· = .stopped)

end RemoteSite
end ServiceBalancer.Simulation
