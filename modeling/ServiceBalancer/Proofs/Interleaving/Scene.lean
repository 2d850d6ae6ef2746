import ServiceBalancer.Controller
import ServiceBalancer.Proofs.Queue.Orderly
import ServiceBalancer.Proofs.Simulation.Backing
import ServiceBalancer.Routing

/-! The controller at work, with nothing said about the order. Changes are told to the router when they
are, the router does what it decided one thing at a time, and any number of workers are at syncs of
which each exchange is a step of its own. -/
namespace ServiceBalancer.Simulation
open Sync

inductive News where
  | service (δ : Delta Service)
  | node (δ : Delta Node)
  | endpoints (δ : Delta Endpoints)

structure Job where
  key : ServiceKey
  /-- What is left of the sync, unless it broke down. -/
  rest : Option (Program Answer (Except Error Unit))
  course : Course := {}

def Job.outcome? (j : Job) : Option SyncOutcome :=
  match j.rest with
  | none => some none
  | some (.done result) => some (some result)
  | some (.ask _ _) => none

structure Scene where
  world : World
  queue : WorkQueue ServiceKey := {}
  /-- What each worker is at. -/
  jobs : Nat → Option Job := fun _ => none
  /-- The changes that the router has not been told yet. -/
  news : List News := []
  /-- What the router has decided to do. -/
  todo : List Reaction := []
  /-- The syncs of each key that have ended, newest first. -/
  past : ServiceKey → List Report := fun _ => []

namespace Scene

inductive Move where
  /-- A service is created or replaced. -/
  | putService (svc : Service)
  | removeService (key : ServiceKey)
  /-- A node is created or replaced. -/
  | putNode (node : Node)
  | dropNode (name : String)
  | putEndpoints (δ : Delta Endpoints)
  /-- The router is told one of the changes. -/
  | tell (index : Nat)
  /-- The router does one of the things it decided to do. -/
  | react (index : Nat)
  | resync
  | failCloud (message : String)
  | failStatus (e : StatusWriteError)
  | failCluster (call : ClusterCall) (e : Error)
  /-- A timer of the queue fires, on time or late. -/
  | fire (key : ServiceKey) (deadline : Duration)
  /-- An idle worker takes a key. -/
  | get (who : Nat)
  /-- A sync puts a request, which is answered. -/
  | exchange (who time : Nat)
  /-- A worker hands back a key whose sync has ended. -/
  | finish (who : Nat) (now clock errorDelay : Duration) (backoff : Backoff)

def setJob (s : Scene) (who : Nat) (job : Option Job) : Scene :=
  { s with jobs := fun other => if other = who then job else s.jobs other }

def putService (s : Scene) (svc : Service) : Scene :=
  let (stored, cluster) := s.world.cluster.upsertService svc
  let δ := match s.world.cluster.service? (svc.info.ns.getD "") svc.info.displayName with
    | some old => .updated old stored
    | none => .added stored
  { s with world.cluster := cluster, news := s.news ++ [.service δ] }

def removeService (s : Scene) (key : ServiceKey) : Option Scene :=
  (s.world.cluster.service? key.ns key.name).map (fun svc =>
    { s with
      world.cluster := s.world.cluster.deleteService key.ns key.name
      news := s.news ++ [.service (.deleted svc)] })

def putNode (s : Scene) (node : Node) : Scene :=
  let δ := match s.world.cluster.nodes.get? node.name with
    | some old => .updated old node
    | none => .added node
  { s with world.cluster := s.world.cluster.upsertNode node, news := s.news ++ [.node δ] }

def dropNode (s : Scene) (name : String) : Option Scene :=
  (s.world.cluster.nodes.get? name).map (fun node =>
    { s with world.cluster := s.world.cluster.deleteNode name, news := s.news ++ [.node (.deleted node)] })

/-- Decides what to do about changed endpoints. A service that is not remembered is read from the cluster. -/
def decideEndpoints (s : Scene) (δ : Delta Endpoints) : Scene :=
  match Routing.endpointsKey? δ with
  | none => s
  | some key =>
    match s.world.cache.get? key with
    | some entry => { s with todo := s.todo ++ Routing.onEndpoints key entry.service }
    | none =>
      let (result, world) := s.world.fetch 0 key
      match result with
      | .ok (some svc) => { s with world, todo := s.todo ++ Routing.onEndpoints key svc }
      | _ => { s with world }

def decide (s : Scene) : News → Scene
  | .service δ => { s with todo := s.todo ++ Routing.onService δ }
  | .node δ => { s with todo := s.todo ++ Routing.onNode s.world.cache δ }
  | .endpoints δ => s.decideEndpoints δ

def react (s : Scene) : Reaction → Scene
  | .enqueue key => { s with queue := s.queue.add key }
  | .record e => { s with world := s.world.record 0 e }
  | .keepDeleted svc => { s with world.cache := s.world.cache.insert (.ofService svc) (.ofDeleted svc) }
  | .markStale key => { s with world.cache := Cache.markStale s.world.cache key }

def resync (s : Scene) : Scene :=
  let (keys, cache) := Controller.resync s.world.cache
  { s with world.cache := cache, todo := s.todo ++ keys.map .enqueue }

def get (settings : SyncSettings) (s : Scene) (who : Nat) : Option Scene :=
  match s.jobs who, s.queue.take? with
  | none, some (key, queue) =>
    some ({ s with queue }.setJob who (some { key, rest := some (program settings key) }))
  | _, _ => none

def exchange (s : Scene) (who time : Nat) : Option Scene :=
  match s.jobs who with
  | some ⟨key, some (.ask q next), course⟩ =>
    match s.world.answer time q with
    | (some a, world) => some ({ s with world }.setJob who (some ⟨key, some (next a), course.note q a⟩))
    | (none, world) => some ({ s with world }.setJob who (some ⟨key, none, course⟩))
  | _ => none

/-- Lets a worker hand back its key. A worker that fails to is lost with the key in hand. -/
def finish (s : Scene) (who : Nat) (now clock errorDelay : Duration) (backoff : Backoff) : Option Scene :=
  match s.jobs who with
  | some job =>
    match job.outcome? with
    | some outcome =>
      let past := fun key => if key = job.key then ⟨job.course, outcome⟩ :: s.past key else s.past key
      match Worker.handBack s.queue now job.key (Worker.requeue? errorDelay clock backoff outcome).1 with
      | .settled queue => some ({ s with queue, past }.setJob who none)
      | .timed queue _ => some ({ s with queue, past }.setJob who none)
      | .overflow => none
    | none => none
  | none => none

def act? (settings : SyncSettings) (s : Scene) : Move → Option Scene
  | .putService svc => some (s.putService svc)
  | .removeService key => s.removeService key
  | .putNode node => some (s.putNode node)
  | .dropNode name => s.dropNode name
  | .putEndpoints δ => some { s with news := s.news ++ [.endpoints δ] }
  | .tell index => s.news[index]?.map (fun item => { s with news := s.news.eraseIdx index }.decide item)
  | .react index => s.todo[index]?.map (fun reaction => { s with todo := s.todo.eraseIdx index }.react reaction)
  | .resync => some s.resync
  | .failCloud message => some { s with world.cloud := s.world.cloud.inject message }
  | .failStatus e => some { s with world.cluster := s.world.cluster.failStatus e }
  | .failCluster call e => some { s with world.faults := s.world.faults.add call e }
  | .fire key deadline => some { s with queue := s.queue.fire key deadline }
  | .get who => s.get settings who
  | .exchange who time => s.exchange who time
  | .finish who now clock errorDelay backoff => s.finish who now clock errorDelay backoff

end Scene
end ServiceBalancer.Simulation
