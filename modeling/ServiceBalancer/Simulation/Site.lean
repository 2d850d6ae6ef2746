import ServiceBalancer.Controller
import ServiceBalancer.Queue.Timed
import ServiceBalancer.Simulation.Timeline
import ServiceBalancer.Simulation.World
import ServiceBalancer.Worker

/-! The controller at work in a world in memory: changes come in, workers sync keys from the queue,
and a run looks after them. -/
namespace ServiceBalancer.Simulation

inductive Actor where
  | worker (index : Nat)
  | run
  deriving DecidableEq, Repr

inductive Activity where
  /-- It asks for a key or waits for one. -/
  | asking
  | syncing (key : ServiceKey) (rest : Program Sync.Answer (Except Error Unit))
  | gone

structure WorkerState where
  backoff : Backoff
  activity : Activity := .asking

def WorkerState.isGone (w : WorkerState) : Bool :=
  match w.activity with
  | .gone => true
  | _ => false

structure RunState where
  phase : Controller.Phase := .awaitingSync
  /-- When the backoffs are relaxed next. -/
  decayAt : Nat := 0
  /-- When all services are synced anew next. -/
  resyncAt : Option Nat := none
  /-- Whether an interval was past what the clock can show. -/
  broken : Bool := false

structure Site where
  settings : Settings
  world : World
  timed : TimedQueue ServiceKey Actor := {}
  workers : List WorkerState := []
  run : Option RunState := none
  /-- Whether the run was told to stop. -/
  stopped : Bool := false

namespace Site

def now (s : Site) : Nat := s.timed.now

def syncSettings (s : Site) : SyncSettings :=
  { deleteRetry := s.settings.deleteRetry, statusRetry := s.settings.statusRetry }

/-- The clock by which quiet periods are measured. It stands still. -/
def quietClock : Duration := .zero

/-! ### Changes -/

def react (s : Site) : Reaction → Site
  | .enqueue key => { s with timed := s.timed.add key }
  | .record e => { s with world := s.world.record s.now e }
  | .keepDeleted svc =>
    { s with world := { s.world with cache := s.world.cache.insert (.ofService svc) (.ofDeleted svc) } }
  | .markStale key => { s with world := { s.world with cache := Cache.markStale s.world.cache key } }

def onService (s : Site) (delta : Delta Service) : Site := (Routing.onService delta).foldl react s

def onNode (s : Site) (delta : Delta Node) : Site := (Routing.onNode s.world.cache delta).foldl react s

/-- Reacts to changed endpoints. A service that is not remembered is read from the cluster; if that
fails, nothing is done. -/
def onEndpoints (s : Site) (delta : Delta Endpoints) : Site :=
  match Routing.endpointsKey? delta with
  | none => s
  | some key =>
    match s.world.cache.get? key with
    | some entry => (Routing.onEndpoints key entry.service).foldl react s
    | none =>
      let (result, world) := s.world.fetch s.now key
      let s := { s with world }
      match result with
      | .ok (some svc) => (Routing.onEndpoints key svc).foldl react s
      | _ => s

def applyService (s : Site) (svc : Service) : Site :=
  let old := s.world.cluster.service? (svc.info.ns.getD "") svc.info.displayName
  let (svc, cluster) := s.world.cluster.upsertService svc
  { s with world := { s.world with cluster } }.onService (match old with
    | some old => .updated old svc
    | none => .added svc)

/-- Removes a service from the cluster and reacts to the change. -/
def removeService (s : Site) (ns name : String) : Site :=
  match s.world.cluster.service? ns name with
  | none => s
  | some svc =>
    { s with world := { s.world with cluster := s.world.cluster.deleteService ns name } }.onService (.deleted svc)

def applyNode (s : Site) (node : Node) : Site :=
  let old := s.world.cluster.nodes.get? node.name
  { s with world := { s.world with cluster := s.world.cluster.upsertNode node } }.onNode (match old with
    | some old => .updated old node
    | none => .added node)

def removeNode (s : Site) (name : String) : Site :=
  match s.world.cluster.nodes.get? name with
  | none => s
  | some node =>
    { s with world := { s.world with cluster := s.world.cluster.deleteNode name } }.onNode (.deleted node)

def resync (s : Site) : Site :=
  let (keys, cache) := Controller.resync s.world.cache
  keys.foldl (fun s key => s.react (.enqueue key)) { s with world := { s.world with cache } }

/-! ### Workers -/

def wakeRun (s : Site) : Site :=
  match s.run with
  | some _ => { s with timed := s.timed.wake .run }
  | none => s

/-- Sets what a worker is at. The run is told of a worker that has gone. -/
def setWorker (s : Site) (index : Nat) (w : WorkerState) : Site :=
  let s := { s with workers := s.workers.set index w }
  match w.activity with
  | .gone => s.wakeRun
  | _ => s

/-- Ends the sync of a key, and says whether the worker goes on. -/
def finishSync (s : Site) (index : Nat) (w : WorkerState) (key : ServiceKey) (outcome : SyncOutcome) : Bool × Site :=
  let (requeue, backoff) := Worker.requeue? s.settings.errorRequeue quietClock w.backoff outcome
  let metrics := match requeue with
    | some r => s.world.metrics.countRequeue r.reason
    | none => s.world.metrics
  match s.timed.delayed? key (Worker.handBack s.timed.queue s.timed.agenda.clock key requeue) with
  | some timed =>
    let world := { s.world with metrics := metrics.setDepth timed.queue.size }
    (true, { s with timed, world }.setWorker index { backoff, activity := .asking })
  | none => (false, { s with world := { s.world with metrics } }.setWorker index { backoff, activity := .gone })

def stage (s : Site) (index : Nat) : Bool × Site :=
  match s.workers[index]? with
  | none => (false, s)
  | some w =>
    match w.activity with
    | .gone => (false, s)
    | .asking =>
      let (handout, timed) := s.timed.poll (.worker index)
      let s := { s with timed }
      match handout with
      | .blocked => (false, s)
      | .closed => (false, s.setWorker index { w with activity := .gone })
      | .item key =>
        (true, s.setWorker index { w with activity := .syncing key (Sync.program s.syncSettings key) })
    | .syncing key rest =>
      let (progress, world) := rest.advance (World.reply s.now) s.world
      let s := { s with world }
      match progress with
      | .paused pause rest =>
        let timed := s.timed.sleepUntil (s.timed.agenda.after pause) (.worker index)
        (false, { s with timed }.setWorker index { w with activity := .syncing key rest })
      | .finished result => s.finishSync index w key (some result)
      | .broken => s.finishSync index w key none
      | .stuck => (false, s)

def work (index : Nat) : Nat → Site → Site
  | 0, s => s
  | fuel + 1, s =>
    match s.stage index with
    | (true, s) => work index fuel s
    | (false, s) => s

def hire (s : Site) : Site :=
  let index := s.workers.length
  { s with
    workers := s.workers ++ [{ backoff := { settings := s.settings.backoff } }]
    timed := s.timed.wake (.worker index) }

/-! ### The run -/

/-- Starts a timer for the run after an interval, unless that is past what the clock can show. -/
def startInterval? (s : Site) (interval : Duration) : Option (Nat × Site) :=
  let moment : Duration := ⟨s.timed.agenda.clock.nanos + interval.nanos⟩
  if clockLimit ≤ moment then none
  else some (Agenda.dueAt moment, { s with timed := s.timed.sleepUntil moment .run })

def decayInterval (s : Site) : Duration := .ofSeconds s.settings.backoff.decayCheckSecs

def startWorkers (s : Site) (run : RunState) : Site :=
  let s := (List.range s.settings.workers).foldl (fun s _ => s.hire) s
  let crash : Site := { s with
    workers := s.workers.map (fun w => { w with activity := .gone })
    run := some { run with phase := .ended, broken := true } }
  match s.startInterval? s.decayInterval with
  | none => crash
  | some (decayAt, s) =>
    match s.settings.resyncPeriod? with
    | none => { s with run := some { run with decayAt } }
    | some period =>
      match s.startInterval? period with
      | none => crash
      | some (resyncAt, s) => { s with run := some { run with decayAt, resyncAt := some resyncAt } }

def relaxBackoffs (s : Site) : Site :=
  { s with
    workers := s.workers.map (fun w => { w with backoff := (w.backoff.relax quietClock).2 })
    world := { s.world with metrics := s.world.metrics.setDepth s.timed.queue.size } }

def sight (s : Site) (run : RunState) : Controller.Sight where
  synced := s.world.cluster.synced
  stopped := s.stopped
  decayDue := run.decayAt ≤ s.now
  resyncDue := run.resyncAt.any (· ≤ s.now)
  workersDone := s.workers.all WorkerState.isGone

def nextAt (s : Site) (interval : Duration) : Nat := Agenda.dueAt (s.timed.agenda.after interval)

def move (s : Site) (run : RunState) : Controller.Move → Site
  | .startWorkers => s.startWorkers run
  | .shutDown => { s with run := some run, timed := s.timed.shutDown }
  | .relaxBackoffs =>
    let decayAt := s.nextAt s.decayInterval
    let timed := { s.timed with agenda := s.timed.agenda.startTimer decayAt (.someone .run) }
    { s with run := some { run with decayAt }, timed }.relaxBackoffs
  | .resync =>
    let resyncAt := s.nextAt (.ofSeconds s.settings.resyncSecs)
    let timed := { s.timed with agenda := s.timed.agenda.startTimer resyncAt (.someone .run) }
    { s with run := some { run with resyncAt := some resyncAt }, timed }.resync
  | .finish => { s with run := some run }

def attend : Nat → Site → Site
  | 0, s => s
  | fuel + 1, s =>
    match s.run with
    | none => s
    | some run =>
      match run.phase.move? (s.sight run) with
      | none => s
      | some (next, phase) => attend fuel (s.move { run with phase } next)

def serve (s : Site) : Actor → Site
  | .worker index => s.work index Timeline.patience
  | .run => s.attend Timeline.patience

def step? (s : Site) : Option Site :=
  s.timed.step?.map (fun (actor, timed) =>
    let s := { s with timed }
    match actor with
    | some actor => s.serve actor
    | none => s)

def line : Timeline Site (Errand ServiceKey Actor) where
  step? := step?
  agenda s := s.timed.agenda
  setAgenda s agenda := { s with timed := { s.timed with agenda } }

def settle (s : Site) : Site := line.settle s

def pass (s : Site) (millis : Nat) : Site := line.passTo (s.now + millis) s

def perform {α : Type} : Program Sync.Answer α → Site → Option α × Site
  | .done a, s => (some a, s)
  | .ask q next, s =>
    let (answer, world) := World.reply s.now q s.world
    let s := { s with world }
    match answer with
    | .now a => perform (next a) s
    | .after pause a => perform (next a) (line.passTo (Agenda.dueAt (s.timed.agenda.after pause)) s)
    | .never | .broken => (none, s)

def sync (s : Site) (key : ServiceKey) : SyncOutcome × Site := perform (Sync.program s.syncSettings key) s

/-! ### From outside -/

def start (s : Site) : Site := { s with run := some {} }.wakeRun

def stop (s : Site) : Site := { s with stopped := true }.wakeRun

def inCluster (s : Site) (f : MemoryCluster → MemoryCluster) : Site :=
  { s with world := { s.world with cluster := f s.world.cluster } }

def inCache (s : Site) (f : Cache → Cache) : Site :=
  { s with world := { s.world with cache := f s.world.cache } }

def markSynced (s : Site) : Site := (s.inCluster (fun c => { c with synced := true })).wakeRun

def failCloud (s : Site) (message : String) : Site :=
  { s with world := { s.world with cloud := s.world.cloud.inject message } }

def failCluster (s : Site) (call : ClusterCall) (e : Error) : Site :=
  { s with world := { s.world with faults := s.world.faults.add call e } }

def seed (s : Site) (name : String) : String × Site :=
  let (id, cloud) := s.world.cloud.seed name
  (id, { s with world := { s.world with cloud } })

def turnPage (s : Site) : Site := { s with world := { s.world with journal := [] } }

def shutDownQueue (s : Site) : Site := { s with timed := s.timed.shutDown }

def finished (s : Site) : Bool := s.run.any (fun run => run.phase = .ended)

end Site
end ServiceBalancer.Simulation
