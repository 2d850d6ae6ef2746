import ServiceBalancer.Cloud.Memory
import ServiceBalancer.Cluster.Memory
import ServiceBalancer.Metrics
import ServiceBalancer.Simulation.Journal
import ServiceBalancer.Sync

/-! The surroundings of a sync, held in memory: cluster, cloud, cache, metrics, the failures that
are to come, and a journal. -/
namespace ServiceBalancer.Simulation

structure Faults where
  service : List Error := []
  nodes : List Error := []
  fetch : List Error := []
  setHash : List Error := []
  removeHash : List Error := []

inductive ClusterCall where
  | service
  | nodes
  | fetch
  | setHash
  | removeHash
  deriving DecidableEq, Repr

def Faults.add (f : Faults) (call : ClusterCall) (e : Error) : Faults :=
  match call with
  | .service => { f with service := f.service ++ [e] }
  | .nodes => { f with nodes := f.nodes ++ [e] }
  | .fetch => { f with fetch := f.fetch ++ [e] }
  | .setHash => { f with setHash := f.setHash ++ [e] }
  | .removeHash => { f with removeHash := f.removeHash ++ [e] }

structure World where
  cluster : MemoryCluster := {}
  cloud : MemoryCloud := {}
  cache : Cache := ∅
  metrics : Metrics := {}
  faults : Faults := {}
  /-- Oldest first. -/
  journal : List JournalEntry := []

namespace World

instance : Inhabited World := ⟨{}⟩

def note (w : World) (time : Nat) (svc : Service) (deed : Deed) : World :=
  { w with journal := w.journal ++ [⟨time, (ServiceKey.ofService svc).text, deed⟩] }

def record (w : World) (time : Nat) (e : Event) : World :=
  { w with journal := w.journal ++ [⟨time, e.object.text, .event e.type e.reason e.message⟩] }

def takeFault (faults : List Error) : Option (Error × List Error) :=
  match faults with
  | [] => none
  | e :: rest => some (e, rest)

def service (w : World) (key : ServiceKey) : Except Error (Option Service) × World :=
  match takeFault w.faults.service with
  | some (e, rest) => (.error e, { w with faults := { w.faults with service := rest } })
  | none => (.ok (w.cluster.service? key.ns key.name), w)

def fetch (w : World) (time : Nat) (key : ServiceKey) : Except Error (Option Service) × World :=
  let (result, w) : Except Error (Option Service) × World :=
    match takeFault w.faults.fetch with
    | some (e, rest) => (.error e, { w with faults := { w.faults with fetch := rest } })
    | none => (.ok (w.cluster.service? key.ns key.name), w)
  (result, { w with journal := w.journal ++ [⟨time, key.text, .fetch (result.map Option.isSome)⟩] })

def nodes (w : World) : Except Error (List Node) × World :=
  match takeFault w.faults.nodes with
  | some (e, rest) => (.error e, { w with faults := { w.faults with nodes := rest } })
  | none => (.ok w.cluster.nodes.values, w)

/-- Calls the cloud and notes the outcome. A call that breaks down is not noted. -/
def callCloud {α : Type} (w : World) (time : Nat) (svc : Service)
    (call : MemoryCloud → MemoryCloud.Outcome α × MemoryCloud) (deed : Except CloudError α → Deed) :
    Program.Reply (Except CloudError α) × World :=
  let (outcome, cloud) := call w.cloud
  let w := { w with cloud }
  match outcome with
  | some result => (.now result, w.note time svc (deed result))
  | none => (.broken, w)

def writeStatus (w : World) (time : Nat) (svc : Service) (status : BalancerStatus) :
    Except StatusWriteError Unit × World :=
  let (result, cluster) := w.cluster.updateStatus svc status
  (result, { w with cluster }.note time svc (.writeStatus status result))

def setHash (w : World) (time : Nat) (svc : Service) (hash : String) : Except Error Unit × World :=
  match takeFault w.faults.setHash with
  | some (e, rest) =>
    (.error e, { w with faults := { w.faults with setHash := rest } }.note time svc (.setHash hash (.error e)))
  | none => (.ok (), { w with cluster := w.cluster.setHash svc hash }.note time svc (.setHash hash (.ok ())))

def removeHash (w : World) (time : Nat) (svc : Service) : Except Error Unit × World :=
  match takeFault w.faults.removeHash with
  | some (e, rest) =>
    (.error e, { w with faults := { w.faults with removeHash := rest } }.note time svc (.removeHash (.error e)))
  | none => (.ok (), { w with cluster := w.cluster.removeHash svc }.note time svc (.removeHash (.ok ())))

def atOnce {α : Type} (answer : α × World) : Program.Reply α × World := (.now answer.1, answer.2)

/-- Answers a request of a sync. Only sleeping takes time, and chance always draws zero. -/
def reply (time : Nat) : (q : Sync.Request) → World → Program.Reply (Sync.Answer q) × World
  | .recall key, w => (.now (w.cache.get? key), w)
  | .remember key entry, w => (.now (), { w with cache := w.cache.insert key entry })
  | .forget key, w => (.now (), { w with cache := w.cache.erase key })
  | .service key, w => atOnce (w.service key)
  | .nodes, w => atOnce w.nodes
  | .lookup svc, w => w.callCloud time svc (·.lookup svc) (.lookup (svc.info.uid.getD ""))
  | .ensure svc nodes, w => w.callCloud time svc (·.ensure svc nodes)
      (.ensure (svc.info.uid.getD "") (nodes.map Node.name))
  | .delete svc, w => w.callCloud time svc (·.delete svc) (.delete (svc.info.uid.getD ""))
  | .writeStatus svc status, w => atOnce (w.writeStatus time svc status)
  | .setHash svc hash, w => atOnce (w.setHash time svc hash)
  | .removeHash svc, w => atOnce (w.removeHash time svc)
  | .record e, w => (.now (), w.record time e)
  | .observe operation, w => (.now (), { w with metrics := w.metrics.observe operation .zero })
  | .countError label, w => (.now (), { w with metrics := w.metrics.countError label })
  | .sleep pause, w => if pause = .zero then (.now (), w) else (.after pause (), w)
  | .draw, w => (.now 0.0, w)

end World
end ServiceBalancer.Simulation
