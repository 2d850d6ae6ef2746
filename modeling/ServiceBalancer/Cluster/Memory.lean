import ServiceBalancer.Cluster.StatusWrite
import ServiceBalancer.Object.Node
import ServiceBalancer.Object.Service
import ServiceBalancer.WellKnown

/-! A cluster that keeps its objects in memory and notes every write. -/
namespace ServiceBalancer

/-- A write of the controller, by the key of the service. -/
inductive ClusterWrite where
  | status (key : String) (status : BalancerStatus)
  | setHash (key hash : String)
  | removeHash (key : String)
  deriving DecidableEq

structure MemoryCluster where
  services : SortedMap String Service := ∅
  nodes : SortedMap String Node := ∅
  /-- All writes so far, oldest first. -/
  writes : List ClusterWrite := []
  /-- Failures of the next status writes, oldest first. -/
  statusFailures : List StatusWriteError := []
  /-- How many versions of services have been stored. -/
  version : Nat := 0
  /-- Whether all objects have been listed once. -/
  synced : Bool := true

namespace MemoryCluster

instance : Inhabited MemoryCluster := ⟨{}⟩

def store (c : MemoryCluster) (key : String) (svc : Service) : Service × MemoryCluster :=
  let version := c.version + 1
  let svc := { svc with info := { svc.info with resourceVersion := some (toString version) } }
  (svc, { c with version, services := c.services.insert key svc })

def upsertService (c : MemoryCluster) (svc : Service) : Service × MemoryCluster :=
  c.store svc.info.key svc

def lookupKey (ns name : String) : String := ns ++ "/" ++ name

def service? (c : MemoryCluster) (ns name : String) : Option Service := c.services.get? (lookupKey ns name)

def deleteService (c : MemoryCluster) (ns name : String) : MemoryCluster :=
  { c with services := c.services.erase (lookupKey ns name) }

def upsertNode (c : MemoryCluster) (node : Node) : MemoryCluster :=
  { c with nodes := c.nodes.insert node.name node }

def deleteNode (c : MemoryCluster) (name : String) : MemoryCluster := { c with nodes := c.nodes.erase name }

def failStatus (c : MemoryCluster) (e : StatusWriteError) : MemoryCluster :=
  { c with statusFailures := c.statusFailures ++ [e] }

def updateStatus (c : MemoryCluster) (svc : Service) (status : BalancerStatus) :
    Except StatusWriteError Unit × MemoryCluster :=
  let key := svc.info.key
  let c := { c with writes := c.writes ++ [ClusterWrite.status key status] }
  match c.statusFailures with
  | e :: rest => (.error e, { c with statusFailures := rest })
  | [] =>
    match c.services.get? key with
    | none => (.error .notFound, c)
    | some latest => (.ok (), (c.store key (latest.setBalancerStatus status)).2)

def setHash (c : MemoryCluster) (svc : Service) (hash : String) : MemoryCluster :=
  let key := svc.info.key
  let c := { c with writes := c.writes ++ [ClusterWrite.setHash key hash] }
  match c.services.get? key with
  | none => c
  | some latest =>
    (c.store key { latest with info := latest.info.setLabel WellKnown.serviceHash hash }).2

def removeHash (c : MemoryCluster) (svc : Service) : MemoryCluster :=
  let key := svc.info.key
  let c := { c with writes := c.writes ++ [ClusterWrite.removeHash key] }
  match c.services.get? key with
  | none => c
  | some latest =>
    (c.store key { latest with info := latest.info.removeLabel WellKnown.serviceHash }).2

end MemoryCluster
end ServiceBalancer
