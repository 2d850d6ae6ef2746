import ServiceBalancer.Cache
import ServiceBalancer.Change
import ServiceBalancer.Cloud.Balancer
import ServiceBalancer.Cluster.StatusWrite
import ServiceBalancer.Eligibility
import ServiceBalancer.Event
import ServiceBalancer.Fingerprint
import ServiceBalancer.Retry

/-! One sync of a service. It reads what the service asks for now, brings the balancer to it, and
publishes the outcome. What is remembered of the service changes only by a delete that succeeded,
by a teardown, or at the very end of a sync that succeeded. -/
namespace ServiceBalancer

structure SyncSettings where
  deleteRetry : RetryPolicy := .deletion
  statusRetry : RetryPolicy := .status
  /-- The digest behind hashes and fingerprints. -/
  digest : String → String := Digest.short

inductive Sync.Request where
  | recall (key : ServiceKey)
  | remember (key : ServiceKey) (entry : CacheEntry)
  | forget (key : ServiceKey)
  | service (key : ServiceKey)
  | nodes
  | lookup (svc : Service)
  | ensure (svc : Service) (nodes : List Node)
  | delete (svc : Service)
  | writeStatus (svc : Service) (status : BalancerStatus)
  | setHash (svc : Service) (hash : String)
  | removeHash (svc : Service)
  | record (e : Event)
  | observe (operation : String)
  | countError (label : String)
  | sleep (pause : Duration)
  | draw

abbrev Sync.Answer : Sync.Request → Type
  | .recall _ => Option CacheEntry
  | .service _ => Except Error (Option Service)
  | .nodes => Except Error (List Node)
  | .lookup _ => Except CloudError (Option BalancerDescriptor)
  | .ensure _ _ => Except CloudError BalancerStatus
  | .delete _ => Except CloudError Unit
  | .writeStatus _ _ => Except StatusWriteError Unit
  | .setHash _ _ | .removeHash _ => Except Error Unit
  | .draw => Float
  | _ => Unit

abbrev Sync (α : Type) := ExceptT Error (Program Sync.Answer) α

namespace Sync

def ask (q : Request) : Sync (Answer q) := ExceptT.lift (.request q)

def record (svc : Service) (type : EventType) (reason message : String) : Sync Unit :=
  ask (.record ⟨.ofService svc, type, reason, message⟩)

def pausing : Retry.Pausing Answer := ⟨fun d => .request (Request.sleep d), .request Request.draw⟩

def retrying (policy : RetryPolicy) (part : Sync Unit) : Sync Unit :=
  ExceptT.mk (Retry.retry pausing policy part.run)

def deleteOnce (svc : Service) : Sync Unit := do
  let key := ServiceKey.ofService svc
  match ← ask (.delete svc) with
  | .error e =>
    record svc .warning Event.deleteFailed ("Error deleting load balancer: " ++ e.eventMessage)
    throw (.tryAgain ("delete load balancer of " ++ key.text ++ ": " ++ e.text))
  | .ok () =>
    ask (.observe "delete")
    record svc .normal Event.deleted ("LoadBalancer Deleted SUCCESS. " ++ key.text)
    ask (.forget key)

def delete (settings : SyncSettings) (svc : Service) : Sync Unit :=
  retrying settings.deleteRetry (deleteOnce svc)

/-- Writes a status once. It does not matter if the service is gone. -/
def publishOnce (key : ServiceKey) (svc : Service) (status : BalancerStatus) : Sync Unit := do
  match ← ask (.writeStatus svc status) with
  | .ok () | .error .notFound => return ()
  | .error .conflict => throw (.statusConflict key.text)
  | .error (.failed e) => throw (.tryAgain ("update status of " ++ key.text ++ ": " ++ e.text))

def publish (settings : SyncSettings) (key : ServiceKey) (svc : Service) (status : BalancerStatus) :
    Sync Unit :=
  if svc.balancerStatus.agrees status then return ()
  else retrying settings.statusRetry (publishOnce key svc status)

def push (key : ServiceKey) (svc : Service) (nodes : List Node) : Sync BalancerStatus := do
  if nodes.isEmpty then
    record svc .warning Event.unavailable "There are no available nodes for LoadBalancer"
  let result ← ask (.ensure svc nodes)
  ask (.observe "ensure")
  match result with
  | .error e =>
    record svc .warning Event.syncFailed ("Error syncing load balancer: " ++ e.eventMessage)
    throw (.ensureFailed key.text e)
  | .ok status =>
    record svc .normal Event.ensured "Ensured load balancer"
    return status

def stampHash (settings : SyncSettings) (svc : Service) : Sync Unit :=
  let hash := svc.hash settings.digest
  if svc.info.labelMap.get? WellKnown.serviceHash = some hash then return ()
  else ExceptT.mk (.request (Request.setHash svc hash))

structure Ensured where
  status : BalancerStatus
  fingerprint : String

/-- Makes sure that a service has its balancer. The cloud is left alone if the remembered
fingerprint tells that nothing has changed. -/
def ensure (settings : SyncSettings) (key : ServiceKey) (svc : Service) (cached : Option CacheEntry) :
    Sync Ensured := do
  let nodes := svc.availableNodes (← ExceptT.mk (.request Request.nodes))
  let fingerprint := svc.fingerprint settings.digest nodes
  match cached.filter (fun entry => entry.fingerprint = some fingerprint) with
  | some entry => return ⟨entry.status, fingerprint⟩
  | none =>
    let status ← push key svc nodes
    stampHash settings svc
    return ⟨status, fingerprint⟩

def converge (settings : SyncSettings) (key : ServiceKey) (svc : Service) (uid : String)
    (cached : Option CacheEntry) : Sync Unit := do
  let ensured ← ensure settings key svc cached
  publish settings key svc ensured.status
  ask (.remember key ⟨svc, some uid, ensured.status, some ensured.fingerprint⟩)

def deleteExisting (settings : SyncSettings) (svc : Service) : Sync Unit := do
  match ← ask (.lookup svc) with
  | .error e => throw (.cloud e)
  | .ok none => return ()
  | .ok (some _) => delete settings svc

def clearHash (svc : Service) : Sync Unit :=
  if svc.info.labelMap.contains WellKnown.serviceHash then ExceptT.mk (.request (Request.removeHash svc))
  else return ()

def tearDown (settings : SyncSettings) (key : ServiceKey) (svc : Service) : Sync Unit := do
  deleteExisting settings svc
  ask (.forget key)
  clearHash svc
  publish settings key svc {}

/-- What is remembered under the UID of a service. An entry of another UID is dropped after the
balancer is deleted. -/
def sameIdentity (settings : SyncSettings) (svc : Service) (uid : String) :
    Option CacheEntry → Sync (Option CacheEntry)
  | none => return none
  | some entry =>
    if entry.uid = some uid then return some entry
    else do
      delete settings svc
      return none

def update (settings : SyncSettings) (key : ServiceKey) (cached : Option CacheEntry) (svc : Service) :
    Sync Unit := do
  match svc.info.uid with
  | none => throw (.invariant ("service " ++ key.text ++ " has no uid"))
  | some uid =>
    let cached ← sameIdentity settings svc uid cached
    if svc.needsBalancer then converge settings key svc uid cached else tearDown settings key svc

/-- Handles whatever is known of a key: a service that exists, one that was deleted, or none. -/
def reconcile (settings : SyncSettings) (key : ServiceKey) : Sync Unit := do
  let cached ← ask (.recall key)
  match ← ExceptT.mk (.request (Request.service key)), cached with
  | some svc, cached => update settings key cached svc
  | none, some entry => delete settings entry.service
  | none, none => return ()

def program (settings : SyncSettings) (key : ServiceKey) : Program Answer (Except Error Unit) := do
  let result ← (reconcile settings key).run
  let _ ← Program.request (Request.observe "reconcile")
  match result with
  | .error e =>
    let _ ← Program.request (Request.countError e.label)
    return .error e
  | .ok () => return .ok ()

end Sync
end ServiceBalancer
