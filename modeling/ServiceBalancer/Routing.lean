import ServiceBalancer.Cache
import ServiceBalancer.Change
import ServiceBalancer.Cluster.Delta
import ServiceBalancer.Eligibility
import ServiceBalancer.Event

/-! Which services a change of an object concerns. A sync reads the present state anew, so it is
enough that no change that matters is passed over. -/
namespace ServiceBalancer

inductive Reaction where
  /-- The service is to be synced. -/
  | enqueue (key : ServiceKey)
  | record (e : Event)
  /-- A deleted service is kept for the sync that cleans up after it. -/
  | keepDeleted (svc : Service)
  | markStale (key : ServiceKey)
  deriving DecidableEq

namespace Routing

def enqueue (svc : Service) : List Reaction :=
  if svc.isUnclaimed then [.enqueue (.ofService svc)] else []

def retyped (svc : Service) (old new : String) : Event :=
  ⟨.ofService svc, .normal, Event.retyped, old ++ " -> " ++ new⟩

def onService : Delta Service → List Reaction
  | .added svc => if svc.isCandidate then enqueue svc else []
  | .updated old new =>
    match ServiceChange.between old new with
    | .irrelevant => []
    | .relevant => enqueue new
    | .retyped a b => (if new.isUnclaimed then [Reaction.record (retyped new a b)] else []) ++ enqueue new
  | .deleted svc =>
    if svc.isCandidate && svc.isUnclaimed then [.keepDeleted svc, .enqueue (.ofService svc)] else []

/-- Whether a change of a node can matter to a balancer. -/
def nodeMatters : Delta Node → Bool
  | .added n | .deleted n => !n.isExcluded
  | .updated old new => !(old.isExcluded && new.isExcluded) && old.differs new

def isServed (svc : Service) : Bool := svc.needsBalancer && svc.isUnclaimed

def servedKeys (cache : Cache) : List ServiceKey :=
  ((Cache.services cache).filter (fun e => isServed e.2)).map (·.1)

def onNode (cache : Cache) (delta : Delta Node) : List Reaction :=
  if nodeMatters delta then (servedKeys cache).map .enqueue else []

def endpointsKey? : Delta Endpoints → Option ServiceKey
  | .added e | .deleted e => some (.ofMeta e.info)
  | .updated old new => if old.differs new then some (.ofMeta new.info) else none

def onEndpoints (key : ServiceKey) (svc : Service) : List Reaction :=
  if isServed svc then [.markStale key, .enqueue key] else []

end Routing
end ServiceBalancer
