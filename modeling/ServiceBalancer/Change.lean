import ServiceBalancer.Object.Endpoints
import ServiceBalancer.Object.Node
import ServiceBalancer.WellKnown

/-! Which services concern the controller, and which changes of an object can matter to a balancer. -/
namespace ServiceBalancer

namespace Service

def isUnclaimed (svc : Service) : Bool :=
  match svc.info.annotationMap.get? WellKnown.serviceClass with
  | some value => value.isEmpty
  | none => true

def hasBalancerType (svc : Service) : Bool := svc.type? = some WellKnown.typeLoadBalancer

/-- Whether the service wants a balancer now: it has the type and is not being deleted. -/
def needsBalancer (svc : Service) : Bool := svc.hasBalancerType && svc.info.deletionTimestamp.isNone

/-- Whether the controller has dealt with the service before: it has the hash label or an address. -/
def wasManaged (svc : Service) : Bool :=
  svc.info.labelMap.contains WellKnown.serviceHash || !svc.balancerStatus.addresses.isEmpty

/-- Whether the service has, or may still have, a balancer. -/
def isCandidate (svc : Service) : Bool := svc.hasBalancerType || svc.wasManaged

end Service

inductive ServiceChange where
  | irrelevant
  | relevant
  | retyped (old new : String)
  deriving DecidableEq, Repr

/-- Compares two versions of a service: its type, its wishes, its annotations, its UID, and whether
it is being deleted. -/
def ServiceChange.between (old new : Service) : ServiceChange :=
  if !old.isCandidate && !new.isCandidate then .irrelevant
  else
    let oldType := old.type?.getD ""
    let newType := new.type?.getD ""
    if oldType ≠ newType then .retyped oldType newType
    else if old.spec ≠ new.spec ∨ old.info.annotationMap ≠ new.info.annotationMap ∨
        old.info.uid ≠ new.info.uid ∨
        old.info.deletionTimestamp.isSome ≠ new.info.deletionTimestamp.isSome then .relevant
    else .irrelevant

namespace Node

def readiness? (n : Node) : Option String :=
  (n.conditions.find? (fun c => c.type = "Ready")).map (·.status)

def differs (old new : Node) : Bool :=
  old.info.labelMap ≠ new.info.labelMap || old.unschedulable ≠ new.unschedulable ||
    old.readiness? ≠ new.readiness?

end Node

def Endpoints.differs (old new : Endpoints) : Bool := old.subsets ≠ new.subsets

end ServiceBalancer
