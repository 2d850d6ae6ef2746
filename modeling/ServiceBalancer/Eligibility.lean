import ServiceBalancer.Object.Node
import ServiceBalancer.Object.Service
import ServiceBalancer.WellKnown

/-! Which nodes may take traffic for a service. -/
namespace ServiceBalancer

namespace Node

def isExcluded (n : Node) : Bool :=
  n.info.labelMap.contains WellKnown.excludeFromBalancers ||
    n.info.labelMap.contains WellKnown.excludeFromBalancersLegacy

def isMaster (n : Node) : Bool :=
  n.info.labelMap.contains WellKnown.nodeRoleMaster ||
    n.info.labelMap.contains WellKnown.nodeRoleControlPlane

def isVirtual (n : Node) : Bool :=
  n.info.labelMap.get? WellKnown.nodeType = some WellKnown.virtualNodeType

def isReady (n : Node) : Bool :=
  !n.conditions.isEmpty && n.conditions.all (fun c => c.type ≠ "Ready" || c.status = "True")

end Node

namespace Service

def dropsUnschedulable (svc : Service) : Bool :=
  svc.info.annotationMap.get? WellKnown.removeUnscheduledBackend = some "on"

def routesClusterWide (svc : Service) : Bool :=
  svc.spec.bind (·.externalTrafficPolicy) = some "Cluster"

def accepts (svc : Service) (n : Node) : Bool :=
  if n.unschedulable && svc.dropsUnschedulable then false
  else if n.isMaster && !svc.routesClusterWide then false
  else n.isVirtual || n.isReady

/-- The backends of the service among some nodes, in their order. -/
def availableNodes (svc : Service) (nodes : List Node) : List Node :=
  nodes.filter (fun n => !n.isExcluded && svc.accepts n)

end Service
end ServiceBalancer
