import ServiceBalancer.Object.Meta

/-! Services: what they ask for, and the balancer status that is published on them. -/
namespace ServiceBalancer

inductive TargetPort where
  | number (n : Int)
  | name (s : String)
  deriving DecidableEq

structure ServicePort where
  appProtocol : Option String := none
  name : Option String := none
  nodePort : Option Int := none
  port : Int := 0
  protocol : Option String := none
  targetPort : Option TargetPort := none
  deriving DecidableEq

structure ClientAffinity where
  timeoutSeconds : Option Int := none
  deriving DecidableEq

structure SessionAffinityConfig where
  clientIP : Option ClientAffinity := none
  deriving DecidableEq

structure ServiceSpec where
  allocateLoadBalancerNodePorts : Option Bool := none
  clusterIP : Option String := none
  clusterIPs : Option (List String) := none
  externalIPs : Option (List String) := none
  externalName : Option String := none
  externalTrafficPolicy : Option String := none
  healthCheckNodePort : Option Int := none
  internalTrafficPolicy : Option String := none
  ipFamilies : Option (List String) := none
  ipFamilyPolicy : Option String := none
  loadBalancerClass : Option String := none
  loadBalancerIP : Option String := none
  loadBalancerSourceRanges : Option (List String) := none
  ports : Option (List ServicePort) := none
  publishNotReadyAddresses : Option Bool := none
  selector : Option StringMap := none
  sessionAffinity : Option String := none
  sessionAffinityConfig : Option SessionAffinityConfig := none
  trafficDistribution : Option String := none
  type : Option String := none
  deriving DecidableEq, Inhabited

structure PortStatus where
  error : Option String := none
  port : Int := 0
  protocol : String := ""
  deriving DecidableEq

structure Ingress where
  hostname : Option String := none
  ip : Option String := none
  ipMode : Option String := none
  ports : Option (List PortStatus) := none
  deriving DecidableEq

structure BalancerStatus where
  ingress : Option (List Ingress) := none
  deriving DecidableEq, Inhabited

structure ServiceCondition where
  lastTransitionTime : Timestamp := ⟨0⟩
  message : String := ""
  observedGeneration : Option Int := none
  reason : String := ""
  status : String := ""
  type : String := ""
  deriving DecidableEq

structure ServiceStatus where
  conditions : Option (List ServiceCondition) := none
  loadBalancer : Option BalancerStatus := none
  deriving DecidableEq, Inhabited

structure Service where
  info : Meta := {}
  spec : Option ServiceSpec := none
  status : Option ServiceStatus := none
  deriving DecidableEq, Inhabited

namespace BalancerStatus

def addresses (s : BalancerStatus) : List Ingress := s.ingress.getD []

def agrees (a b : BalancerStatus) : Bool := a.addresses = b.addresses

end BalancerStatus

def Service.balancerStatus (svc : Service) : BalancerStatus :=
  (svc.status.bind (·.loadBalancer)).getD {}

theorem Service.addresses_balancerStatus (svc : Service) :
    svc.balancerStatus.addresses = ((svc.status.bind (·.loadBalancer)).bind (·.ingress)).getD [] := by
  rw [balancerStatus]
  cases svc.status.bind (·.loadBalancer) <;> rfl

def Service.setBalancerStatus (svc : Service) (status : BalancerStatus) : Service :=
  { svc with status := some { svc.status.getD {} with loadBalancer := some status } }

def Service.type? (svc : Service) : Option String := svc.spec.bind (·.type)

end ServiceBalancer
