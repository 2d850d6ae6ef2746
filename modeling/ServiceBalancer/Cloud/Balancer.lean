import ServiceBalancer.Cloud.Tags
import ServiceBalancer.Object.Service

/-! Balancers, and what a service asks of its own. -/
namespace ServiceBalancer

structure Listener where
  port : Int
  protocol : String
  nodePort : Int
  deriving DecidableEq, Repr

structure Balancer where
  id : String
  name : String
  address : String
  listeners : List Listener := []
  /-- The names of the nodes that take its traffic. -/
  backends : List String := []
  tags : StringMap := ∅
  /-- Whether it was there before the controller, which only borrows it. -/
  userManaged : Bool
  deriving DecidableEq

def Balancer.status (b : Balancer) : BalancerStatus := ⟨some [{ ip := some b.address }]⟩

structure BalancerDescriptor where
  id : String
  name : String
  address : String
  userManaged : Bool
  deriving DecidableEq, Repr

def Balancer.descriptor (b : Balancer) : BalancerDescriptor := ⟨b.id, b.name, b.address, b.userManaged⟩

def Service.listeners (svc : Service) : List Listener :=
  ((svc.spec.bind (·.ports)).getD []).map (fun p => ⟨p.port, p.protocol.getD "TCP", p.nodePort.getD 0⟩)

def Service.tags (svc : Service) : StringMap := Tags.ofAnnotations svc.info.annotationMap

end ServiceBalancer
