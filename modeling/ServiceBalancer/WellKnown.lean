/-! The annotation and label keys that the controller reads or writes. -/
namespace ServiceBalancer.WellKnown

/-- Annotation: a value that is not empty hands the service to another controller. -/
def serviceClass : String := "service.beta.kubernetes.io/class"

/-- Annotation: the value "on" keeps nodes that take no new work out of the backends. -/
def removeUnscheduledBackend : String :=
  "service.beta.kubernetes.io/alibaba-cloud-loadbalancer-remove-unscheduled-backend"

/-- Annotation: the id of an existing balancer to use instead of a new one. -/
def loadBalancerId : String := "service.beta.kubernetes.io/alibaba-cloud-loadbalancer-id"

/-- Annotation: more tags for a balancer that the controller creates. -/
def additionalResourceTags : String :=
  "service.beta.kubernetes.io/alibaba-cloud-loadbalancer-additional-resource-tags"

/-- Label: the content hash of the service as it was last ensured. -/
def serviceHash : String := "service.beta.kubernetes.io/hash"

def nodeRoleMaster : String := "node-role.kubernetes.io/master"
def nodeRoleControlPlane : String := "node-role.kubernetes.io/control-plane"

def nodeType : String := "type"
def virtualNodeType : String := "virtual-kubelet"

def excludeFromBalancers : String := "node.kubernetes.io/exclude-from-external-load-balancers"
def excludeFromBalancersLegacy : String := "alpha.service-controller.kubernetes.io/exclude-balancer"

def typeLoadBalancer : String := "LoadBalancer"

def queueName : String := "service"

end ServiceBalancer.WellKnown
