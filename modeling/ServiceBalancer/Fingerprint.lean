import ServiceBalancer.Digest
import ServiceBalancer.Object.Node
import ServiceBalancer.Object.ServiceJson

/-! Hashes that tell whether what a balancer is made from has changed. -/
namespace ServiceBalancer

def sortStrings (l : List String) : List String := l.mergeSort (fun a b => (compare a b).isLE)

namespace Service

/-- The content of a service that its balancer depends on. -/
def content (svc : Service) : Json := .obj [
  ("annotations", .ofStringMap svc.info.annotationMap),
  ("spec", (svc.spec.map ServiceSpec.toJson).getD .null)]

/-- The hash of the content of a service under a digest of texts. -/
def hash (digest : String → String) (svc : Service) : String := digest svc.content.text

/-- What is hashed for a service and its backends: the hash of the service and the sorted names. -/
def pushContent (digest : String → String) (svc : Service) (nodes : List Node) : Json := .obj [
  ("nodes", .arr ((sortStrings (nodes.map Node.name)).map .str)),
  ("service", .str (svc.hash digest))]

/-- The hash of all that is pushed to the cloud for a service: its content and its backends, whose
order does not count. -/
def fingerprint (digest : String → String) (svc : Service) (nodes : List Node) : String :=
  digest (svc.pushContent digest nodes).text

end Service
end ServiceBalancer
