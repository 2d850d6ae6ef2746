import ServiceBalancer.Api.Request
import ServiceBalancer.Event

/-! Publishing events through the API server. -/
namespace ServiceBalancer.Event

def fallbackNamespace : String := "kube-system"

def post (e : Event) (time host : String) : Api.Request where
  verb := .create
  collection := Api.collection "/apis/events.k8s.io/v1" "events" (some (e.object.ns.getD fallbackNamespace))
  body := some (e.toJson time host)

end ServiceBalancer.Event
