import ServiceBalancer.Object.Reference

/-! Events that owners of services can see. -/
namespace ServiceBalancer

inductive EventType where
  | normal
  | warning
  deriving DecidableEq, Repr

def EventType.text : EventType → String
  | normal => "Normal"
  | warning => "Warning"

structure Event where
  object : ObjectReference
  type : EventType
  reason : String
  message : String
  deriving DecidableEq

namespace Event

def reportingComponent : String := "service-controller"

def unavailable : String := "UnAvailableLoadBalancer"
def ensured : String := "EnsuredLoadBalancer"
def syncFailed : String := "SyncLoadBalancerFailed"
def deleteFailed : String := "DeleteLoadBalancerFailed"
def deleted : String := "DeletedLoadBalancer"
def retyped : String := "Type"

/-- The event as the API server takes it: the time, the reporting host and a generated name. An
object without a namespace has its events in no namespace of their own. -/
def toJson (e : Event) (time host : String) : Json := .ofMembers [
  ("action", some (.str e.reason)),
  ("apiVersion", some (.str "events.k8s.io/v1")),
  ("eventTime", some (.str time)),
  ("kind", some (.str "Event")),
  ("metadata", some (.ofMembers [
    ("generateName", some (.str (reportingComponent ++ "-"))),
    ("namespace", e.object.ns.map .str)])),
  ("note", some (.str e.message)),
  ("reason", some (.str e.reason)),
  ("regarding", some e.object.toJson),
  ("reportingController", some (.str reportingComponent)),
  ("reportingInstance", some (.str host)),
  ("type", some (.str e.type.text))]

end Event
end ServiceBalancer
