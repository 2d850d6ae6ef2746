import ServiceBalancer.Object.Service

/-! References to objects, as events carry them. -/
namespace ServiceBalancer

structure ObjectReference where
  apiVersion : Option String := none
  fieldPath : Option String := none
  kind : Option String := none
  name : Option String := none
  ns : Option String := none
  resourceVersion : Option String := none
  uid : Option String := none
  deriving DecidableEq, Inhabited

namespace ObjectReference

def ofService (svc : Service) : ObjectReference where
  apiVersion := some "v1"
  kind := some "Service"
  name := svc.info.name
  ns := svc.info.ns
  resourceVersion := svc.info.resourceVersion
  uid := svc.info.uid

/-- Namespace and name, or the name of an object without a namespace; nothing without a name. -/
def text (r : ObjectReference) : String :=
  match r.ns, r.name with
  | some ns, some name => ns ++ "/" ++ name
  | none, some name => name
  | _, none => ""

def toJson (r : ObjectReference) : Json := .ofMembers [
  ("apiVersion", r.apiVersion.map .str), ("fieldPath", r.fieldPath.map .str),
  ("kind", r.kind.map .str), ("name", r.name.map .str), ("namespace", r.ns.map .str),
  ("resourceVersion", r.resourceVersion.map .str), ("uid", r.uid.map .str)]

def ofJson? (j : Json) : Option ObjectReference := do
  guard j.isObject
  return {
    apiVersion := ← j.optional? "apiVersion" Json.str?
    fieldPath := ← j.optional? "fieldPath" Json.str?
    kind := ← j.optional? "kind" Json.str?
    name := ← j.optional? "name" Json.str?
    ns := ← j.optional? "namespace" Json.str?
    resourceVersion := ← j.optional? "resourceVersion" Json.str?
    uid := ← j.optional? "uid" Json.str? }

end ObjectReference
end ServiceBalancer
