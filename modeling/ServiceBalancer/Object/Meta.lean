import ServiceBalancer.Json
import ServiceBalancer.SortedMap
import ServiceBalancer.Timestamp

/-! What every cluster object says about itself: its name and version, its labels and annotations, who owns it and who
has set what of it. -/
namespace ServiceBalancer

/-- A map from strings to strings, such as labels or annotations. -/
abbrev StringMap := SortedMap String String

namespace Json

def ofStringMap (m : StringMap) : Json := .obj (m.entries.map (fun e => (e.1, .str e.2)))

def stringMap? (j : Json) : Option StringMap := do
  let members ← j.members?
  let entries ← members.mapM (fun m => m.2.str?.map (fun s => (m.1, s)))
  return .ofList entries

def timestamp? (j : Json) : Option Timestamp := j.str?.bind Timestamp.ofText?

end Json

structure OwnerReference where
  apiVersion : String := ""
  blockOwnerDeletion : Option Bool := none
  controller : Option Bool := none
  kind : String := ""
  name : String := ""
  uid : String := ""
  deriving DecidableEq, Inhabited

structure ManagedFields where
  apiVersion : Option String := none
  fieldsType : Option String := none
  /-- The members, in a form that nothing here looks into. -/
  fieldsV1 : Option Json := none
  manager : Option String := none
  operation : Option String := none
  subresource : Option String := none
  time : Option Timestamp := none
  deriving DecidableEq, Inhabited

structure Meta where
  annotations : Option StringMap := none
  creationTimestamp : Option Timestamp := none
  deletionGracePeriodSeconds : Option Int := none
  deletionTimestamp : Option Timestamp := none
  finalizers : Option (List String) := none
  generateName : Option String := none
  generation : Option Int := none
  labels : Option StringMap := none
  managedFields : Option (List ManagedFields) := none
  name : Option String := none
  ns : Option String := none
  ownerReferences : Option (List OwnerReference) := none
  resourceVersion : Option String := none
  selfLink : Option String := none
  uid : Option String := none
  deriving DecidableEq, Inhabited

namespace OwnerReference

def toJson (r : OwnerReference) : Json := .ofMembers [
  ("apiVersion", some (.str r.apiVersion)),
  ("blockOwnerDeletion", r.blockOwnerDeletion.map .bool),
  ("controller", r.controller.map .bool),
  ("kind", some (.str r.kind)),
  ("name", some (.str r.name)),
  ("uid", some (.str r.uid))]

def ofJson? (j : Json) : Option OwnerReference := do
  guard j.isObject
  return {
    apiVersion := ← j.orElse? "apiVersion" Json.str? ""
    blockOwnerDeletion := ← j.optional? "blockOwnerDeletion" Json.bool?
    controller := ← j.optional? "controller" Json.bool?
    kind := ← j.orElse? "kind" Json.str? ""
    name := ← j.orElse? "name" Json.str? ""
    uid := ← j.orElse? "uid" Json.str? "" }

end OwnerReference

namespace ManagedFields

def toJson (f : ManagedFields) : Json := .ofMembers [
  ("apiVersion", f.apiVersion.map .str),
  ("fieldsType", f.fieldsType.map .str),
  ("fieldsV1", f.fieldsV1),
  ("manager", f.manager.map .str),
  ("operation", f.operation.map .str),
  ("subresource", f.subresource.map .str),
  ("time", f.time.map (fun t => .str t.text))]

def ofJson? (j : Json) : Option ManagedFields := do
  guard j.isObject
  return {
    apiVersion := ← j.optional? "apiVersion" Json.str?
    fieldsType := ← j.optional? "fieldsType" Json.str?
    fieldsV1 := ← j.optional? "fieldsV1" Json.value?
    manager := ← j.optional? "manager" Json.str?
    operation := ← j.optional? "operation" Json.str?
    subresource := ← j.optional? "subresource" Json.str?
    time := ← j.optional? "time" Json.timestamp? }

end ManagedFields

namespace Meta

def displayName (m : Meta) : String := m.name.getD (m.generateName.getD "")

def labelMap (m : Meta) : StringMap := m.labels.getD ∅

def annotationMap (m : Meta) : StringMap := m.annotations.getD ∅

def key (m : Meta) : String :=
  match m.ns with
  | some ns => if ns.isEmpty then m.displayName else ns ++ "/" ++ m.displayName
  | none => m.displayName

def setLabel (m : Meta) (name value : String) : Meta := { m with labels := some (m.labelMap.insert name value) }

def removeLabel (m : Meta) (name : String) : Meta := { m with labels := some (m.labelMap.erase name) }

def toJson (m : Meta) : Json := .ofMembers [
  ("annotations", m.annotations.map .ofStringMap),
  ("creationTimestamp", m.creationTimestamp.map (fun t => .str t.text)),
  ("deletionGracePeriodSeconds", m.deletionGracePeriodSeconds.map .num),
  ("deletionTimestamp", m.deletionTimestamp.map (fun t => .str t.text)),
  ("finalizers", m.finalizers.map .ofStrings),
  ("generateName", m.generateName.map .str),
  ("generation", m.generation.map .num),
  ("labels", m.labels.map .ofStringMap),
  ("managedFields", m.managedFields.map (fun l => .arr (l.map ManagedFields.toJson))),
  ("name", m.name.map .str),
  ("namespace", m.ns.map .str),
  ("ownerReferences", m.ownerReferences.map (fun l => .arr (l.map OwnerReference.toJson))),
  ("resourceVersion", m.resourceVersion.map .str),
  ("selfLink", m.selfLink.map .str),
  ("uid", m.uid.map .str)]

def ofJson? (j : Json) : Option Meta := do
  guard j.isObject
  return {
    annotations := ← j.optional? "annotations" Json.stringMap?
    creationTimestamp := ← j.optional? "creationTimestamp" Json.timestamp?
    deletionGracePeriodSeconds := ← j.optional? "deletionGracePeriodSeconds" Json.int64?
    deletionTimestamp := ← j.optional? "deletionTimestamp" Json.timestamp?
    finalizers := ← j.optional? "finalizers" Json.strings?
    generateName := ← j.optional? "generateName" Json.str?
    generation := ← j.optional? "generation" Json.int64?
    labels := ← j.optional? "labels" Json.stringMap?
    managedFields := ← j.optional? "managedFields" (Json.list? ManagedFields.ofJson?)
    name := ← j.optional? "name" Json.str?
    ns := ← j.optional? "namespace" Json.str?
    ownerReferences := ← j.optional? "ownerReferences" (Json.list? OwnerReference.ofJson?)
    resourceVersion := ← j.optional? "resourceVersion" Json.str?
    selfLink := ← j.optional? "selfLink" Json.str?
    uid := ← j.optional? "uid" Json.str? }

end Meta

/-- A kind of cluster object: its metadata, its names in the API, and its JSON form. -/
class Resource (α : Type) where
  info : α → Meta
  kind : String
  apiVersion : String
  ofJson? : Json → Option α

namespace Resource

/-- Reads the metadata of an object; missing metadata is empty. -/
def infoOf? (j : Json) : Option Meta := j.orElse? "metadata" Meta.ofJson? {}

def admits (kind apiVersion : String) (j : Json) : Bool :=
  let agrees (name expected : String) : Bool :=
    match j.members?.bind (fun members => members.lookup name) with
    | none => true
    | some value => value == .str expected
  j.isObject && agrees "kind" kind && agrees "apiVersion" apiVersion

end Resource
end ServiceBalancer
