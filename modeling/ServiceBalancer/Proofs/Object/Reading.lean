import Mathlib.Data.Option.Basic
import ServiceBalancer.Object.Lease
import ServiceBalancer.Object.ServiceJson
import ServiceBalancer.Proofs.Json.MergePatch

/-! What is read of a document: an object is read exactly if all its members are, each for itself. -/
namespace ServiceBalancer
open Json (memberList)

variable {doc : Json} {info : Meta} {svc : Service} {lease : Lease} {spec : LeaseSpec}

/-! ### Optional members -/

namespace Json
variable {α : Type} {j member : Json} {name : String} {read : Json → Option α} {x : Option α}

theorem optional?_cases (h : j.optional? name read = some x) : j.get? name = none ∧ x = none ∨
    ∃ member a, j.get? name = some member ∧ read member = some a ∧ x = some a := by
  simp only [Json.optional?] at h
  cases hm : j.get? name with
  | none =>
    rw [hm] at h
    exact .inl ⟨rfl, (Option.some.inj h).symm⟩
  | some member =>
    rw [hm] at h
    obtain ⟨a, ha, rfl⟩ := Option.map_eq_some_iff.mp h
    exact .inr ⟨member, a, rfl, ha, rfl⟩

theorem optional?_present (h : j.optional? name read = some x) (hm : j.get? name = some member) :
    ∃ a, read member = some a ∧ x = some a := by
  obtain ⟨hn, _⟩ | ⟨_, a, hs, ha, rfl⟩ := optional?_cases h
  · rw [hn] at hm
    cases hm
  · obtain rfl := Option.some.inj (hm.symm.trans hs)
    exact ⟨a, ha, rfl⟩

end Json

/-! ### Metadata -/

namespace Meta

structure Members (j : Json) (info : Meta) : Prop where
  annotations : j.optional? "annotations" Json.stringMap? = some info.annotations
  creationTimestamp : j.optional? "creationTimestamp" Json.timestamp? = some info.creationTimestamp
  deletionGracePeriodSeconds :
    j.optional? "deletionGracePeriodSeconds" Json.int64? = some info.deletionGracePeriodSeconds
  deletionTimestamp : j.optional? "deletionTimestamp" Json.timestamp? = some info.deletionTimestamp
  finalizers : j.optional? "finalizers" Json.strings? = some info.finalizers
  generateName : j.optional? "generateName" Json.str? = some info.generateName
  generation : j.optional? "generation" Json.int64? = some info.generation
  labels : j.optional? "labels" Json.stringMap? = some info.labels
  managedFields : j.optional? "managedFields" (Json.list? ManagedFields.ofJson?) = some info.managedFields
  name : j.optional? "name" Json.str? = some info.name
  ns : j.optional? "namespace" Json.str? = some info.ns
  ownerReferences : j.optional? "ownerReferences" (Json.list? OwnerReference.ofJson?) = some info.ownerReferences
  resourceVersion : j.optional? "resourceVersion" Json.str? = some info.resourceVersion
  selfLink : j.optional? "selfLink" Json.str? = some info.selfLink
  uid : j.optional? "uid" Json.str? = some info.uid

theorem ofJson?_eq_some {j : Json} : ofJson? j = some info ↔ j.isObject = true ∧ Members j info := by
  constructor
  · intro h
    unfold ofJson? at h
    -- One step for each member, the first one being for the object as a whole.
    iterate 16 obtain ⟨_, _, h⟩ := Option.bind_eq_some_iff.mp h
    obtain rfl := Option.some.inj h
    refine ⟨(Option.guard_eq_some' _).mp (by assumption), ?_⟩
    constructor <;> assumption
  · rintro ⟨hobj, h⟩
    simp only [ofJson?, hobj, h.annotations, h.creationTimestamp, h.deletionGracePeriodSeconds, h.deletionTimestamp,
      h.finalizers, h.generateName, h.generation, h.labels, h.managedFields, h.name, h.ns, h.ownerReferences,
      h.resourceVersion, h.selfLink, h.uid]
    rfl

/-- Members that only the version and the labels of are others. -/
theorem Members.versioned {j j' : Json} {version : Option String} {labels : Option StringMap} (h : Members j info)
    (hversion : j'.optional? "resourceVersion" Json.str? = some version)
    (hlabels : j'.optional? "labels" Json.stringMap? = some labels)
    (hother : ∀ name ∉ ["resourceVersion", "labels"], j'.get? name = j.get? name) :
    Members j' { info with resourceVersion := version, labels := labels } := by
  have kept {α : Type} {name : String} {read : Json → Option α} {x : Option α}
      (hx : j.optional? name read = some x) (hn : name ∉ ["resourceVersion", "labels"]) :
      j'.optional? name read = some x := by
    rw [← hx, Json.optional?, hother name hn, Json.optional?]
  exact {
    annotations := kept h.annotations (by simp)
    creationTimestamp := kept h.creationTimestamp (by simp)
    deletionGracePeriodSeconds := kept h.deletionGracePeriodSeconds (by simp)
    deletionTimestamp := kept h.deletionTimestamp (by simp)
    finalizers := kept h.finalizers (by simp)
    generateName := kept h.generateName (by simp)
    generation := kept h.generation (by simp)
    labels := hlabels
    managedFields := kept h.managedFields (by simp)
    name := kept h.name (by simp)
    ns := kept h.ns (by simp)
    ownerReferences := kept h.ownerReferences (by simp)
    resourceVersion := hversion
    selfLink := kept h.selfLink (by simp)
    uid := kept h.uid (by simp) }

end Meta

def Json.metadata (doc : Json) : Json := (doc.get? "metadata").getD (.obj [])

theorem infoOf?_eq (doc : Json) : Resource.infoOf? doc = Meta.ofJson? doc.metadata := by
  rw [Resource.infoOf?, Json.orElse?, Json.optional?, Json.metadata]
  cases doc.get? "metadata" with
  | none => rfl
  | some j =>
    cases h : Meta.ofJson? j with
    | none => simp [h]
    | some info => simp [h]

/-- Documents with the same names of kind and version are admitted alike. -/
theorem admits_congr {j : Json} (hj : j.isObject = true) (hdoc : doc.isObject = true)
    (h : ∀ name ∈ ["kind", "apiVersion"], j.memberList.lookup name = doc.memberList.lookup name) (kind version : String) :
    Resource.admits kind version j = Resource.admits kind version doc := by
  cases j <;> cases hj
  cases doc <;> cases hdoc
  have hk := h "kind" (by simp)
  have hv := h "apiVersion" (by simp)
  simp only [memberList, Json.members?, Option.getD_some] at hk hv
  simp only [Resource.admits, Json.members?, Option.bind_some, hk, hv, Json.isObject]

theorem isObject_of_admits {kind version : String} (h : Resource.admits kind version doc = true) :
    doc.isObject = true := by
  simp only [Resource.admits, Bool.and_eq_true] at h
  exact h.1.1

/-! ### Services and leases -/

theorem Service.ofJson?_eq_some : Service.ofJson? doc = some svc ↔ Resource.admits "Service" "v1" doc = true ∧
    Resource.infoOf? doc = some svc.info ∧ doc.optional? "spec" ServiceSpec.ofJson? = some svc.spec ∧
    doc.optional? "status" ServiceStatus.ofJson? = some svc.status := by
  constructor
  · intro h
    simp only [Service.ofJson?, Option.bind_eq_bind, Option.bind_eq_some_iff] at h
    obtain ⟨_, hadmits, _, hinfo, _, hspec, _, hstatus, he⟩ := h
    cases he
    exact ⟨(Option.guard_eq_some' _).mp hadmits, hinfo, hspec, hstatus⟩
  · rintro ⟨hadmits, hinfo, hspec, hstatus⟩
    simp only [Service.ofJson?, hadmits, hinfo, hspec, hstatus]
    rfl

namespace LeaseSpec

structure Members (j : Json) (s : LeaseSpec) : Prop where
  acquireTime : j.optional? "acquireTime" Json.timestamp? = some s.acquireTime
  holderIdentity : j.optional? "holderIdentity" Json.str? = some s.holderIdentity
  leaseDurationSeconds : j.optional? "leaseDurationSeconds" Json.int32? = some s.leaseDurationSeconds
  leaseTransitions : j.optional? "leaseTransitions" Json.int32? = some s.leaseTransitions
  renewTime : j.optional? "renewTime" Json.timestamp? = some s.renewTime

theorem ofJson?_eq_some {j : Json} : ofJson? j = some spec ↔ j.isObject = true ∧ Members j spec := by
  constructor
  · intro h
    simp only [ofJson?, Option.bind_eq_bind, Option.bind_eq_some_iff] at h
    obtain ⟨_, hobj, _, h₁, _, h₂, _, h₃, _, h₄, _, h₅, he⟩ := h
    cases he
    exact ⟨(Option.guard_eq_some' _).mp hobj, h₁, h₂, h₃, h₄, h₅⟩
  · rintro ⟨hobj, h₁, h₂, h₃, h₄, h₅⟩
    simp only [ofJson?, hobj, h₁, h₂, h₃, h₄, h₅]
    rfl

end LeaseSpec

theorem Lease.ofJson?_eq_some : Lease.ofJson? doc = some lease ↔
    Resource.admits "Lease" "coordination.k8s.io/v1" doc = true ∧ Resource.infoOf? doc = some lease.info ∧
      doc.optional? "spec" LeaseSpec.ofJson? = some lease.spec := by
  constructor
  · intro h
    simp only [Lease.ofJson?, Option.bind_eq_bind, Option.bind_eq_some_iff] at h
    obtain ⟨_, hadmits, _, hinfo, _, hspec, he⟩ := h
    cases he
    exact ⟨(Option.guard_eq_some' _).mp hadmits, hinfo, hspec⟩
  · rintro ⟨hadmits, hinfo, hspec⟩
    simp only [Lease.ofJson?, hadmits, hinfo, hspec]
    rfl

end ServiceBalancer
