import ServiceBalancer.Object.Meta

/-! Leases: who holds a lock, since when, and for how long. -/
namespace ServiceBalancer

structure LeaseSpec where
  acquireTime : Option Timestamp := none
  holderIdentity : Option String := none
  leaseDurationSeconds : Option Int := none
  leaseTransitions : Option Int := none
  renewTime : Option Timestamp := none
  deriving DecidableEq, Inhabited

structure Lease where
  info : Meta := {}
  spec : Option LeaseSpec := none
  deriving DecidableEq, Inhabited

namespace LeaseSpec

def toJson (s : LeaseSpec) : Json := .ofMembers [
  ("acquireTime", s.acquireTime.map (fun t => .str t.microText)),
  ("holderIdentity", s.holderIdentity.map .str),
  ("leaseDurationSeconds", s.leaseDurationSeconds.map .num),
  ("leaseTransitions", s.leaseTransitions.map .num),
  ("renewTime", s.renewTime.map (fun t => .str t.microText))]

def ofJson? (j : Json) : Option LeaseSpec := do
  guard j.isObject
  return {
    acquireTime := ← j.optional? "acquireTime" Json.timestamp?
    holderIdentity := ← j.optional? "holderIdentity" Json.str?
    leaseDurationSeconds := ← j.optional? "leaseDurationSeconds" Json.int32?
    leaseTransitions := ← j.optional? "leaseTransitions" Json.int32?
    renewTime := ← j.optional? "renewTime" Json.timestamp? }

end LeaseSpec

namespace Lease

def toJson (l : Lease) : Json := .ofMembers [
  ("apiVersion", some (.str "coordination.k8s.io/v1")),
  ("kind", some (.str "Lease")),
  ("metadata", some l.info.toJson),
  ("spec", l.spec.map LeaseSpec.toJson)]

def ofJson? (j : Json) : Option Lease := do
  guard (Resource.admits "Lease" "coordination.k8s.io/v1" j)
  return { info := ← Resource.infoOf? j, spec := ← j.optional? "spec" LeaseSpec.ofJson? }

end Lease

instance : Resource Lease := ⟨Lease.info, "Lease", "coordination.k8s.io/v1", Lease.ofJson?⟩

end ServiceBalancer
