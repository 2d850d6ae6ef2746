import ServiceBalancer.Object.Lease

/-! How a replica claims leadership: what it does with the lease it observes, and the merge patch
that does it. -/
namespace ServiceBalancer

inductive Claim where
  /-- The replica holds the lease. -/
  | renew
  /-- The holder let the lease expire. -/
  | takeOver
  /-- Someone else holds a live lease. -/
  | wait
  deriving DecidableEq, Repr

namespace Claim

def leaseName : String := "service-lb-controller-leader"

def leaseSeconds : Int := 15

def deadline? (spec : LeaseSpec) : Option Timestamp :=
  spec.renewTime.map (fun t => t.addSeconds (spec.leaseDurationSeconds.getD leaseSeconds))

/-- Whether a lease is expired. One that was never renewed is. -/
def isExpired (spec : Option LeaseSpec) (now : Timestamp) : Bool :=
  match spec.bind deadline? with
  | some deadline => deadline.nanos < now.nanos
  | none => true

def choose (spec : Option LeaseSpec) (identity : String) (now : Timestamp) : Claim :=
  if spec.bind (·.holderIdentity) = some identity then .renew
  else if isExpired spec now then .takeOver
  else .wait

def changes? (claim : Claim) (identity : String) (now : Timestamp) : Option (List (String × Json)) :=
  match claim with
  | .wait => none
  | .renew => some [("leaseDurationSeconds", .num leaseSeconds), ("renewTime", .str now.microText)]
  | .takeOver => some [
    ("acquireTime", .str now.microText),
    ("holderIdentity", .str identity),
    ("leaseDurationSeconds", .num leaseSeconds),
    ("renewTime", .str now.microText)]

/-- The merge patch for a claim, which holds only for the observed version of the lease. -/
def patch? (claim : Claim) (identity : String) (resourceVersion : Option String) (now : Timestamp) :
    Option Json :=
  (claim.changes? identity now).map (fun changes => .obj [
    ("metadata", .obj [("resourceVersion", (resourceVersion.map Json.str).getD .null)]),
    ("spec", .obj changes)])

def newLease (ns identity : String) (now : Timestamp) : Lease where
  info := { name := some leaseName, ns := some ns }
  spec := some {
    acquireTime := some now
    holderIdentity := some identity
    leaseDurationSeconds := some leaseSeconds
    renewTime := some now }

end Claim
end ServiceBalancer
