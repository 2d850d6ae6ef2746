import ServiceBalancer.Api.Request
import ServiceBalancer.Leadership.Claim

/-! Campaigning for leadership: rounds of looking at the lease and claiming it. -/
namespace ServiceBalancer.Elector
open Api (Talk)

def leases (ns : String) : String := Api.collection "/apis/coordination.k8s.io/v1" "leases" (some ns)

/-- Whether a write of the lease was won. A conflict means that another replica was first. -/
def won {α : Type} : Except ApiError α → Except ApiError Bool
  | .ok _ => .ok true
  | .error e => if e.hasCode 409 then .ok false else .error e

/-- One round at a moment: whether the replica leads after it. -/
def round (ns identity : String) (now : Timestamp) : Talk (Except ApiError Bool) := do
  match ← Api.find (leases ns) Claim.leaseName Lease.ofJson? with
  | .error e => return .error e
  | .ok none =>
    let body := (Claim.newLease ns identity now).toJson
    return won (← Api.ask { verb := .create, collection := leases ns, body } Lease.ofJson?)
  | .ok (some lease) =>
    match (Claim.choose lease.spec identity now).patch? identity lease.info.resourceVersion now with
    | none => return .ok false
    | some body =>
      let request : Api.Request := { verb := .mergePatch, collection := leases ns, name := Claim.leaseName, body }
      return won (← Api.ask request Lease.ofJson?)

/-- What a replica publishes after a round. A failed round does not keep it in the lead. -/
def leads : Except ApiError Bool → Bool
  | .ok leading => leading
  | .error _ => false

def interval (leading : Bool) : Duration := .ofSeconds (if leading then 10 else 5)

end ServiceBalancer.Elector
