import ServiceBalancer.Object.Service
import ServiceBalancer.WellKnown

/-! How a service finds its balancer: by an id the user gave, or by a name made from its UID. -/
namespace ServiceBalancer

/-- The longest start of a text with at most `limit` bytes. There is none if the limit falls
inside a character. -/
def cutBytes? : Nat → List Char → Option (List Char)
  | _, [] => some []
  | 0, _ :: _ => some []
  | limit, c :: rest =>
    if c.utf8Size ≤ limit then (cutBytes? (limit - c.utf8Size) rest).map (c :: ·) else none

/-- The name of the balancer of a service with a given UID: an "a" and the UID without dashes,
cut to 32 bytes. -/
def balancerNameOf? (uid : String) : Option String :=
  (cutBytes? 32 ('a' :: uid.toList.filter (· ≠ '-'))).map .ofList

/-- The name of the balancer of a service; a service without a UID counts as one with an empty UID. -/
def Service.balancerName? (svc : Service) : Option String := balancerNameOf? (svc.info.uid.getD "")

/-- The id of the balancer that the user wants to use, unless it is empty. -/
def Service.givenBalancerId? (svc : Service) : Option String :=
  (svc.info.annotationMap.get? WellKnown.loadBalancerId).filter (fun id => !id.isEmpty)

end ServiceBalancer
