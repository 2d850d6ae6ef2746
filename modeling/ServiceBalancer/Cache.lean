import ServiceBalancer.ServiceKey
import ServiceBalancer.SortedMap

/-! What is remembered of each service since its last successful sync. -/
namespace ServiceBalancer

/-- The last known state of a service. Without a fingerprint the next sync calls the cloud. -/
structure CacheEntry where
  service : Service
  uid : Option String
  status : BalancerStatus
  fingerprint : Option String
  deriving DecidableEq, Inhabited

/-- The entry of a service that is known from its deletion only. -/
def CacheEntry.ofDeleted (svc : Service) : CacheEntry := ⟨svc, svc.info.uid, svc.balancerStatus, none⟩

abbrev Cache := SortedMap ServiceKey CacheEntry

namespace Cache

def markStale (c : Cache) (key : ServiceKey) : Cache := c.modify key (fun e => { e with fingerprint := none })

def markAllStale (c : Cache) : Cache := c.mapValues (fun e => { e with fingerprint := none })

def services (c : Cache) : List (ServiceKey × Service) := c.entries.map (fun e => (e.1, e.2.service))

end Cache
end ServiceBalancer
