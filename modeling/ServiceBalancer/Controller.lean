import ServiceBalancer.Cloud.Memory
import ServiceBalancer.Routing
import ServiceBalancer.Settings

/-! The controller's life: it waits for the caches, starts its workers, relaxes their backoffs and
syncs all services anew from time to time, and drains when it is stopped. -/
namespace ServiceBalancer

namespace Controller

def prepare (settings : Settings) (provider : CloudProvider) : Except Error MemoryCloud := do
  settings.validate
  match provider.loadBalancer with
  | some cloud => return cloud
  | none => throw (.missingCapability provider.name "load balancer")

def resync (cache : Cache) : List ServiceKey × Cache :=
  (Routing.servedKeys cache, Cache.markAllStale cache)

inductive Phase where
  /-- The caches are not complete yet. -/
  | awaitingSync
  | serving
  /-- The queue is shut down, and workers may still finish what they hold. -/
  | draining
  | ended
  deriving DecidableEq, Repr

structure Sight where
  synced : Bool
  stopped : Bool
  decayDue : Bool
  resyncDue : Bool
  workersDone : Bool
  deriving DecidableEq, Repr

inductive Move where
  | startWorkers
  | shutDown
  | relaxBackoffs
  | resync
  | finish
  deriving DecidableEq, Repr

/-- The next move and the phase after it, or none while there is nothing to do. -/
def Phase.move? (phase : Phase) (sight : Sight) : Option (Move × Phase) :=
  match phase with
  | .awaitingSync =>
    if sight.stopped then some (.shutDown, .ended)
    else if sight.synced then some (.startWorkers, .serving)
    else none
  | .serving =>
    if sight.stopped then some (.shutDown, .draining)
    else if sight.decayDue then some (.relaxBackoffs, .serving)
    else if sight.resyncDue then some (.resync, .serving)
    else none
  | .draining => if sight.workersDone then some (.finish, .ended) else none
  | .ended => none

end Controller
end ServiceBalancer
