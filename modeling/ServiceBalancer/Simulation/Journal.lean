import ServiceBalancer.Cloud.Balancer
import ServiceBalancer.Cluster.StatusWrite
import ServiceBalancer.Event

/-! What the controller is seen to do: its calls, with their outcomes, and its events. -/
namespace ServiceBalancer.Simulation

inductive Deed where
  | lookup (uid : String) (result : Except CloudError (Option BalancerDescriptor))
  | ensure (uid : String) (nodes : List String) (result : Except CloudError BalancerStatus)
  | delete (uid : String) (result : Except CloudError Unit)
  | writeStatus (status : BalancerStatus) (result : Except StatusWriteError Unit)
  | setHash (hash : String) (result : Except Error Unit)
  | removeHash (result : Except Error Unit)
  /-- A service was read from the cluster and found or not. -/
  | fetch (result : Except Error Bool)
  | event (type : EventType) (reason message : String)

/-- A deed with its time in milliseconds and the object it is about. -/
structure JournalEntry where
  time : Nat
  subject : String
  deed : Deed

def JournalEntry.grouped (journal : List JournalEntry) : List JournalEntry :=
  journal.mergeSort (fun a b => a.time < b.time || (a.time == b.time && (compare a.subject b.subject).isLE))

end ServiceBalancer.Simulation
