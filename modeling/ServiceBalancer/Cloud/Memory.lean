import ServiceBalancer.Cloud.Balancer
import ServiceBalancer.Cloud.Error
import ServiceBalancer.Cloud.Identity
import ServiceBalancer.Object.Node

/-! A cloud that keeps its balancers in memory. It finds them as a real one does, by the id a user
gave or by the derived name, and it can be told to fail. -/
namespace ServiceBalancer

/-- A call of the cloud, for the service with a given UID. -/
inductive CloudCall where
  | lookup (uid : String)
  | ensure (uid : String) (nodes : List String)
  | delete (uid : String)
  deriving DecidableEq, Repr

def CloudCall.isWrite : CloudCall → Bool
  | lookup _ => false
  | _ => true

structure MemoryCloud where
  balancers : SortedMap String Balancer := ∅
  /-- How many ids have been given out. Nothing bounds the number here; a counter of 32 bits shows the same up to
  `2 ^ 32 - 1`. A result that needs the ids or the addresses not to run out says so. -/
  allocated : Nat := 0
  /-- Messages with which the next calls fail, oldest first. -/
  failures : List String := []
  /-- All calls so far, oldest first. -/
  calls : List CloudCall := []
  rules : List ClassifierRule := ClassifierRule.defaults

namespace MemoryCloud

instance : Inhabited MemoryCloud := ⟨{}⟩

def idOf (n : Nat) : String :=
  let digits := Text.hexDigits n
  .ofList ("lb-".toList ++ (List.replicate (8 - digits.length) '0' ++ digits))

/-- The address with a given number: its three low bytes under 10. -/
def addressOf (n : Nat) : String :=
  "10." ++ toString (n / 65536 % 256) ++ "." ++ toString (n / 256 % 256) ++ "." ++ toString (n % 256)

/-- The balancer of a service: the one with the given id, else the first one with the derived name.
Nothing is found out where there is no derived name. -/
def find? (c : MemoryCloud) (svc : Service) : Option (Option Balancer) :=
  match svc.givenBalancerId? with
  | some id => some (c.balancers.get? id)
  | none => svc.balancerName?.map (fun name => c.balancers.values.find? (fun b => b.name = name))

/-- Adds a balancer that the controller does not own, and tells its id. -/
def seed (c : MemoryCloud) (name : String) : String × MemoryCloud :=
  let n := c.allocated + 1
  let b : Balancer := { id := idOf n, name, address := addressOf n, userManaged := true }
  (b.id, { c with allocated := n, balancers := c.balancers.insert b.id b })

def inject (c : MemoryCloud) (message : String) : MemoryCloud :=
  { c with failures := c.failures ++ [message] }

def begin (c : MemoryCloud) (call : CloudCall) : Except CloudError Unit × MemoryCloud :=
  let c := { c with calls := c.calls ++ [call] }
  match c.failures with
  | [] => (.ok (), c)
  | message :: rest => (.error (.classified c.rules message), { c with failures := rest })

/-- What a call of the cloud comes to. No outcome means that the call broke down over a UID that
gives no name. -/
abbrev Outcome (α : Type) := Option (Except CloudError α)

def lookup (c : MemoryCloud) (svc : Service) : Outcome (Option BalancerDescriptor) × MemoryCloud :=
  match c.begin (.lookup (svc.info.uid.getD "")) with
  | (.error e, c) => (some (.error e), c)
  | (.ok _, c) => ((c.find? svc).map (fun found => .ok (found.map Balancer.descriptor)), c)

def configure (b : Balancer) (svc : Service) (nodes : List Node) : Balancer :=
  { b with
    listeners := svc.listeners
    backends := nodes.map Node.name
    tags := if b.userManaged then b.tags else svc.tags }

def missingId (id : String) : CloudError :=
  ⟨.rejected, "ErrorCode: InvalidLoadBalancerId.NotFound Message: The specified LoadBalancerId " ++ id ++
    " does not exist."⟩

/-- Creates or updates the balancer of a service and tells its status. -/
def ensure (c : MemoryCloud) (svc : Service) (nodes : List Node) : Outcome BalancerStatus × MemoryCloud :=
  match c.begin (.ensure (svc.info.uid.getD "") (nodes.map Node.name)) with
  | (.error e, c) => (some (.error e), c)
  | (.ok _, c) =>
    match c.find? svc with
    | none => (none, c)
    | some (some b) =>
      (some (.ok b.status), { c with balancers := c.balancers.insert b.id (configure b svc nodes) })
    | some none =>
      match svc.givenBalancerId?, svc.balancerName? with
      | some id, _ => (some (.error (missingId id)), c)
      | none, none => (none, c)
      | none, some name =>
        let n := c.allocated + 1
        let b := configure { id := idOf n, name, address := addressOf n, userManaged := false } svc nodes
        (some (.ok b.status), { c with allocated := n, balancers := c.balancers.insert b.id b })

/-- Deletes the balancer of a service, or empties it if the user gave its id. A missing one is fine. -/
def delete (c : MemoryCloud) (svc : Service) : Outcome Unit × MemoryCloud :=
  match c.begin (.delete (svc.info.uid.getD "")) with
  | (.error e, c) => (some (.error e), c)
  | (.ok _, c) =>
    match c.find? svc with
    | none => (none, c)
    | some none => (some (.ok ()), c)
    | some (some b) =>
      let balancers :=
        if svc.givenBalancerId?.isSome then c.balancers.insert b.id { b with listeners := [], backends := [] }
        else c.balancers.erase b.id
      (some (.ok ()), { c with balancers })

end MemoryCloud

structure CloudProvider where
  name : String
  loadBalancer : Option MemoryCloud

def CloudProvider.memory (cloud : MemoryCloud) : CloudProvider := ⟨"memory", some cloud⟩

def CloudProvider.bare : CloudProvider := ⟨"memory", none⟩

end ServiceBalancer
