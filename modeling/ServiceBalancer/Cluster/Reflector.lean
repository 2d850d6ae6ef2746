import ServiceBalancer.Cluster.Delta
import ServiceBalancer.Object.Identity

/-! A local store of watched objects. It follows a stream of watch events and tells what each of
them changed; of a new listing it tells only the objects that appeared, changed or vanished. -/
namespace ServiceBalancer

/-- What a watch reports: a listing from its start to its end, and single changes. -/
inductive WatchEvent (α : Type) where
  | init
  | initApply (o : α)
  | initDone
  | apply (o : α)
  | delete (o : α)
  deriving DecidableEq

/-- What is known of a listing that is under way. -/
structure Relist (α : Type) where
  /-- The objects listed so far. -/
  seen : List ObjectId := []
  /-- The changes to tell when the listing is done, oldest first. -/
  deltas : List (Delta α) := []

structure Reflector (α : Type) where
  store : SortedMap ObjectId α := ∅
  /-- The objects of a listing, which replace the store when it is done. -/
  buffer : SortedMap ObjectId α := ∅
  relist : Option (Relist α) := none
  /-- Whether a listing has been done. -/
  ready : Bool := false

namespace Reflector
variable {α : Type} [Resource α]

instance : Inhabited (Reflector α) := ⟨{}⟩

/-- The stored object of an identity. One without a namespace answers for every namespace in which
there is none of its name. -/
def find? (r : Reflector α) (id : ObjectId) : Option α :=
  (r.store.get? id).or (r.store.get? { id with ns := none })

/-- Notes a listed object. It is a change if the store lacks it or holds another version. -/
def noteListed (r : Reflector α) (o : α) (relist : Relist α) : Relist α :=
  let delta : List (Delta α) :=
    match r.find? (.of o) with
    | none => [.added o]
    | some old =>
      if (Resource.info old).resourceVersion = (Resource.info o).resourceVersion then []
      else [.updated old o]
  { seen := .of o :: relist.seen, deltas := relist.deltas ++ delta }

def vanished (r : Reflector α) (relist : Relist α) : List α :=
  (r.store.entries.filter (fun e => e.1 ∉ relist.seen)).map (·.2)

/-- Takes one event in and tells what it changed. Changes found by a listing are told at its end. -/
def step (r : Reflector α) : WatchEvent α → List (Delta α) × Reflector α
  | .apply o =>
    let delta := match r.find? (.of o) with
      | some old => .updated old o
      | none => .added o
    ([delta], { r with store := r.store.insert (.of o) o })
  | .delete o => ([.deleted ((r.find? (.of o)).getD o)], { r with store := r.store.erase (.of o) })
  | .init => ([], { r with relist := some {}, buffer := ∅ })
  | .initApply o => ([], { r with
      relist := r.relist.map (r.noteListed o), buffer := r.buffer.insert (.of o) o })
  | .initDone =>
    let deltas := match r.relist with
      | some relist => relist.deltas ++ (r.vanished relist).map .deleted
      | none => []
    (deltas, { store := r.buffer, buffer := ∅, relist := none, ready := true })

def objects (r : Reflector α) : List α := r.store.values

end Reflector
end ServiceBalancer
