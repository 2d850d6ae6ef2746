import ServiceBalancer.Cache
import ServiceBalancer.Change
import ServiceBalancer.Cloud.Balancer
import ServiceBalancer.Cloud.Memory
import ServiceBalancer.Cluster.Memory
import ServiceBalancer.Eligibility
import ServiceBalancer.Fingerprint

/-! The core of a service: all of it but its labels, its status and its version. These are what the
controller writes, and its decisions depend on the core alone. A cluster has cores under their keys. -/
namespace ServiceBalancer
namespace ServiceKey

def slot (k : ServiceKey) : String := MemoryCluster.lookupKey k.ns k.name

/-- Whether a key has a namespace as a cluster admits it. -/
def Proper (k : ServiceKey) : Prop := k.ns ≠ "" ∧ '/' ∉ k.ns.toList

instance (k : ServiceKey) : Decidable k.Proper := inferInstanceAs (Decidable (_ ∧ _))

private theorem append_slash_injective {a b : List Char} (ha : '/' ∉ a) (hb : '/' ∉ b) {x y : List Char}
    (h : a ++ '/' :: x = b ++ '/' :: y) : a = b ∧ x = y := by
  induction a generalizing b with
  | nil =>
    cases b with
    | nil => exact ⟨rfl, (List.cons.inj h).2⟩
    | cons c b => exact absurd ((List.cons.inj h).1 ▸ .head _) hb
  | cons c a ih =>
    cases b with
    | nil => exact absurd ((List.cons.inj h).1 ▸ .head _) ha
    | cons d b =>
      obtain ⟨rfl, hrest⟩ := List.cons.inj h
      obtain ⟨rfl, hx⟩ := ih (fun hm => ha (.tail _ hm)) (fun hm => hb (.tail _ hm)) hrest
      exact ⟨rfl, hx⟩

/-- Whether a key has a name, too, as a cluster admits it. -/
def Plain (k : ServiceKey) : Prop := k.Proper ∧ k.name ≠ "" ∧ '/' ∉ k.name.toList

instance (k : ServiceKey) : Decidable k.Plain := inferInstanceAs (Decidable (_ ∧ _))

/-- Where a service with a plain key is looked up, nothing else is. -/
theorem Plain.eq_of_slot {k k' : ServiceKey} (h : k.Plain) (hs : k'.slot = k.slot) : k' = k := by
  have hl := congrArg String.toList hs
  simp only [slot, MemoryCluster.lookupKey, String.toList_append, List.append_assoc] at hl
  have hns : '/' ∉ k'.ns.toList := by
    have hcount := congrArg (List.count '/') hl
    simp only [List.count_append, List.count_eq_zero.mpr h.1.2, List.count_eq_zero.mpr h.2.2] at hcount
    exact List.count_eq_zero.mp (by omega)
  obtain ⟨hn, hm⟩ := append_slash_injective hns h.1.2 (x := k'.name.toList) (y := k.name.toList) hl
  cases k
  cases k'
  exact congr (congrArg _ (String.toList_inj.mp hn)) (String.toList_inj.mp hm)

/-- Two services are never looked up in the same place. -/
theorem Proper.slot_injective {k k' : ServiceKey} (h : k.Proper) (h' : k'.Proper) (hs : k.slot = k'.slot) : k = k' := by
  have hl := congrArg String.toList hs
  simp only [slot, MemoryCluster.lookupKey, String.toList_append, List.append_assoc] at hl
  obtain ⟨hn, hm⟩ := append_slash_injective h.2 h'.2 (x := k.name.toList) (y := k'.name.toList) hl
  cases k
  cases k'
  exact congr (congrArg _ (String.toList_inj.mp hn)) (String.toList_inj.mp hm)

/-- A service is stored where it is looked up. -/
theorem Proper.slot_eq {svc : Service} (h : (ofService svc).Proper) : svc.info.key = (ofService svc).slot := by
  have hns : svc.info.ns.getD "" ≠ "" := h.1
  simp only [Meta.key, slot, MemoryCluster.lookupKey, ofService, ofMeta]
  cases hn : svc.info.ns with
  | none => simp [hn] at hns
  | some ns =>
    have hne : ns.isEmpty = false := by simpa [hn] using hns
    simp [hne]

end ServiceKey

namespace Service

def core (svc : Service) : Service :=
  { svc with info := { svc.info with labels := none, resourceVersion := none }, status := none }

/-- What depends on the core alone is the same for services with the same core. -/
theorem eq_of_core {β : Type} (f : Service → β) (hf : ∀ svc, f svc.core = f svc) {a b : Service}
    (h : a.core = b.core) : f a = f b := by rw [← hf a, h, hf b]

end Service

namespace MemoryCluster
variable {c : MemoryCluster} {svc : Service}

/-- The cores of the services of a cluster, by key. -/
def core? (c : MemoryCluster) (key : String) : Option Service := (c.services.get? key).map Service.core

theorem core?_upsertService (c : MemoryCluster) (svc : Service) (k : String) :
    (c.upsertService svc).2.core? k = if svc.info.key = k then some svc.core else c.core? k := by
  simp only [core?, upsertService, store, SortedMap.get?_insert]
  split <;> rfl

private theorem core?_store {d : MemoryCluster} {s latest : Service} {key : String} (hs : d.services = c.services)
    (hl : d.services.get? key = some latest) (hc : s.core = latest.core) (k : String) :
    (d.store key s).2.core? k = c.core? k := by
  simp only [core?, store, SortedMap.get?_insert, ← hs]
  split
  · next hk =>
    rw [← hk, hl]
    exact congrArg some hc
  · rfl

theorem core?_updateStatus (c : MemoryCluster) (svc : Service) (status : BalancerStatus) (k : String) :
    (c.updateStatus svc status).2.core? k = c.core? k := by
  simp only [updateStatus]
  split
  · rfl
  · split
    · rfl
    · next latest hl =>
      exact core?_store (d := { c with writes := c.writes ++ [.status svc.info.key status] })
        (s := latest.setBalancerStatus status) rfl hl rfl k

theorem core?_setHash (c : MemoryCluster) (svc : Service) (hash : String) (k : String) :
    (c.setHash svc hash).core? k = c.core? k := by
  simp only [setHash]
  split
  · rfl
  · next latest hl =>
    exact core?_store (d := { c with writes := c.writes ++ [.setHash svc.info.key hash] })
      (s := { latest with info := latest.info.setLabel WellKnown.serviceHash hash }) rfl hl rfl k

theorem core?_removeHash (c : MemoryCluster) (svc : Service) (k : String) : (c.removeHash svc).core? k = c.core? k := by
  simp only [removeHash]
  split
  · rfl
  · next latest hl =>
    exact core?_store (d := { c with writes := c.writes ++ [.removeHash svc.info.key] })
      (s := { latest with info := latest.info.removeLabel WellKnown.serviceHash }) rfl hl rfl k

theorem nodes_updateStatus (c : MemoryCluster) (svc : Service) (status : BalancerStatus) :
    (c.updateStatus svc status).2.nodes = c.nodes := by
  simp only [updateStatus]
  split
  · rfl
  · split <;> rfl

theorem nodes_setHash (c : MemoryCluster) (svc : Service) (hash : String) : (c.setHash svc hash).nodes = c.nodes := by
  simp only [setHash]
  split <;> rfl

theorem nodes_removeHash (c : MemoryCluster) (svc : Service) : (c.removeHash svc).nodes = c.nodes := by
  simp only [removeHash]
  split <;> rfl

end MemoryCluster
end ServiceBalancer
