import ServiceBalancer.Proofs.Object.Core

/-! A cluster stores each service under the key of that service, so a write of the controller meets the service
that it read. What it publishes is what was written last. -/
namespace ServiceBalancer.MemoryCluster
variable {c : MemoryCluster} {svc latest : Service} {status : BalancerStatus}

def Keyed (c : MemoryCluster) : Prop := ∀ slot svc, c.services.get? slot = some svc → svc.info.key = slot

def shown? (c : MemoryCluster) (slot : String) : Option BalancerStatus :=
  (c.services.get? slot).map Service.balancerStatus

/-- The clusters that can come to be, from an empty one on. -/
inductive Reachable : MemoryCluster → Prop where
  | new (synced : Bool) : Reachable { synced }
  | markSynced {c : MemoryCluster} : Reachable c → Reachable { c with synced := true }
  | upsertService {c : MemoryCluster} (svc : Service) : Reachable c → Reachable (c.upsertService svc).2
  | deleteService {c : MemoryCluster} (ns name : String) : Reachable c → Reachable (c.deleteService ns name)
  | upsertNode {c : MemoryCluster} (node : Node) : Reachable c → Reachable (c.upsertNode node)
  | deleteNode {c : MemoryCluster} (name : String) : Reachable c → Reachable (c.deleteNode name)
  | failStatus {c : MemoryCluster} (e : StatusWriteError) : Reachable c → Reachable (c.failStatus e)
  | updateStatus {c : MemoryCluster} (svc : Service) (status : BalancerStatus) :
    Reachable c → Reachable (c.updateStatus svc status).2
  | setHash {c : MemoryCluster} (svc : Service) (hash : String) : Reachable c → Reachable (c.setHash svc hash)
  | removeHash {c : MemoryCluster} (svc : Service) : Reachable c → Reachable (c.removeHash svc)
  | clearWrites {c : MemoryCluster} : Reachable c → Reachable { c with writes := [] }

theorem Keyed.store (h : c.Keyed) (svc : Service) : (c.store svc.info.key svc).2.Keyed := by
  intro slot x hx
  simp only [MemoryCluster.store, SortedMap.get?_insert] at hx
  split at hx
  · next he =>
    obtain rfl := Option.some.inj hx
    exact he
  · exact h slot x hx

theorem Keyed.deleteService (h : c.Keyed) (ns name : String) : (c.deleteService ns name).Keyed := by
  intro slot x hx
  simp only [MemoryCluster.deleteService, SortedMap.get?_erase] at hx
  split at hx
  · cases hx
  · exact h slot x hx

/-- A status write is taken by the service it is meant for, or changes no service. -/
theorem updateStatus_cases (c : MemoryCluster) (svc : Service) (status : BalancerStatus) :
    (c.updateStatus svc status).1 ≠ .ok () ∧ (c.updateStatus svc status).2.services = c.services ∨
    ∃ d latest, c.updateStatus svc status = (.ok (), (store d svc.info.key (latest.setBalancerStatus status)).2) ∧
      d.services = c.services ∧ c.services.get? svc.info.key = some latest ∧ c.statusFailures = [] := by
  simp only [updateStatus]
  split
  · exact .inl ⟨by simp, rfl⟩
  · next hf =>
    split
    · exact .inl ⟨by simp, rfl⟩
    · next latest hl => exact .inr ⟨_, latest, rfl, rfl, hl, hf⟩

/-- A hash is set on the service it is meant for, if that is there. -/
theorem setHash_cases (c : MemoryCluster) (svc : Service) (hash : String) : (c.setHash svc hash).services = c.services ∨
    ∃ d latest, c.setHash svc hash =
        (store d svc.info.key { latest with info := latest.info.setLabel WellKnown.serviceHash hash }).2 ∧
      d.services = c.services ∧ c.services.get? svc.info.key = some latest := by
  simp only [setHash]
  split
  · exact .inl rfl
  · next latest hl => exact .inr ⟨_, latest, rfl, rfl, hl⟩

theorem removeHash_cases (c : MemoryCluster) (svc : Service) : (c.removeHash svc).services = c.services ∨
    ∃ d latest, c.removeHash svc =
        (store d svc.info.key { latest with info := latest.info.removeLabel WellKnown.serviceHash }).2 ∧
      d.services = c.services ∧ c.services.get? svc.info.key = some latest := by
  simp only [removeHash]
  split
  · exact .inl rfl
  · next latest hl => exact .inr ⟨_, latest, rfl, rfl, hl⟩

/-! ### Keys -/

private theorem Keyed.rewrite {d : MemoryCluster} {s : Service} {key : String} (h : c.Keyed) (hd : d.services = c.services)
    (hl : c.services.get? key = some latest) (hs : s.info.key = latest.info.key) : (d.store key s).2.Keyed := by
  have hkey : s.info.key = key := hs.trans (h key latest hl)
  have hkeyed : d.Keyed := fun slot x hx => h slot x (hd ▸ hx)
  exact hkey ▸ hkeyed.store s

theorem Keyed.updateStatus (h : c.Keyed) (svc : Service) (status : BalancerStatus) :
    (c.updateStatus svc status).2.Keyed := by
  rcases c.updateStatus_cases svc status with ⟨_, he⟩ | ⟨d, latest, he, hd, hl, _⟩
  · exact fun slot x hx => h slot x (he ▸ hx)
  · rw [he]
    exact h.rewrite hd hl rfl

theorem Keyed.setHash (h : c.Keyed) (svc : Service) (hash : String) : (c.setHash svc hash).Keyed := by
  rcases c.setHash_cases svc hash with he | ⟨d, latest, he, hd, hl⟩
  · exact fun slot x hx => h slot x (he ▸ hx)
  · rw [he]
    exact h.rewrite hd hl rfl

theorem Keyed.removeHash (h : c.Keyed) (svc : Service) : (c.removeHash svc).Keyed := by
  rcases c.removeHash_cases svc with he | ⟨d, latest, he, hd, hl⟩
  · exact fun slot x hx => h slot x (he ▸ hx)
  · rw [he]
    exact h.rewrite hd hl rfl

theorem Reachable.keyed (h : c.Reachable) : c.Keyed := by
  induction h with
  | new => exact fun _ _ hx => by cases hx
  | upsertService svc _ ih => exact ih.store svc
  | deleteService ns name _ ih => exact ih.deleteService ns name
  | updateStatus svc status _ ih => exact ih.updateStatus svc status
  | setHash svc hash _ ih => exact ih.setHash svc hash
  | removeHash svc _ ih => exact ih.removeHash svc
  | markSynced _ ih | upsertNode _ _ ih | deleteNode _ _ ih | failStatus _ _ ih | clearWrites _ ih => exact ih

/-! ### What is shown -/

private theorem shown?_store {d : MemoryCluster} {s : Service} {key : String} (hd : d.services = c.services) (k : String) :
    (d.store key s).2.shown? k = if key = k then some s.balancerStatus else c.shown? k := by
  simp only [shown?, store, SortedMap.get?_insert, ← hd]
  split <;> rfl

private theorem shown?_store_same {d : MemoryCluster} {s : Service} {key : String} (hd : d.services = c.services)
    (hl : c.services.get? key = some latest) (hs : s.balancerStatus = latest.balancerStatus) (k : String) :
    (d.store key s).2.shown? k = c.shown? k := by
  rw [shown?_store hd]
  split
  · next hk =>
    subst hk
    rw [shown?, hl, hs]
    rfl
  · rfl

theorem shown?_updateStatus_ok (hr : (c.updateStatus svc status).1 = .ok ()) (k : String) :
    (c.updateStatus svc status).2.shown? k = if svc.info.key = k then some status else c.shown? k := by
  rcases c.updateStatus_cases svc status with ⟨hne, _⟩ | ⟨d, latest, he, hd, _, _⟩
  · exact absurd hr hne
  · rw [he]
    exact shown?_store hd k

theorem shown?_updateStatus_failed (hr : (c.updateStatus svc status).1 ≠ .ok ()) (k : String) :
    (c.updateStatus svc status).2.shown? k = c.shown? k := by
  rcases c.updateStatus_cases svc status with ⟨_, he⟩ | ⟨_, _, he, _⟩
  · rw [shown?, he]
    rfl
  · exact absurd (congrArg Prod.fst he) hr

theorem shown?_setHash (c : MemoryCluster) (svc : Service) (hash k : String) : (c.setHash svc hash).shown? k = c.shown? k := by
  rcases c.setHash_cases svc hash with he | ⟨d, latest, he, hd, hl⟩
  · rw [shown?, he]
    rfl
  · rw [he]
    refine shown?_store_same hd hl ?_ k
    rfl

theorem shown?_removeHash (c : MemoryCluster) (svc : Service) (k : String) : (c.removeHash svc).shown? k = c.shown? k := by
  rcases c.removeHash_cases svc with he | ⟨d, latest, he, hd, hl⟩
  · rw [shown?, he]
    rfl
  · rw [he]
    refine shown?_store_same hd hl ?_ k
    rfl

/-! ### What a write leaves -/

/-- A status that no failure waits for is taken by the service it is meant for. -/
theorem updateStatus_calm (hf : c.statusFailures = []) (hl : c.services.get? svc.info.key = some latest)
    (status : BalancerStatus) : (c.updateStatus svc status).1 = .ok () ∧
      ∃ written, (c.updateStatus svc status).2.services.get? svc.info.key = some written ∧ written.core = latest.core ∧
        written.info.labels = latest.info.labels ∧ written.balancerStatus = status := by
  simp only [updateStatus, hf, hl, store, SortedMap.get?_insert, if_true]
  exact ⟨trivial, _, rfl, rfl, rfl, rfl⟩

theorem setHash_found (hl : c.services.get? svc.info.key = some latest) (hash : String) :
    (c.setHash svc hash).statusFailures = c.statusFailures ∧
      ∃ written, (c.setHash svc hash).services.get? svc.info.key = some written ∧ written.core = latest.core ∧
        written.info.labelMap.get? WellKnown.serviceHash = some hash ∧
          written.balancerStatus = latest.balancerStatus := by
  simp only [setHash, hl, store, SortedMap.get?_insert, if_true]
  refine ⟨trivial, _, rfl, rfl, ?_, rfl⟩
  simp [Meta.labelMap, Meta.setLabel]

theorem removeHash_found (hl : c.services.get? svc.info.key = some latest) :
    (c.removeHash svc).statusFailures = c.statusFailures ∧
      ∃ written, (c.removeHash svc).services.get? svc.info.key = some written ∧ written.core = latest.core ∧
        written.info.labelMap.contains WellKnown.serviceHash = false ∧
          written.balancerStatus = latest.balancerStatus := by
  simp only [removeHash, hl, store, SortedMap.get?_insert, if_true]
  refine ⟨trivial, _, rfl, rfl, ?_, rfl⟩
  simp [Meta.labelMap, Meta.removeLabel, SortedMap.contains]

end ServiceBalancer.MemoryCluster
