import ServiceBalancer.Proofs.Routing.ServiceUpdates
import ServiceBalancer.Proofs.Simulation.Reading
import ServiceBalancer.Proofs.Sync.Conduct

/-! What the controller writes itself. It comes back to the router as an update of a service, and there it is passed
over: a write changes labels, status and version, and none of these is compared. -/
namespace ServiceBalancer

/-- A write of the controller, meant for a service as it was read. -/
inductive OwnWrite where
  | setHash (svc : Service) (hash : String)
  | removeHash (svc : Service)
  | status (svc : Service) (status : BalancerStatus)

def OwnWrite.target : OwnWrite → Service
  | setHash svc _ | removeHash svc | status svc _ => svc

namespace MemoryCluster
variable {c c' : MemoryCluster}

def take (c : MemoryCluster) : OwnWrite → MemoryCluster
  | .setHash svc hash => c.setHash svc hash
  | .removeHash svc => c.removeHash svc
  | .status svc status => (c.updateStatus svc status).2

def takeAll (c : MemoryCluster) (writes : List OwnWrite) : MemoryCluster := writes.foldl take c

theorem core?_take (c : MemoryCluster) (write : OwnWrite) (slot : String) : (c.take write).core? slot = c.core? slot := by
  cases write with
  | setHash svc hash => exact c.core?_setHash svc hash slot
  | removeHash svc => exact c.core?_removeHash svc slot
  | status svc status => exact c.core?_updateStatus svc status slot

theorem core?_takeAll (c : MemoryCluster) (writes : List OwnWrite) (slot : String) :
    (c.takeAll writes).core? slot = c.core? slot := by
  induction writes generalizing c with
  | nil => rfl
  | cons write writes ih => exact (ih (c.take write)).trans (c.core?_take write slot)

/-- A write changes the service that it is meant for, and nothing else. -/
theorem take_frame (c : MemoryCluster) (write : OwnWrite) : (c.take write).nodes = c.nodes ∧
    ∀ slot, write.target.info.key ≠ slot → (c.take write).services.get? slot = c.services.get? slot := by
  have hstore {d : MemoryCluster} {s : Service} (key : String) (hd : d.services = c.services) (slot : String)
      (hne : key ≠ slot) : (d.store key s).2.services.get? slot = c.services.get? slot := by
    simp [store, hne, hd]
  cases write with
  | setHash svc hash =>
    refine ⟨c.nodes_setHash svc hash, fun slot hne => ?_⟩
    rcases c.setHash_cases svc hash with he | ⟨d, latest, he, hd, _⟩
    · exact congrArg (SortedMap.get? · slot) he
    · exact (congrArg (SortedMap.get? ·.services slot) he).trans (hstore _ hd slot hne)
  | removeHash svc =>
    refine ⟨c.nodes_removeHash svc, fun slot hne => ?_⟩
    rcases c.removeHash_cases svc with he | ⟨d, latest, he, hd, _⟩
    · exact congrArg (SortedMap.get? · slot) he
    · exact (congrArg (SortedMap.get? ·.services slot) he).trans (hstore _ hd slot hne)
  | status svc status =>
    refine ⟨c.nodes_updateStatus svc status, fun slot hne => ?_⟩
    rcases c.updateStatus_cases svc status with ⟨_, he⟩ | ⟨d, latest, he, hd, _⟩
    · exact congrArg (SortedMap.get? · slot) he
    · exact (congrArg (SortedMap.get? ·.2.services slot) he).trans (hstore _ hd slot hne)

theorem takeAll_frame (c : MemoryCluster) (writes : List OwnWrite) : (c.takeAll writes).nodes = c.nodes ∧
    ∀ slot, (∀ write ∈ writes, write.target.info.key ≠ slot) →
      (c.takeAll writes).services.get? slot = c.services.get? slot := by
  induction writes generalizing c with
  | nil => exact ⟨rfl, fun _ _ => rfl⟩
  | cons write writes ih =>
    obtain ⟨hnodes, hservices⟩ := c.take_frame write
    obtain ⟨hnodes', hservices'⟩ := ih (c.take write)
    refine ⟨hnodes'.trans hnodes, fun slot hne => ?_⟩
    have hrest := hservices' slot fun x hx => hne x (.tail _ hx)
    exact hrest.trans (hservices slot (hne write (.head _)))

/-- Whether the router passes over all that is different in a later state of a cluster: each service is still there, and
its update makes for nothing to be done. -/
def Unheeded (c c' : MemoryCluster) : Prop := ∀ slot,
  Option.Rel (fun old new => Routing.onService (.updated old new) = []) (c.services.get? slot) (c'.services.get? slot)

end MemoryCluster

namespace Routing
variable {old new : Service}

/-- Versions of a service with one core are the same in all that is compared. -/
theorem same_of_core (h : old.core = new.core) : old.Same new where
  spec := Service.eq_of_core (·.spec) (fun _ => rfl) h
  annotations := Service.eq_of_core (·.info.annotationMap) (fun _ => rfl) h
  uid := Service.eq_of_core (·.info.uid) (fun _ => rfl) h
  marked := Service.eq_of_core (·.info.deletionTimestamp.isSome) (fun _ => rfl) h

theorem onService_of_core (h : old.core = new.core) : onService (.updated old new) = [] := by
  -- whether a version counts as managed rests with its labels and status, but if neither does, nothing is compared
  have hirrelevant : ServiceChange.between old new = .irrelevant := by
    by_cases hcandidate : old.isCandidate = true ∨ new.isCandidate = true
    · exact (between_eq_irrelevant hcandidate).mpr (same_of_core h)
    · rw [not_or, Bool.not_eq_true, Bool.not_eq_true] at hcandidate
      simp [ServiceChange.between, hcandidate.1, hcandidate.2]
  simp only [onService, hirrelevant]

end Routing

theorem MemoryCluster.unheeded_of_core {c c' : MemoryCluster} (h : ∀ slot, c'.core? slot = c.core? slot) :
    c.Unheeded c' := by
  intro slot
  have hcore : (c'.services.get? slot).map Service.core = (c.services.get? slot).map Service.core := h slot
  cases hold : c.services.get? slot with
  | none =>
    rw [hold, Option.map_none, Option.map_eq_none_iff] at hcore
    rw [hcore]
    exact .none
  | some old =>
    rw [hold, Option.map_some] at hcore
    obtain ⟨new, hnew, hsame⟩ := Option.map_eq_some_iff.mp hcore
    rw [hnew]
    exact .some (Routing.onService_of_core hsame.symm)

namespace Simulation
open Sync
variable {settings : SyncSettings} {key : ServiceKey} {w w' : World} {time : Nat} {c : Course} {q : Request}

/-- What a sync has written to the cluster so far: each write was meant for the service that it has read. -/
def Wrote (key : ServiceKey) (w w' : World) : Prop := ∃ writes : List OwnWrite,
  (∀ write ∈ writes, w.cluster.service? key.ns key.name = some write.target) ∧ w'.cluster = w.cluster.takeAll writes

theorem Wrote.write {w₁ : World} (h : Wrote key w w₁) (write : OwnWrite)
    (htarget : w.cluster.service? key.ns key.name = some write.target) (he : w'.cluster = w₁.cluster.take write) :
    Wrote key w w' := by
  obtain ⟨writes, htargets, hcluster⟩ := h
  refine ⟨writes ++ [write], fun x hx => ?_, ?_⟩
  · rcases List.mem_append.mp hx with hx | hx
    · exact htargets x hx
    · exact List.mem_singleton.mp hx ▸ htarget
  · rw [he, hcluster, MemoryCluster.takeAll, MemoryCluster.takeAll, List.foldl_append]
    rfl

theorem Wrote.exchange (h : Wrote key w w') (hr : Reads key w c w') (hq : c.Allows settings key q) :
    Wrote key w (w'.answer time q).2 := by
  have target : ∀ svc, c.About svc → w.cluster.service? key.ns key.name = some svc :=
    fun svc habout => (hr.found _ habout.2.1).symm
  rcases w'.answer_cluster_cases time q with
    he | ⟨svc, status, rfl, he⟩ | ⟨svc, hash, rfl, he⟩ | ⟨svc, rfl, he⟩
  · obtain ⟨writes, htargets, hcluster⟩ := h
    exact ⟨writes, htargets, he.trans hcluster⟩
  · obtain ⟨_, ⟨_, hens⟩ | ⟨_, habout, _⟩⟩ := hq
    · exact h.write (.status svc status) (target svc hens.about) he
    · exact h.write (.status svc status) (target svc habout) he
  · obtain ⟨_, _, _, _, hens, _⟩ := hq
    exact h.write (.setHash svc hash) (target svc hens.about) he
  · exact h.write (.removeHash svc) (target svc hq.2.1) he

/-- Whatever it meets, a sync changes the cluster by writes to the service of its key. -/
theorem sync_wrote (settings : SyncSettings) (key : ServiceKey) (w : World) (time : Nat) :
    Wrote key w ((program settings key).talk (World.answer time) [] w).2.2 := by
  have hstart : Reads key w {} w ∧ Wrote key w w := ⟨.start key w, [], by simp, rfl⟩
  have hend := (obeys_program settings key).talk (World.answer time) [] (fun c w' => Reads key w c w' ∧ Wrote key w w')
    (fun _ w' => Wrote key w w')
    (fun c w₁ q a w₂ hq h ha => by
      obtain rfl := congrArg Prod.snd ha
      exact ⟨h.1.exchange hq (congrArg Prod.fst ha), h.2.exchange h.1 hq⟩)
    (fun c w₁ q w₂ hq h ha => by
      obtain rfl := congrArg Prod.snd ha
      exact h.2.exchange h.1 hq) rfl hstart
  rcases ht : (program settings key).talk (World.answer time) [] w with ⟨_ | result, log, w'⟩
  all_goals rw [ht] at hend
  · exact hend
  · exact hend.2.2

/-- The controller never gives itself work. From any state of a cluster, and between any two points of a run of its
writes, all updates are passed over; and such writes, to the service of its key, are all that a sync changes of the
cluster, whatever it meets and however it ends. -/
theorem own_writes_unheeded :
    (∀ (c : MemoryCluster) (earlier later : List OwnWrite),
      (c.takeAll earlier).Unheeded (c.takeAll (earlier ++ later))) ∧
    ∀ (settings : SyncSettings) (key : ServiceKey) (w : World) (time : Nat), ∃ writes : List OwnWrite,
      (∀ write ∈ writes, w.cluster.service? key.ns key.name = some write.target) ∧
      ((program settings key).talk (World.answer time) [] w).2.2.cluster = w.cluster.takeAll writes := by
  refine ⟨fun c earlier later => ?_, sync_wrote⟩
  refine MemoryCluster.unheeded_of_core fun slot => ?_
  rw [MemoryCluster.core?_takeAll, MemoryCluster.core?_takeAll]

private def retired : Service where
  info := { name := some "web", ns := some "default", labels := some (.ofList [(WellKnown.serviceHash, "0a1b")]) }
  spec := some { type := some "ClusterIP" }

/-- With its label it is a candidate and without it is none, and yet the loss of the label is passed over. -/
example : retired.isCandidate = true ∧
    ((({} : MemoryCluster).upsertService retired).2.take (.removeHash retired)).services.values.map
      (fun svc => (svc.isCandidate, Routing.onService (.updated retired svc))) = [(false, [])] := by
  decide +kernel

end Simulation
end ServiceBalancer
