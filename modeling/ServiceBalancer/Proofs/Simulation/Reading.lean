import ServiceBalancer.Proofs.Simulation.Exchange
import ServiceBalancer.Proofs.Sync.Course

/-! What a sync has read that runs by itself: the service and the nodes as they were when it began, since it writes to
the cluster only after it has read the service. -/
namespace ServiceBalancer.Simulation
open Sync

variable {settings : SyncSettings} {key : ServiceKey} {time : Nat} {w w' : World} {c : Course} {q : Request}
  {a : Answer q}

/-- A sync that has not read the service leaves the cluster as it is. -/
theorem cluster_of_unread (hq : c.Allows settings key q) (hc : c.found = none) :
    (w.answer time q).2.cluster = w.cluster := by
  have unread : ∀ s, ¬c.About s := fun s hs => by cases hc.symm.trans hs.2.1
  rcases w.answer_cluster_cases time q with he | ⟨s, status, rfl, _⟩ | ⟨s, hash, rfl, _⟩ | ⟨s, rfl, _⟩
  · exact he
  · obtain ⟨_, ⟨_, hens⟩ | ⟨_, hs, _⟩⟩ := hq
    · exact absurd hens.about (unread s)
    · exact absurd hs (unread s)
  · obtain ⟨_, _, _, _, hens, _⟩ := hq
    exact absurd hens.about (unread s)
  · exact absurd hq.2.1 (unread s)

/-- A sync remembers nothing before a call that is not answered. -/
theorem kept_of_broken (hq : c.Allows settings key q) (h : (w.answer time q).1 = none) : c.kept = none := by
  cases q with
  | lookup svc => exact hq.1.kept
  | ensure svc nodes => exact hq.2.2.2.2.1
  | delete svc => exact hq.1.kept
  | sleep d =>
    simp only [World.answer, World.reply] at h
    split at h <;> cases h
  | _ => cases h

structure Reads (key : ServiceKey) (w : World) (c : Course) (w' : World) : Prop where
  found : ∀ found, c.found = some found → found = w.cluster.service? key.ns key.name
  nodes : ∀ nodes, c.nodes = some nodes → nodes = w.cluster.nodes.values
  unread : c.found = none → w'.cluster = w.cluster
  same : w'.cluster.nodes = w.cluster.nodes

theorem Reads.start (key : ServiceKey) (w : World) : Reads key w {} w :=
  ⟨(fun _ h => by cases h), (fun _ h => by cases h), fun _ => rfl, rfl⟩

theorem Reads.exchange (h : Reads key w c w') (hq : c.Allows settings key q) (ha : (w'.answer time q).1 = some a) :
    Reads key w (c.note q a) (w'.answer time q).2 := by
  have hsame : (w'.answer time q).2.cluster.nodes = w.cluster.nodes := (w'.answer_cluster time q).1.trans h.same
  have hunread : c.found = none → (w'.answer time q).2.cluster = w.cluster := fun hc =>
    (cluster_of_unread hq hc).trans (h.unread hc)
  cases q with
  | service k =>
    obtain ⟨rfl, entry, rfl⟩ := hq
    rcases a with e | found
    · exact ⟨h.found, h.nodes, hunread, hsame⟩
    · obtain rfl := World.answer_service ha
      refine ⟨fun found hfound => ?_, h.nodes, (fun hc => by cases hc), hsame⟩
      rw [← Option.some.inj hfound, h.unread rfl]
  | nodes =>
    rcases a with e | nodes
    · exact ⟨h.found, h.nodes, hunread, hsame⟩
    · obtain rfl := World.answer_nodes ha
      refine ⟨h.found, fun nodes hnodes => ?_, hunread, hsame⟩
      rw [← Option.some.inj hnodes, h.same]
  | ensure svc nodes => cases a <;> exact ⟨h.found, h.nodes, hunread, hsame⟩
  | delete svc => cases a <;> exact ⟨h.found, h.nodes, hunread, hsame⟩
  | _ => exact ⟨h.found, h.nodes, hunread, hsame⟩

end ServiceBalancer.Simulation
