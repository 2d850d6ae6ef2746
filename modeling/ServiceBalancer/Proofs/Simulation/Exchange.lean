import ServiceBalancer.Proofs.Cloud.Holdings
import ServiceBalancer.Proofs.Cluster.Keyed
import ServiceBalancer.Simulation.World

/-! What the exchanges of a sync do to a world in memory, part by part: the cluster, the cloud and the
cache. -/
namespace ServiceBalancer.Simulation

def answerOf {α : Type} : Program.Reply α → Option α
  | .now a | .after _ a => some a
  | .never | .broken => none

namespace World

/-- Answers a request, however long that takes. A call that breaks down is not answered. -/
def answer (time : Nat) (q : Sync.Request) (w : World) : Option (Sync.Answer q) × World :=
  (answerOf (w.reply time q).1, (w.reply time q).2)

variable (time : Nat) (w : World)

/-! ### What changes -/

private theorem service_eq (key : ServiceKey) : ∃ faults, (w.service key).2 = { w with faults } := by
  unfold service
  split
  · exact ⟨_, rfl⟩
  · exact ⟨w.faults, rfl⟩

private theorem nodes_eq : ∃ faults, w.nodes.2 = { w with faults } := by
  unfold nodes
  split
  · exact ⟨_, rfl⟩
  · exact ⟨w.faults, rfl⟩

private theorem callCloud_eq {α : Type} (svc : Service) (call : MemoryCloud → MemoryCloud.Outcome α × MemoryCloud)
    (deed : Except CloudError α → Deed) :
    ∃ journal, (w.callCloud time svc call deed).2 = { w with cloud := (call w.cloud).2, journal } := by
  simp only [callCloud]
  split <;> exact ⟨_, rfl⟩

private theorem writeStatus_eq (svc : Service) (status : BalancerStatus) : ∃ journal,
    (w.writeStatus time svc status).2 = { w with cluster := (w.cluster.updateStatus svc status).2, journal } :=
  ⟨_, rfl⟩

private theorem setHash_eq (svc : Service) (hash : String) : ∃ faults journal,
    (w.setHash time svc hash).2 = { w with faults, journal } ∨
      (w.setHash time svc hash).2 = { w with cluster := w.cluster.setHash svc hash, faults, journal } := by
  unfold setHash
  split
  · exact ⟨_, _, .inl rfl⟩
  · exact ⟨w.faults, _, .inr rfl⟩

private theorem removeHash_eq (svc : Service) : ∃ faults journal,
    (w.removeHash time svc).2 = { w with faults, journal } ∨
      (w.removeHash time svc).2 = { w with cluster := w.cluster.removeHash svc, faults, journal } := by
  unfold removeHash
  split
  · exact ⟨_, _, .inl rfl⟩
  · exact ⟨w.faults, _, .inr rfl⟩

def cacheAfter (cache : Cache) : Sync.Request → Cache
  | .remember key entry => cache.insert key entry
  | .forget key => cache.erase key
  | _ => cache

def cloudAfter (cloud : MemoryCloud) : Sync.Request → MemoryCloud
  | .lookup svc => (cloud.lookup svc).2
  | .ensure svc nodes => (cloud.ensure svc nodes).2
  | .delete svc => (cloud.delete svc).2
  | _ => cloud

theorem sound_cloudAfter {cloud : MemoryCloud} (h : cloud.Sound) (q : Sync.Request) : (cloudAfter cloud q).Sound := by
  cases q with
  | lookup svc => exact (cloud.lookup_alike svc).sound h
  | ensure svc nodes => exact h.ensure svc nodes
  | delete svc => exact h.delete svc
  | _ => exact h

/-- Whether two clusters have the same nodes, and services that differ at most in what the controller
writes. -/
def SameCores (c c' : MemoryCluster) : Prop := c'.nodes = c.nodes ∧ ∀ k, c'.core? k = c.core? k

/-- A request changes the cache and the cloud by what it says, and of the cluster no core. -/
theorem answer_world (q : Sync.Request) : ∃ cluster metrics faults journal, SameCores w.cluster cluster ∧
    (w.answer time q).2 =
      { cluster, cloud := cloudAfter w.cloud q, cache := cacheAfter w.cache q, metrics, faults, journal } := by
  have same : SameCores w.cluster w.cluster := ⟨rfl, fun _ => rfl⟩
  cases q with
  | service key =>
    obtain ⟨_, he⟩ := w.service_eq key
    exact ⟨_, _, _, _, same, he⟩
  | nodes =>
    obtain ⟨_, he⟩ := w.nodes_eq
    exact ⟨_, _, _, _, same, he⟩
  | lookup svc =>
    obtain ⟨_, he⟩ := w.callCloud_eq time svc (·.lookup svc) (.lookup (svc.info.uid.getD ""))
    exact ⟨_, _, _, _, same, he⟩
  | ensure svc nodes =>
    obtain ⟨_, he⟩ := w.callCloud_eq time svc (·.ensure svc nodes)
      (.ensure (svc.info.uid.getD "") (nodes.map Node.name))
    exact ⟨_, _, _, _, same, he⟩
  | delete svc =>
    obtain ⟨_, he⟩ := w.callCloud_eq time svc (·.delete svc) (.delete (svc.info.uid.getD ""))
    exact ⟨_, _, _, _, same, he⟩
  | writeStatus svc status =>
    obtain ⟨_, he⟩ := w.writeStatus_eq time svc status
    exact ⟨_, _, _, _, ⟨w.cluster.nodes_updateStatus svc status, w.cluster.core?_updateStatus svc status⟩, he⟩
  | setHash svc hash =>
    obtain ⟨_, _, he | he⟩ := w.setHash_eq time svc hash
    · exact ⟨_, _, _, _, same, he⟩
    · exact ⟨_, _, _, _, ⟨w.cluster.nodes_setHash svc hash, w.cluster.core?_setHash svc hash⟩, he⟩
  | removeHash svc =>
    obtain ⟨_, _, he | he⟩ := w.removeHash_eq time svc
    · exact ⟨_, _, _, _, same, he⟩
    · exact ⟨_, _, _, _, ⟨w.cluster.nodes_removeHash svc, w.cluster.core?_removeHash svc⟩, he⟩
  | sleep pause =>
    refine ⟨w.cluster, w.metrics, w.faults, w.journal, same, ?_⟩
    simp only [answer, reply]
    split <;> rfl
  | _ => exact ⟨_, _, _, _, same, rfl⟩

theorem answer_cache (q : Sync.Request) : (w.answer time q).2.cache = cacheAfter w.cache q := by
  obtain ⟨_, _, _, _, _, he⟩ := w.answer_world time q
  rw [he]

theorem answer_cloud (q : Sync.Request) : (w.answer time q).2.cloud = cloudAfter w.cloud q := by
  obtain ⟨_, _, _, _, _, he⟩ := w.answer_world time q
  rw [he]

theorem answer_cluster (q : Sync.Request) : SameCores w.cluster (w.answer time q).2.cluster := by
  obtain ⟨_, _, _, _, hc, he⟩ := w.answer_world time q
  rwa [he]

/-- The cluster changes by a write of the controller only. -/
theorem answer_cluster_cases (q : Sync.Request) : (w.answer time q).2.cluster = w.cluster ∨
    (∃ svc status, q = .writeStatus svc status ∧ (w.answer time q).2.cluster = (w.cluster.updateStatus svc status).2) ∨
    (∃ svc hash, q = .setHash svc hash ∧ (w.answer time q).2.cluster = w.cluster.setHash svc hash) ∨
    ∃ svc, q = .removeHash svc ∧ (w.answer time q).2.cluster = w.cluster.removeHash svc := by
  cases q with
  | service key =>
    obtain ⟨_, he⟩ := w.service_eq key
    have hc := congrArg World.cluster he
    exact .inl hc
  | nodes =>
    obtain ⟨_, he⟩ := w.nodes_eq
    have hc := congrArg World.cluster he
    exact .inl hc
  | lookup svc =>
    obtain ⟨_, he⟩ := w.callCloud_eq time svc (·.lookup svc) (.lookup (svc.info.uid.getD ""))
    have hc := congrArg World.cluster he
    exact .inl hc
  | ensure svc nodes =>
    obtain ⟨_, he⟩ := w.callCloud_eq time svc (·.ensure svc nodes)
      (.ensure (svc.info.uid.getD "") (nodes.map Node.name))
    have hc := congrArg World.cluster he
    exact .inl hc
  | delete svc =>
    obtain ⟨_, he⟩ := w.callCloud_eq time svc (·.delete svc) (.delete (svc.info.uid.getD ""))
    have hc := congrArg World.cluster he
    exact .inl hc
  | writeStatus svc status => exact .inr (.inl ⟨svc, status, rfl, rfl⟩)
  | setHash svc hash =>
    obtain ⟨_, _, he | he⟩ := w.setHash_eq time svc hash
    · have hc := congrArg World.cluster he
      exact .inl hc
    · exact .inr (.inr (.inl ⟨svc, hash, rfl, congrArg World.cluster he⟩))
  | removeHash svc =>
    obtain ⟨_, _, he | he⟩ := w.removeHash_eq time svc
    · have hc := congrArg World.cluster he
      exact .inl hc
    · exact .inr (.inr (.inr ⟨svc, rfl, congrArg World.cluster he⟩))
  | sleep pause =>
    refine .inl ?_
    simp only [answer, reply]
    split <;> rfl
  | _ => exact .inl rfl

theorem keyed_answer (q : Sync.Request) (h : w.cluster.Keyed) : (w.answer time q).2.cluster.Keyed := by
  rcases w.answer_cluster_cases time q with he | ⟨svc, status, _, he⟩ | ⟨svc, hash, _, he⟩ | ⟨svc, _, he⟩
  · exact he ▸ h
  · exact he ▸ h.updateStatus svc status
  · exact he ▸ h.setHash svc hash
  · exact he ▸ h.removeHash svc

theorem shown?_answer {q : Sync.Request} (hq : ∀ svc status, q ≠ .writeStatus svc status) (k : String) :
    (w.answer time q).2.cluster.shown? k = w.cluster.shown? k := by
  rcases w.answer_cluster_cases time q with he | ⟨svc, status, hw, _⟩ | ⟨svc, hash, _, he⟩ | ⟨svc, _, he⟩
  · rw [he]
  · exact absurd hw (hq svc status)
  · rw [he, w.cluster.shown?_setHash svc hash]
  · rw [he, w.cluster.shown?_removeHash svc]

/-- Pending failures of reads are only ever used up. -/
theorem faults_answer (q : Sync.Request) : (w.answer time q).2.faults.service <:+ w.faults.service ∧
    (w.answer time q).2.faults.nodes <:+ w.faults.nodes := by
  have same : w.faults.service <:+ w.faults.service ∧ w.faults.nodes <:+ w.faults.nodes :=
    ⟨List.suffix_refl _, List.suffix_refl _⟩
  cases q with
  | service key =>
    rcases hf : w.faults.service with _ | ⟨e, rest⟩
    · simp [answer, reply, atOnce, service, takeFault, hf]
    · simp [answer, reply, atOnce, service, takeFault, hf]
  | nodes =>
    rcases hf : w.faults.nodes with _ | ⟨e, rest⟩
    · simp [answer, reply, atOnce, nodes, takeFault, hf]
    · simp [answer, reply, atOnce, nodes, takeFault, hf]
  | lookup svc =>
    obtain ⟨_, he⟩ := w.callCloud_eq time svc (·.lookup svc) (.lookup (svc.info.uid.getD ""))
    exact (congrArg World.faults he).symm ▸ same
  | ensure svc nodes =>
    obtain ⟨_, he⟩ := w.callCloud_eq time svc (·.ensure svc nodes)
      (.ensure (svc.info.uid.getD "") (nodes.map Node.name))
    exact (congrArg World.faults he).symm ▸ same
  | delete svc =>
    obtain ⟨_, he⟩ := w.callCloud_eq time svc (·.delete svc) (.delete (svc.info.uid.getD ""))
    exact (congrArg World.faults he).symm ▸ same
  | setHash svc hash =>
    cases hf : takeFault w.faults.setHash <;> simp [answer, reply, atOnce, setHash, hf, note]
  | removeHash svc =>
    cases hf : takeFault w.faults.removeHash <;> simp [answer, reply, atOnce, removeHash, hf, note]
  | sleep pause =>
    simp only [answer, reply]
    split <;> exact same
  | _ => exact same

/-! ### What is answered -/

variable {time w}

theorem answer_service {key : ServiceKey} {found : Option Service}
    (h : (w.answer time (.service key)).1 = some (.ok found)) : found = w.cluster.service? key.ns key.name := by
  simp only [answer, reply, atOnce, service, answerOf] at h
  split at h
  · cases Option.some.inj h
  · exact (Except.ok.inj (Option.some.inj h)).symm

/-- A read of a service that succeeds has met no failure. -/
theorem calm_of_service {key : ServiceKey} {found : Option Service}
    (h : (w.answer time (.service key)).1 = some (.ok found)) : w.faults.service = [] := by
  rcases hf : w.faults.service with _ | ⟨e, rest⟩
  · rfl
  · simp [answer, reply, atOnce, service, takeFault, hf, answerOf] at h

theorem calm_of_nodes {nodes : List Node} (h : (w.answer time .nodes).1 = some (.ok nodes)) : w.faults.nodes = [] := by
  rcases hf : w.faults.nodes with _ | ⟨e, rest⟩
  · rfl
  · simp [answer, reply, atOnce, World.nodes, takeFault, hf, answerOf] at h

theorem answer_nodes {nodes : List Node} (h : (w.answer time .nodes).1 = some (.ok nodes)) :
    nodes = w.cluster.nodes.values := by
  simp only [answer, reply, atOnce, World.nodes, answerOf] at h
  split at h
  · cases Option.some.inj h
  · exact (Except.ok.inj (Option.some.inj h)).symm

private theorem callCloud_answer {α : Type} (svc : Service) (call : MemoryCloud → MemoryCloud.Outcome α × MemoryCloud)
    (deed : Except CloudError α → Deed) : answerOf (w.callCloud time svc call deed).1 = (call w.cloud).1 := by
  simp only [callCloud]
  split <;> next he => simpa [answerOf] using he.symm

theorem answer_lookup (svc : Service) : (w.answer time (.lookup svc)).1 = (w.cloud.lookup svc).1 :=
  callCloud_answer svc (·.lookup svc) _

theorem answer_ensure (svc : Service) (nodes : List Node) :
    (w.answer time (.ensure svc nodes)).1 = (w.cloud.ensure svc nodes).1 :=
  callCloud_answer svc (·.ensure svc nodes) _

theorem answer_delete (svc : Service) : (w.answer time (.delete svc)).1 = (w.cloud.delete svc).1 :=
  callCloud_answer svc (·.delete svc) _

/-- A call that breaks down changes nothing of the cloud. -/
theorem alike_of_broken {q : Sync.Request} (h : (w.answer time q).1 = none) : w.cloud.Alike (cloudAfter w.cloud q) := by
  cases q with
  | lookup svc => exact w.cloud.lookup_alike svc
  | ensure svc nodes =>
    refine MemoryCloud.ensure_failed fun status hr => ?_
    rw [answer_ensure, hr] at h
    cases h
  | delete svc =>
    refine MemoryCloud.delete_failed fun hr => ?_
    rw [answer_delete, hr] at h
    cases h
  | _ => exact ⟨rfl, rfl⟩

/-- A request that is not answered is none of the cache. -/
theorem cacheAfter_of_broken {q : Sync.Request} (h : (w.answer time q).1 = none) (cache : Cache) :
    cacheAfter cache q = cache := by
  cases q with
  | forget key => cases h
  | remember key entry => cases h
  | _ => rfl

/-! ### Whole exchanges -/

variable (time)

theorem answer_service_calm (h : w.faults.service = []) (key : ServiceKey) :
    w.answer time (.service key) = (some (.ok (w.cluster.service? key.ns key.name)), w) := by
  simp [answer, reply, atOnce, service, takeFault, h, answerOf]

theorem answer_nodes_calm (h : w.faults.nodes = []) : w.answer time .nodes = (some (.ok w.cluster.nodes.values), w) := by
  simp [answer, reply, atOnce, nodes, takeFault, h, answerOf]

theorem answer_setHash_calm (h : w.faults.setHash = []) (svc : Service) (hash : String) : ∃ journal,
    w.answer time (.setHash svc hash) = (some (.ok ()), { w with cluster := w.cluster.setHash svc hash, journal }) := by
  simp only [answer, reply, atOnce, setHash, takeFault, h, answerOf]
  exact ⟨_, rfl⟩

theorem answer_removeHash_calm (h : w.faults.removeHash = []) (svc : Service) : ∃ journal,
    w.answer time (.removeHash svc) = (some (.ok ()), { w with cluster := w.cluster.removeHash svc, journal }) := by
  simp only [answer, reply, atOnce, removeHash, takeFault, h, answerOf]
  exact ⟨_, rfl⟩

variable (w)

theorem answer_lookup_whole (svc : Service) : ∃ journal, w.answer time (.lookup svc) =
    ((w.cloud.lookup svc).1, { w with cloud := (w.cloud.lookup svc).2, journal }) := by
  obtain ⟨journal, he⟩ := w.callCloud_eq time svc (·.lookup svc) (.lookup (svc.info.uid.getD ""))
  exact ⟨journal, Prod.ext (answer_lookup svc) he⟩

theorem answer_writeStatus (svc : Service) (status : BalancerStatus) : ∃ journal, w.answer time (.writeStatus svc status) =
    (some (w.cluster.updateStatus svc status).1, { w with cluster := (w.cluster.updateStatus svc status).2, journal }) :=
  ⟨_, rfl⟩

theorem answer_ensure_whole (svc : Service) (nodes : List Node) : ∃ journal, w.answer time (.ensure svc nodes) =
    ((w.cloud.ensure svc nodes).1, { w with cloud := (w.cloud.ensure svc nodes).2, journal }) := by
  obtain ⟨journal, he⟩ := w.callCloud_eq time svc (·.ensure svc nodes)
    (.ensure (svc.info.uid.getD "") (nodes.map Node.name))
  exact ⟨journal, Prod.ext (answer_ensure svc nodes) he⟩

theorem answer_delete_whole (svc : Service) : ∃ journal, w.answer time (.delete svc) =
    ((w.cloud.delete svc).1, { w with cloud := (w.cloud.delete svc).2, journal }) := by
  obtain ⟨journal, he⟩ := w.callCloud_eq time svc (·.delete svc) (.delete (svc.info.uid.getD ""))
  exact ⟨journal, Prod.ext (answer_delete svc) he⟩

end World
end ServiceBalancer.Simulation
