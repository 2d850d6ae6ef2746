import ServiceBalancer.Cloud.Balancer
import ServiceBalancer.Cloud.Identity
import ServiceBalancer.Fingerprint
import ServiceBalancer.Proofs.Queue.Orderly
import ServiceBalancer.Proofs.Routing
import ServiceBalancer.Proofs.Simulation.Deletion

/-! Updates of services that the router passes over. Whatever a later stage reads of a service is made from its wishes,
its annotations, its UID and its deletion mark. All of these are compared, and where one differs the key gets onto the
queue. -/
namespace ServiceBalancer

namespace Service
variable {old new : Service}

structure Same (old new : Service) : Prop where
  spec : old.spec = new.spec
  annotations : old.info.annotationMap = new.info.annotationMap
  uid : old.info.uid = new.info.uid
  marked : old.info.deletionTimestamp.isSome = new.info.deletionTimestamp.isSome

/-- Whether two versions of a service are alike in all that a sync makes of them: whether they want a balancer and from
this controller, which balancer is theirs and what it gets, the nodes they choose, and what is hashed. -/
structure Alike (old new : Service) : Prop where
  uid : old.info.uid = new.info.uid
  spec : old.spec = new.spec
  annotations : old.info.annotationMap = new.info.annotationMap
  content : old.content = new.content
  unclaimed : old.isUnclaimed = new.isUnclaimed
  wanted : old.needsBalancer = new.needsBalancer
  given : old.givenBalancerId? = new.givenBalancerId?
  named : old.balancerName? = new.balancerName?
  tags : old.tags = new.tags
  listeners : old.listeners = new.listeners
  nodes : ∀ nodes, old.availableNodes nodes = new.availableNodes nodes
  fingerprint : ∀ digest nodes,
    old.fingerprint digest (old.availableNodes nodes) = new.fingerprint digest (new.availableNodes nodes)

theorem availableNodes_congr (hs : old.spec = new.spec) (ha : old.info.annotationMap = new.info.annotationMap)
    (nodes : List Node) : old.availableNodes nodes = new.availableNodes nodes := by
  have hdrops : old.dropsUnschedulable = new.dropsUnschedulable := by rw [dropsUnschedulable, dropsUnschedulable, ha]
  have hwide : old.routesClusterWide = new.routesClusterWide := by rw [routesClusterWide, routesClusterWide, hs]
  have haccepts : ∀ n, old.accepts n = new.accepts n := fun n => by rw [accepts, accepts, hdrops, hwide]
  simp only [availableNodes, haccepts]

theorem content_congr (hs : old.spec = new.spec) (ha : old.info.annotationMap = new.info.annotationMap) :
    old.content = new.content := by rw [content, content, hs, ha]

theorem fingerprint_congr (hc : old.content = new.content) (digest : String → String) (nodes : List Node) :
    old.fingerprint digest nodes = new.fingerprint digest nodes := by
  rw [fingerprint, fingerprint, pushContent, pushContent, hash, hash, hc]

theorem needsBalancer_congr (hs : old.spec = new.spec)
    (hm : old.info.deletionTimestamp.isSome = new.info.deletionTimestamp.isSome) :
    old.needsBalancer = new.needsBalancer := by
  have htype : old.hasBalancerType = new.hasBalancerType := by
    rw [hasBalancerType, hasBalancerType, type?, type?, hs]
  rw [needsBalancer, needsBalancer, htype, ← Option.not_isSome, ← Option.not_isSome, hm]

theorem Same.alike (h : Same old new) : Alike old new where
  uid := h.uid
  spec := h.spec
  annotations := h.annotations
  content := content_congr h.spec h.annotations
  unclaimed := by rw [isUnclaimed, isUnclaimed, h.annotations]
  wanted := needsBalancer_congr h.spec h.marked
  given := by rw [givenBalancerId?, givenBalancerId?, h.annotations]
  named := by rw [balancerName?, balancerName?, h.uid]
  tags := by rw [tags, tags, h.annotations]
  listeners := by rw [listeners, listeners, h.spec]
  nodes := availableNodes_congr h.spec h.annotations
  fingerprint := by
    intro digest nodes
    rw [availableNodes_congr h.spec h.annotations, fingerprint_congr (content_congr h.spec h.annotations)]

end Service

namespace Routing
variable {old new : Service}

/-- An update of a service that has, or may have had, a balancer is passed over only if the versions are the same. A
type that is not given counts as an empty one, but then the wishes differ all the same. -/
theorem between_eq_irrelevant (hcandidate : old.isCandidate = true ∨ new.isCandidate = true) :
    ServiceChange.between old new = .irrelevant ↔ Service.Same old new := by
  have hcand : (!old.isCandidate && !new.isCandidate) = false := by
    rcases hcandidate with h | h <;> simp [h]
  simp only [ServiceChange.between, hcand, Bool.false_eq_true, if_false]
  constructor
  · intro h
    split_ifs at h with htype hdiff
    simp only [not_or, Decidable.not_not] at hdiff
    exact ⟨hdiff.1, hdiff.2.1, hdiff.2.2.1, hdiff.2.2.2⟩
  · intro h
    have htype : old.type? = new.type? := by rw [Service.type?, Service.type?, h.spec]
    simp [htype, h.spec, h.annotations, h.uid, h.marked]

/-- Where nobody else has claimed the new version, its key is enqueued exactly if the versions are not the same. -/
theorem enqueue_mem_onService (hcandidate : old.isCandidate = true ∨ new.isCandidate = true)
    (hunclaimed : new.isUnclaimed = true) :
    .enqueue (.ofService new) ∈ onService (.updated old new) ↔ ¬Service.Same old new := by
  rw [← between_eq_irrelevant hcandidate]
  cases hc : ServiceChange.between old new <;> simp [onService, enqueue, hc, hunclaimed]

end Routing

namespace Simulation.Site
variable {s : Site} {key : ServiceKey}

@[simp] theorem react_shuttingDown (s : Site) (r : Reaction) :
    (s.react r).timed.queue.shuttingDown = s.timed.queue.shuttingDown := by
  cases r <;> simp [react, TimedQueue.add]

/-- A reaction makes a key need work if it is the one to enqueue it and the queue is open, and takes none off. -/
theorem mem_dirty_react {r : Reaction} : key ∈ (s.react r).timed.queue.dirty ↔
    key ∈ s.timed.queue.dirty ∨ s.timed.queue.shuttingDown = false ∧ r = .enqueue key := by
  cases r with
  | enqueue k => simp only [react, TimedQueue.add, TimedQueue.queue_change, WorkQueue.mem_dirty_add,
      Reaction.enqueue.injEq, eq_comm]
  | record e => simp [react]
  | keepDeleted svc => simp [react]
  | markStale k => simp [react]

/-- After any reactions the keys that need work are those that did, and those that were enqueued on an open queue. -/
theorem mem_dirty_reactions {rs : List Reaction} : key ∈ (rs.foldl react s).timed.queue.dirty ↔
    key ∈ s.timed.queue.dirty ∨ s.timed.queue.shuttingDown = false ∧ .enqueue key ∈ rs := by
  induction rs generalizing s with
  | nil => simp
  | cons r rs ih =>
    rw [List.foldl_cons, ih, mem_dirty_react, react_shuttingDown, List.mem_cons]
    grind

/-- An update of a service that enqueues nothing, though nobody else has claimed the service, has changed nothing that
a sync makes of it; and if it has changed anything of the kind, the service needs work, unless the queue is shut
down. -/
theorem update_passed_over {old new : Service} (hcandidate : old.isCandidate = true ∨ new.isCandidate = true)
    (hunclaimed : new.isUnclaimed = true) :
    (.enqueue (.ofService new) ∉ Routing.onService (.updated old new) → old.Alike new) ∧
    (¬old.Alike new → ∀ s : Site, s.timed.queue.shuttingDown = false →
      .ofService new ∈ (s.onService (.updated old new)).timed.queue.dirty) := by
  have henqueue := Routing.enqueue_mem_onService hcandidate hunclaimed
  constructor
  · intro hpassed
    rw [henqueue, not_not] at hpassed
    exact hpassed.alike
  · intro hunlike s hopen
    have hdiffer : ¬old.Same new := fun h => hunlike h.alike
    exact mem_dirty_reactions.mpr (.inr ⟨hopen, henqueue.mpr hdiffer⟩)

private def stall (annotations : Option StringMap) : Service where
  info := { name := some "web", ns := some "default", uid := some "u1", annotations }
  spec := some { type := some WellKnown.typeLoadBalancer }

private def labelled : Service :=
  { stall (some ∅) with info := { (stall (some ∅)).info with labels := some (.ofList [("tier", "web")]) } }

private def choosy : Service := stall (some (.ofList [(WellKnown.removeUnscheduledBackend, "on")]))

/-- A first label and empty annotations change nothing; other nodes to choose from make for work. -/
theorem update_passed_over_labelled :
    (stall none).Alike labelled ∧ ¬(stall none).Alike choosy ∧
      ⟨"default", "web"⟩ ∈
        (onService { settings := {}, world := {} } (.updated (stall none) choosy)).timed.queue.dirty := by
  have hunlike : ¬(stall none).Alike choosy := by
    intro halike
    have hnodes := halike.nodes [{ unschedulable := true, conditions := [⟨"Ready", "True"⟩] }]
    revert hnodes
    decide
  exact ⟨(update_passed_over (.inl rfl) (by decide)).1 (by decide), hunlike,
    (update_passed_over (.inl rfl) (by decide)).2 hunlike _ rfl⟩

end Simulation.Site
end ServiceBalancer
