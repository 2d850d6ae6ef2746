import ServiceBalancer.Proofs.Cloud.Names
import ServiceBalancer.Proofs.Queue.Demand
import ServiceBalancer.Proofs.Routing
import ServiceBalancer.Proofs.Simulation.Calls
import ServiceBalancer.Simulation.Site
import Mathlib.Logic.Relation

/-! The deletion of a service is pursued until it succeeds. However many rounds of a worker fail, what is remembered of
the service stays and its key waits for the next one; the first round that ends well has deleted the balancer, and
those after it have nothing left to do. -/
namespace ServiceBalancer

@[simp] theorem TimedQueue.queue_change {α ι : Type} (q : TimedQueue α ι) (queue : WorkQueue α) :
    (q.change queue).queue = queue := by
  unfold change
  split
  · simp only [notify]
    split <;> rfl
  · rfl

namespace Simulation
open Sync Relation

/-- A round of a worker: a sync, from the world it met to the one it left. -/
structure Round where
  start : World
  log : Log
  outcome : SyncOutcome
  finish : World

/-- A world and a queue, and the rounds on one key so far, newest first. -/
structure Vigil where
  world : World
  queue : WorkQueue ServiceKey
  rounds : List Round := []

/-- What comes after the news that a service is deleted. -/
def Vigil.begin (s : Site) (svc : Service) : Vigil :=
  ⟨(s.onService (.deleted svc)).world, (s.onService (.deleted svc)).timed.queue, []⟩

variable {settings : SyncSettings} {key : ServiceKey} {svc : Service} {entry : CacheEntry} {time : Nat} {log log' : Log}
  {w w' : World} {v v' : Vigil} {r : Round}

def Absent (key : ServiceKey) (w : World) : Prop := w.cluster.service? key.ns key.name = none

/-- What can happen after a service is deleted, as long as it stays so. Others change the world but for what is
remembered of the service, and use the queue; and a worker takes the key, syncs it, and hands it back. -/
inductive Vigil.Step (settings : SyncSettings) (key : ServiceKey) (v : Vigil) : Vigil → Prop where
  | meanwhile (w : World) : Absent key w → w.cloud.Sound → w.cache.get? key = v.world.cache.get? key →
    Step settings key v { v with world := w }
  | bustle {q : WorkQueue ServiceKey} : v.queue.Bustle key q → Step settings key v { v with queue := q }
  | round {held busy q : WorkQueue ServiceKey} {log : Log} {outcome : SyncOutcome} {w : World} (time : Nat)
    (now errorDelay clock : Duration) (backoff : Backoff) :
    v.queue.take? = some (key, held) → ReflTransGen (WorkQueue.Bustle key) held busy →
    (program settings key).talk (World.answer time) [] v.world = (outcome, log, w) →
    (Worker.handBack busy now key (Worker.requeue? errorDelay clock backoff outcome).1 = .settled q ∨
      ∃ deadline, Worker.handBack busy now key (Worker.requeue? errorDelay clock backoff outcome).1 = .timed q deadline) →
    Step settings key v ⟨w, q, ⟨v.world, log, outcome, w⟩ :: v.rounds⟩

/-! ### Rounds -/

/-- A round that has failed: nothing is forgotten, and no balancer has changed. -/
structure Round.Failed (svc : Service) (r : Round) : Prop where
  outcome : r.outcome ≠ some (.ok ())
  entry : r.finish.cache.get? (.ofService svc) = some (.ofDeleted svc)
  cloud : r.start.cloud.Alike r.finish.cloud

/-- A round that has deleted the balancer of a service. A balancer of its own is gone, and one that the user gave is
empty. -/
structure Round.Deletes (svc : Service) (r : Round) : Prop where
  outcome : r.outcome = some (.ok ())
  told : Deleted svc r.log
  entry : r.finish.cache.get? (.ofService svc) = none
  named : svc.givenBalancerId? = none → r.start.cloud.Unambiguous svc → r.finish.cloud.find? svc = some none
  given : ∀ id b, svc.givenBalancerId? = some id → r.start.cloud.balancers.get? id = some b →
    r.finish.cloud.find? svc = some (some { b with listeners := [], backends := [] })

/-- A round with nothing left to do: it calls for nothing, and fails only where the cluster cannot be read. -/
structure Round.Idle (svc : Service) (r : Round) : Prop where
  quiet : Quiet [] r.start r.log r.finish
  entry : r.finish.cache.get? (.ofService svc) = none
  outcome : r.start.faults.service = [] → r.outcome = some (.ok ())

structure Unmoved (w w' : World) : Prop where
  cloud : w.cloud.Alike w'.cloud
  cache : w'.cache = w.cache
  cluster : w'.cluster = w.cluster

theorem Unmoved.aside {w'' : World} (h : Unmoved w w') (ha : Aside log' w' log w'') : Unmoved w w'' :=
  ⟨by rw [ha.cloud]; exact h.cloud, ha.cache.trans h.cache, ha.cluster.trans h.cluster⟩

/-- A sync of a service that is gone deletes its balancer, or changes nothing that matters. -/
theorem comes_gone (hs : Absent key w) (he : w.cache.get? key = some entry) :
    Comes time (ExceptT.mk (program settings key)) [] w (fun _ log' w' => ∃ log, Removed entry.service log w log' w')
      (fun _ w' => Unmoved w w') := by
  have hreconcile : Comes time (reconcile settings key) [] w (fun _ log' w' => ∃ log, Removed entry.service log w log' w')
      (fun _ w' => Unmoved w w') := by
    refine comes_reading (fun _ e faults => ⟨⟨rfl, rfl⟩, rfl, rfl⟩) (fun svc _ hs' => ?_) (fun entry' _ _ he' => ?_)
      fun _ _ he' => ?_
    · cases hs.symm.trans hs'
    · obtain rfl := Option.some.inj (he.symm.trans he')
      refine comes_delete.mono (fun _ _ _ h => ⟨_, h⟩) fun _ _ h => ?_
      obtain ⟨n, h⟩ := h
      exact ⟨h.cloud, h.cache, h.cluster⟩
    · cases he.symm.trans he'
  refine comes_program hreconcile (fun _ _ _ _ ha => ?_) fun _ _ _ _ ha h => h.aside ha
  rintro ⟨log, h⟩
  exact ⟨log, h.aside ha⟩

/-- A sync of a service that is gone and forgotten does nothing, unless the cluster cannot be read. -/
theorem comes_forgotten (hs : Absent key w) (he : w.cache.get? key = none) :
    Comes time (ExceptT.mk (program settings key)) [] w (fun _ log' w' => Quiet [] w log' w' ∧ w'.cluster = w.cluster)
      (fun log' w' => (Quiet [] w log' w' ∧ w'.cluster = w.cluster) ∧ w.faults.service ≠ []) := by
  have hreconcile : Comes time (reconcile settings key) [] w
      (fun _ log' w' => Quiet [] w log' w' ∧ w'.cluster = w.cluster)
      (fun log' w' => (Quiet [] w log' w' ∧ w'.cluster = w.cluster) ∧ w.faults.service ≠ []) := by
    refine comes_reading (fun hf e faults => ?_) (fun svc _ hs' => ?_) (fun entry _ _ he' => ?_) fun _ _ _ => ?_
    · exact ⟨⟨⟨⟨_, (List.append_nil _).symm, by simp [calls]⟩, rfl, rfl⟩, rfl⟩, hf⟩
    · cases hs.symm.trans hs'
    · cases he.symm.trans he'
    · exact ⟨⟨⟨_, (List.append_nil _).symm, by simp [calls]⟩, rfl, rfl⟩, rfl⟩
  refine comes_program hreconcile (fun _ _ _ _ ha h => ?_) fun _ _ _ _ ha h => ?_
  · exact ⟨h.1.trans ha.toQuiet, ha.cluster.trans h.2⟩
  · exact ⟨⟨h.1.1.trans ha.toQuiet, ha.cluster.trans h.1.2⟩, h.2⟩

theorem round_deletes {outcome : SyncOutcome} (hs : Absent (.ofService svc) w)
    (he : w.cache.get? (.ofService svc) = some (.ofDeleted svc)) (hc : w.cloud.Sound)
    (ht : (program settings (.ofService svc)).talk (World.answer time) [] w = (outcome, log, w'))
    (ho : outcome = some (.ok ())) : Round.Deletes svc ⟨w, log, outcome, w'⟩ := by
  subst ho
  obtain ⟨_, h⟩ := (comes_gone hs he).ok ht
  obtain ⟨c, halike, hok, hcloud⟩ := h.cloud
  refine ⟨rfl, (h.told svc).mpr (.inl rfl), ?_, fun hg hn => ?_, fun id b hg hb => ?_⟩
  · have hcache : w'.cache = w.cache.erase (.ofService svc) := h.cache
    simp [hcache]
  · have hn' : c.Unambiguous svc := by
      intro name hname
      rw [halike.1]
      exact hn name hname
    have hgone := (halike.sound hc).find?_of_delete_named hg hn' hok
    exact hcloud ▸ hgone
  · have hempty := (halike.sound hc).find?_of_delete_given hg (halike.1 ▸ hb) hok
    exact hcloud ▸ hempty

theorem round_failed {outcome : SyncOutcome} (hs : Absent (.ofService svc) w)
    (he : w.cache.get? (.ofService svc) = some (.ofDeleted svc))
    (ht : (program settings (.ofService svc)).talk (World.answer time) [] w = (outcome, log, w'))
    (ho : outcome ≠ some (.ok ())) : Round.Failed svc ⟨w, log, outcome, w'⟩ := by
  have h : Unmoved w w' := (comes_gone hs he).failed ht fun _ => ho
  exact ⟨ho, by rw [h.cache, he], h.cloud⟩

theorem round_idle {outcome : SyncOutcome} (hs : Absent (.ofService svc) w)
    (he : w.cache.get? (.ofService svc) = none)
    (ht : (program settings (.ofService svc)).talk (World.answer time) [] w = (outcome, log, w')) :
    Round.Idle svc ⟨w, log, outcome, w'⟩ := by
  have hcomes : Comes time (ExceptT.mk (program settings (.ofService svc))) [] w _ _ := comes_forgotten hs he
  by_cases ho : outcome = some (.ok ())
  · subst ho
    obtain ⟨hquiet, _⟩ := hcomes.ok ht
    exact ⟨hquiet, by rw [hquiet.cache, he], fun _ => rfl⟩
  · obtain ⟨⟨hquiet, _⟩, hf⟩ := hcomes.failed ht fun _ => ho
    exact ⟨hquiet, by rw [hquiet.cache, he], fun hcalm => absurd hcalm hf⟩

/-! ### The queue of a round -/

/-- After a round the key is held by no one, and due again if the sync has failed. -/
theorem queue_of_round {q held busy q' : WorkQueue ServiceKey} {now errorDelay clock : Duration} {backoff : Backoff}
    {outcome : SyncOutcome} (ho : q.Orderly) (hopen : q.shuttingDown = false) (ht : q.take? = some (key, held))
    (hb : ReflTransGen (WorkQueue.Bustle key) held busy)
    (hq : Worker.handBack busy now key (Worker.requeue? errorDelay clock backoff outcome).1 = .settled q' ∨
      ∃ deadline, Worker.handBack busy now key (Worker.requeue? errorDelay clock backoff outcome).1 = .timed q' deadline) :
    q'.Orderly ∧ q'.shuttingDown = false ∧ key ∉ q'.processing ∧ (outcome ≠ some (.ok ()) → q'.Due key) := by
  have hheld : held.shuttingDown = false ∧ key ∈ held.processing := by
    refine ⟨?_, (WorkQueue.mem_processing_take ht).mpr (.inl rfl)⟩
    obtain ⟨_, rest, _, rfl⟩ := WorkQueue.take?_eq_some.mp ht
    exact hopen
  have hbusy : busy.Orderly ∧ busy.shuttingDown = false ∧ key ∈ busy.processing := by
    clear hq
    induction hb with
    | refl => exact ⟨ho.take ht, hheld⟩
    | tail _ hstep ih =>
      obtain ⟨ho, hopen, hp⟩ := ih
      exact ⟨hstep.orderly ho, hstep.frame.1.trans hopen, hstep.frame.2.mpr hp⟩
  have hdue : outcome ≠ some (.ok ()) → q'.Due key := by
    intro hne
    obtain ⟨r, hr⟩ := Worker.requeue?_isSome errorDelay clock backoff hne
    rw [hr] at hq
    exact Worker.due_handBack hbusy.2.1 hq
  obtain ⟨added, rfl, hadded⟩ := Worker.handBack_settled hq
  have hback : added.Orderly ∧ added.shuttingDown = false ∧ key ∈ added.processing := by
    rcases hadded with rfl | ⟨delay, rfl⟩
    · exact hbusy
    · have hbustle : busy.Bustle key (busy.afterDelayed (busy.addAfter now key delay)) := .addAfter now delay key
      exact ⟨hbustle.orderly hbusy.1, hbustle.frame.1.trans hbusy.2.1, hbustle.frame.2.mpr hbusy.2.2⟩
  refine ⟨hback.1.release hback.2.2, ?_, by simp, hdue⟩
  rw [WorkQueue.release_shuttingDown]
  exact hback.2.1

/-! ### The vigil -/

structure Vigil.Kept (svc : Service) (v : Vigil) : Prop where
  absent : Absent (.ofService svc) v.world
  sound : v.world.cloud.Sound
  orderly : v.queue.Orderly
  isOpen : v.queue.shuttingDown = false
  free : .ofService svc ∉ v.queue.processing

structure Vigil.Pending (svc : Service) (v : Vigil) : Prop where
  rounds : ∀ r ∈ v.rounds, r.Failed svc
  entry : v.world.cache.get? (.ofService svc) = some (.ofDeleted svc)
  due : v.queue.Due (.ofService svc)

/-- A round has deleted the balancer, after some that failed and before some with nothing left to do. -/
structure Vigil.Over (svc : Service) (v : Vigil) : Prop where
  rounds : ∃ later r earlier, v.rounds = later ++ r :: earlier ∧ (∀ x ∈ earlier, x.Failed svc) ∧ r.Deletes svc ∧
    ∀ x ∈ later, x.Idle svc
  entry : v.world.cache.get? (.ofService svc) = none

/-- What a sync leaves of the world while its service is absent. -/
theorem kept_of_round {outcome : SyncOutcome} (hs : Absent (.ofService svc) w) (hc : w.cloud.Sound)
    (he : w.cache.get? (.ofService svc) = some (.ofDeleted svc) ∨ w.cache.get? (.ofService svc) = none)
    (ht : (program settings (.ofService svc)).talk (World.answer time) [] w = (outcome, log, w')) :
    Absent (.ofService svc) w' ∧ w'.cloud.Sound := by
  have same : w'.cluster = w.cluster → Absent (.ofService svc) w' := fun hcluster => by rw [Absent, hcluster]; exact hs
  by_cases ho : outcome = some (.ok ())
  · subst ho
    rcases he with he | he
    · obtain ⟨_, h⟩ := (comes_gone hs he).ok ht
      obtain ⟨c, halike, _, hcloud⟩ := h.cloud
      exact ⟨same h.cluster, hcloud ▸ (halike.sound hc).delete _⟩
    · obtain ⟨hquiet, hcluster⟩ := (comes_forgotten hs he).ok ht
      exact ⟨same hcluster, hquiet.cloud ▸ hc⟩
  · rcases he with he | he
    · have h : Unmoved w w' := (comes_gone hs he).failed ht fun _ => ho
      exact ⟨same h.cluster, h.cloud.sound hc⟩
    · obtain ⟨⟨hquiet, hcluster⟩, _⟩ := (comes_forgotten hs he).failed ht fun _ => ho
      exact ⟨same hcluster, hquiet.cloud ▸ hc⟩

theorem Vigil.Kept.step (h : v.Kept svc) (he : v.Pending svc ∨ v.Over svc) (hstep : v.Step settings (.ofService svc) v') :
    v'.Kept svc := by
  cases hstep with
  | meanwhile w hs hc _ => exact ⟨hs, hc, h.orderly, h.isOpen, h.free⟩
  | bustle hb =>
    exact ⟨h.absent, h.sound, hb.orderly h.orderly, hb.frame.1.trans h.isOpen, fun hp => h.free (hb.frame.2.mp hp)⟩
  | round time now errorDelay clock backoff ht hb htalk hq =>
    obtain ⟨ho, hopen, hfree, _⟩ := queue_of_round h.orderly h.isOpen ht hb hq
    have hentry := he.imp Vigil.Pending.entry Vigil.Over.entry
    obtain ⟨hs, hc⟩ := kept_of_round h.absent h.sound hentry htalk
    exact ⟨hs, hc, ho, hopen, hfree⟩

/-- While the deletion is pending, a round that fails leaves it so. -/
theorem Vigil.Pending.step (h : v.Pending svc) (hk : v.Kept svc) (hstep : v.Step settings (.ofService svc) v') :
    v'.Pending svc ∨ v'.Over svc := by
  cases hstep with
  | meanwhile w _ _ hcache => exact .inl ⟨h.rounds, hcache.trans h.entry, h.due⟩
  | bustle hb => exact .inl ⟨h.rounds, h.entry, hb.due hk.isOpen h.due⟩
  | @round held busy q log outcome w time now errorDelay clock backoff ht hb htalk hq =>
    by_cases ho : outcome = some (.ok ())
    · have hdeletes := round_deletes hk.absent h.entry hk.sound htalk ho
      exact .inr ⟨⟨[], _, v.rounds, rfl, h.rounds, hdeletes, by simp⟩, hdeletes.entry⟩
    · have hfailed := round_failed hk.absent h.entry htalk ho
      obtain ⟨_, _, _, hdue⟩ := queue_of_round hk.orderly hk.isOpen ht hb hq
      refine .inl ⟨fun r hr => ?_, hfailed.entry, hdue ho⟩
      rcases List.mem_cons.mp hr with rfl | hr
      · exact hfailed
      · exact h.rounds r hr

theorem Vigil.Over.step (h : v.Over svc) (hk : v.Kept svc) (hstep : v.Step settings (.ofService svc) v') : v'.Over svc := by
  cases hstep with
  | meanwhile w _ _ hcache => exact ⟨h.rounds, hcache.trans h.entry⟩
  | bustle hb => exact ⟨h.rounds, h.entry⟩
  | round time now errorDelay clock backoff ht hb htalk hq =>
    have hidle := round_idle hk.absent h.entry htalk
    obtain ⟨later, r, earlier, hrounds, hearlier, hr, hlater⟩ := h.rounds
    refine ⟨⟨_ :: later, r, earlier, congrArg (_ :: ·) hrounds, hearlier, hr, fun x hx => ?_⟩, hidle.entry⟩
    rcases List.mem_cons.mp hx with rfl | hx
    · exact hidle
    · exact hlater x hx

/-- The news of a deletion makes it pending. -/
theorem pending_begin {s : Site} (hb : svc.hasBalancerType = true) (hu : svc.isUnclaimed = true)
    (hs : Absent (.ofService svc) s.world) (hc : s.world.cloud.Sound) (hq : s.timed.queue.Orderly)
    (ho : s.timed.queue.shuttingDown = false) (hp : .ofService svc ∉ s.timed.queue.processing) :
    (Vigil.begin s svc).Kept svc ∧ (Vigil.begin s svc).Pending svc := by
  have hworld : (Vigil.begin s svc).world =
      { s.world with cache := s.world.cache.insert (.ofService svc) (.ofDeleted svc) } := by
    simp [Vigil.begin, Site.onService, Routing.onService_deleted hb hu, Site.react]
  have hqueue : (Vigil.begin s svc).queue = s.timed.queue.add (.ofService svc) := by
    simp [Vigil.begin, Site.onService, Routing.onService_deleted hb hu, Site.react, TimedQueue.add]
  refine ⟨⟨?_, ?_, ?_, ?_, ?_⟩, ⟨by simp [Vigil.begin], ?_, ?_⟩⟩
  · rw [hworld]
    exact hs
  · rw [hworld]
    exact hc
  · rw [hqueue]
    exact hq.add _
  · rw [hqueue, WorkQueue.add_shuttingDown]
    exact ho
  · rw [hqueue, WorkQueue.add_processing]
    exact hp
  · simp [hworld]
  · rw [hqueue]
    exact WorkQueue.due_add ho

/-- Whatever the state of cache, cloud and queue in which a service is deleted, and whatever fails from then on, the
deletion is pending until a round has deleted the balancer. Up to then the key is ready or waits for its timer after
each round, with the service in the memory; from then on the service is forgotten, and nothing more is called for. -/
theorem deletion_pursued {s : Site} (hb : svc.hasBalancerType = true) (hu : svc.isUnclaimed = true)
    (hs : Absent (.ofService svc) s.world) (hc : s.world.cloud.Sound) (hq : s.timed.queue.Orderly)
    (ho : s.timed.queue.shuttingDown = false) (hp : .ofService svc ∉ s.timed.queue.processing)
    (hrun : ReflTransGen (Vigil.Step settings (.ofService svc)) (Vigil.begin s svc) v) :
    ((∀ r ∈ v.rounds, r.Failed svc) ∧ v.world.cache.get? (.ofService svc) = some (.ofDeleted svc) ∧
      (.ofService svc ∈ v.queue.ready ∨ ∃ deadline, (.ofService svc, deadline) ∈ v.queue.waiting)) ∨ v.Over svc := by
  have hall : v.Kept svc ∧ (v.Pending svc ∨ v.Over svc) := by
    induction hrun with
    | refl =>
      obtain ⟨hk, hpending⟩ := pending_begin hb hu hs hc hq ho hp
      exact ⟨hk, .inl hpending⟩
    | tail _ hstep ih =>
      obtain ⟨hk, h⟩ := ih
      refine ⟨hk.step h hstep, ?_⟩
      rcases h with hpending | hover
      · exact hpending.step hk hstep
      · exact .inr (hover.step hk hstep)
  obtain ⟨hk, h⟩ := hall
  refine h.imp_left fun hpending => ⟨hpending.rounds, hpending.entry, ?_⟩
  exact hk.orderly.ready_or_waiting hk.isOpen hpending.due hk.free

/-- A controller in a cloud with the balancer of a service that is gone. The next call of the cloud fails. -/
def bereft : Site where
  settings := {}
  world := { cloud := (({} : MemoryCloud).ensure (kiosk "u1") []).2.inject "InternalError" }

private def attempt (time : Nat) (w : World) : Upshot Unit :=
  (program { deleteRetry := { steps := 1 } } (.ofService (kiosk "u1"))).talk (World.answer time) [] w

private theorem bereft_rounds : ∃ outcome₁ log₁ w₁ outcome₂ log₂ w₂,
    attempt 0 (Vigil.begin bereft (kiosk "u1")).world = (outcome₁, log₁, w₁) ∧
    attempt 1000 w₁ = (outcome₂, log₂, w₂) ∧
    (Worker.requeue? .zero .zero ⟨{}, none, none⟩ outcome₁).1 = some ⟨"error", .zero⟩ ∧
    (Worker.requeue? .zero .zero ⟨{}, none, none⟩ outcome₂).1 = none ∧ outcome₁.any Except.isOk = false ∧
    outcome₂.any Except.isOk = true := by
  have h : (fun first second : Upshot Unit =>
      (Worker.requeue? .zero .zero ⟨{}, none, none⟩ first.1).1 = some ⟨"error", .zero⟩ ∧
        (Worker.requeue? .zero .zero ⟨{}, none, none⟩ second.1).1 = none ∧ first.1.any Except.isOk = false ∧
        second.1.any Except.isOk = true) (attempt 0 (Vigil.begin bereft (kiosk "u1")).world)
      (attempt 1000 (attempt 0 (Vigil.begin bereft (kiosk "u1")).world).2.2) := by
    decide +kernel
  rcases hfirst : attempt 0 (Vigil.begin bereft (kiosk "u1")).world with ⟨outcome₁, log₁, w₁⟩
  rw [hfirst] at h
  rcases hsecond : attempt 1000 w₁ with ⟨outcome₂, log₂, w₂⟩
  dsimp only at h
  rw [hsecond] at h
  exact ⟨_, _, _, _, _, _, rfl, hsecond, h⟩

/-- The first round fails, and the second deletes the balancer. -/
theorem deletion_pursued_bereft : ∃ v,
    ReflTransGen (Vigil.Step { deleteRetry := { steps := 1 } } (.ofService (kiosk "u1")))
      (Vigil.begin bereft (kiosk "u1")) v ∧
    v.rounds.map (fun r => r.outcome.any Except.isOk) = [true, false] ∧ v.Over (kiosk "u1") := by
  obtain ⟨outcome₁, log₁, w₁, outcome₂, log₂, w₂, hfirst, hsecond, hback₁, hback₂, hbad, hgood⟩ := bereft_rounds
  let idle : WorkQueue ServiceKey := { processing := [.ofService (kiosk "u1")] }
  let back : WorkQueue ServiceKey := (idle.add (.ofService (kiosk "u1"))).release (.ofService (kiosk "u1"))
  have htake₁ : (Vigil.begin bereft (kiosk "u1")).queue.take? = some (.ofService (kiosk "u1"), idle) := rfl
  have htake₂ : back.take? = some (.ofService (kiosk "u1"), idle) := rfl
  have hgive₁ : Worker.handBack idle .zero (.ofService (kiosk "u1"))
      (Worker.requeue? .zero .zero ⟨{}, none, none⟩ outcome₁).1 = .settled back := by
    rw [hback₁]
    rfl
  have hgive₂ : Worker.handBack idle .zero (.ofService (kiosk "u1"))
      (Worker.requeue? .zero .zero ⟨{}, none, none⟩ outcome₂).1 = .settled (idle.release (.ofService (kiosk "u1"))) := by
    rw [hback₂]
    rfl
  have hrun := (ReflTransGen.single (Vigil.Step.round 0 _ _ _ _ htake₁ .refl hfirst (.inl hgive₁))).tail
    (.round 1000 _ _ _ _ htake₂ .refl hsecond (.inl hgive₂))
  have hcloud : bereft.world.cloud.Reachable := .inject _ (.ensure _ _ (.new _))
  have habsent : Absent (.ofService (kiosk "u1")) bereft.world := rfl
  have hend := deletion_pursued (by decide) (by decide) habsent hcloud.sound (WorkQueue.orderly_new _) rfl
    (by simp [bereft]) hrun
  refine ⟨_, hrun, by simp [Vigil.begin, hbad, hgood], hend.resolve_left fun hpending => ?_⟩
  have hfailed := (hpending.1 ⟨w₁, log₂, outcome₂, w₂⟩ (.head _)).outcome
  rcases outcome₂ with _ | e | ⟨⟩
  · cases hgood
  · cases hgood
  · exact hfailed rfl

end Simulation
end ServiceBalancer
