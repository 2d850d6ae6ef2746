import ServiceBalancer.Proofs.Queue.Deadlines
import ServiceBalancer.Proofs.Simulation.Deletion

/-! How a worker gives a key back. Whatever came of its sync and whatever others do to the queue between the two steps
of it, a key that failed is ready or due in time, one that did not is ready if it was added again, and the worker goes
on. -/
namespace ServiceBalancer

namespace Worker
variable {α : Type} [DecidableEq α] {q : WorkQueue α} {a : α} {now errorDelay clock : Duration} {r : Requeue}
  {requeue : Option Requeue}

def putBack (q : WorkQueue α) (now : Duration) (a : α) : Option Requeue → WorkQueue α
  | none => q
  | some r => q.afterDelayed (q.addAfter now a r.delay)

/-- Handing an item back is to put it back and to release it. -/
theorem afterDelayed_handBack (h : handBack q now a requeue ≠ .overflow) :
    q.afterDelayed (handBack q now a requeue) = (putBack q now a requeue).release a := by
  cases requeue with
  | none => rfl
  | some r =>
    simp only [handBack, putBack] at h ⊢
    cases hd : q.addAfter now a r.delay with
    | settled q' => rfl
    | timed q' deadline => rfl
    | overflow => simp [hd] at h

theorem addAfter_of_handBack (h : handBack q now a (some r) ≠ .overflow) : q.addAfter now a r.delay ≠ .overflow := by
  intro hd
  simp [handBack, hd] at h

/-- A worker puts a key back exactly if its sync did not go well. Throttling moves the backoff by one delay; after all
other failures the fixed delay counts. -/
theorem requeue?_cases (errorDelay clock : Duration) (b : Backoff) (outcome : SyncOutcome) :
    outcome = some (.ok ()) ∧ requeue? errorDelay clock b outcome = (none, b) ∨
    (∃ e, outcome = some (.error e) ∧ e.isThrottled = true) ∧
      requeue? errorDelay clock b outcome = (some ⟨"throttled", (b.next clock).1⟩, (b.next clock).2) ∨
    outcome ≠ some (.ok ()) ∧ (∀ e, outcome = some (.error e) → e.isThrottled = false) ∧
      ∃ reason, requeue? errorDelay clock b outcome = (some ⟨reason, errorDelay⟩, b) := by
  rcases outcome with _ | e | ⟨⟩
  · exact .inr (.inr ⟨by simp, by simp, "panic", rfl⟩)
  · by_cases he : e.isThrottled
    · exact .inr (.inl ⟨⟨e, rfl, he⟩, by simp [requeue?, he]⟩)
    · refine .inr (.inr ⟨by simp, fun e' h => ?_, "error", by simp [requeue?, he]⟩)
      obtain rfl : e = e' := by simpa using h
      simpa using he
  · exact .inl ⟨rfl, rfl⟩

end Worker

/-- A delayed add within what the clock can show is taken over as it is, and its timer is set if it has one. -/
theorem TimedQueue.delayed?_eq_some {α ι : Type} [DecidableEq α] (q : TimedQueue α ι) (a : α)
    {delayed : WorkQueue.Delayed α} (h : delayed ≠ .overflow) : ∃ q', q.delayed? a delayed = some q' ∧
      q'.queue = q.queue.afterDelayed delayed ∧
      ∀ queue deadline, delayed = .timed queue deadline → .setTimer a deadline ∈ q'.agenda.ready := by
  cases delayed with
  | settled queue => exact ⟨_, rfl, q.queue_change queue, fun _ _ h => by cases h⟩
  | timed queue deadline =>
    refine ⟨_, rfl, q.queue_change queue, fun _ _ h => ?_⟩
    cases h
    exact List.mem_append_right _ (.head _)
  | overflow => exact absurd rfl h

namespace Custody
variable {α ι : Type} [DecidableEq α] [DecidableEq ι] {s t u : Custody α ι} {es later : List (Effect α)} {who : ι}
  {k : α} {now : Duration} {requeue : Option Requeue}

/-- A queue in use, after a worker has put an item back that it has not released yet, if it has to be put back. -/
def putBack (s : Custody α ι) (now : Duration) (k : α) (requeue : Option Requeue) : Custody α ι :=
  { s with queue := Worker.putBack s.queue now k requeue }

theorem Kept.putBack (h : s.Kept) (now : Duration) (k : α) (requeue : Option Requeue) :
    (s.putBack now k requeue).Kept := by
  cases requeue with
  | none => exact h
  | some r => exact h.act (show s.act? (.addAfter now k r.delay) = some _ from rfl)

omit [DecidableEq α] [DecidableEq ι] in
theorem Kept.processing_of_held (h : s.Kept) (hm : (who, k) ∈ s.held) : k ∈ s.queue.processing :=
  (h.holds k).mpr (List.mem_map.mpr ⟨_, hm, rfl⟩)

theorem act?_release (h : t.act? (.release who k) = some u) :
    (who, k) ∈ t.held ∧ u.queue = t.queue.release k := by
  simp only [act?] at h
  split_ifs at h with hm
  exact ⟨hm, congrArg Custody.queue (Option.some.inj h).symm⟩

/-- Who releases an item does not hold it any more, nor does anyone else. -/
theorem Kept.free_of_release (ht : t.Kept) (hdone : t.act? (.release who k) = some u) :
    k ∉ u.queue.processing ∧ ∀ other, (other, k) ∉ u.held := by
  have hfree : k ∉ u.queue.processing := by rw [(act?_release hdone).2]; simp
  exact ⟨hfree, fun other hm => hfree ((ht.act hdone).processing_of_held hm)⟩

/-- A released item is ready if it needs work and the queue is open, and else is not. -/
theorem Kept.ready_of_release (ht : t.Kept) (hdone : t.act? (.release who k) = some u) :
    k ∈ u.queue.ready ↔ t.queue.shuttingDown = false ∧ k ∈ t.queue.dirty := by
  obtain ⟨hm, hu⟩ := act?_release hdone
  have hr : k ∉ t.queue.ready := fun hr => ht.orderly.free k hr (ht.processing_of_held hm)
  rw [hu, WorkQueue.release_ready]
  split_ifs with hd
  · simpa using hd.symm
  · simp only [hr, false_iff]
    rintro ⟨ho, hdirty⟩
    exact hd ⟨hdirty, by simp [ho]⟩

/-- What was put back and is released at last is ready, or has a deadline: one in time, and none later than before. -/
theorem Kept.returns_in_time (hs : s.Kept) {r : Requeue} (hclock : Worker.handBack s.queue now k (some r) ≠ .overflow)
    (hlater : Run (s.putBack now k (some r)) later t) (hkeeps : .handout k ∉ later)
    (hdone : t.act? (.release who k) = some u) (ho : u.queue.shuttingDown = false) :
    k ∈ u.queue.ready ∨ ∃ deadline, u.queue.deadline? k = some deadline ∧
      deadline ≤ ⟨now.nanos + r.delay.nanos⟩ ∧ ∀ earlier, s.queue.deadline? k = some earlier → deadline ≤ earlier := by
  have hopen : t.queue.shuttingDown = false := open_of_act hdone ho
  have hstart : s.queue.shuttingDown = false := by
    have hopen := hlater.open_start hopen
    rcases s.queue.addAfter_cases now k r.delay with ⟨_, he⟩ | ⟨_, waiting, he⟩ <;>
      simpa [Custody.putBack, Worker.putBack, he] using hopen
  have ht : t.Kept := (hs.putBack now k (some r)).run hlater
  have hdue {latest : Duration} (h : (Worker.putBack s.queue now k (some r)).DueBy k latest) :
      t.queue.DueBy k latest := dueBy_run hlater hopen hkeeps h
  rcases hdue (WorkQueue.dueBy_addAfter hstart (Worker.addAfter_of_handBack hclock)) with hd | ⟨deadline, hd, hle⟩
  · exact .inl ((ht.ready_of_release hdone).mpr ⟨hopen, hd⟩)
  · by_cases hdirty : k ∈ t.queue.dirty
    · exact .inl ((ht.ready_of_release hdone).mpr ⟨hopen, hdirty⟩)
    refine .inr ⟨deadline, ?_, hle, fun earlier he => ?_⟩
    · rw [(act?_release hdone).2, WorkQueue.release_deadline?, hd]
    · obtain ⟨deadline', hd', hle'⟩ := (hdue (WorkQueue.dueBy_of_deadline he).addAfter).resolve_left hdirty
      obtain rfl := Option.some.inj (hd.symm.trans hd')
      exact hle'

end Custody

namespace Simulation
variable {s next : Site} {index : Nat} {w : WorkerState} {key : ServiceKey} {b : Backoff}
  {rest : Program Sync.Answer (Except Error Unit)} {outcome : SyncOutcome}

def outcomeOf? : Program.Progress Sync.Answer (Except Error Unit) → Option SyncOutcome
  | .finished result => some (some result)
  | .broken => some none
  | .paused _ _ | .stuck => none

/-- A worker goes on at once from one state of a site to another, where it asks for a key. If one is ready, the worker
goes on with its sync. -/
structure Site.GoesOn (s next : Site) (index : Nat) (b : Backoff) : Prop where
  goes : ∀ fuel, s.work index (fuel + 1) = next.work index fuel
  asks : next.workers[index]? = some ⟨b, .asking⟩
  takes : ∀ key queue, next.timed.queue.take? = some (key, queue) → ∃ after : Site,
    (∀ fuel, next.work index (fuel + 1) = after.work index fuel) ∧
      after.workers[index]? = some ⟨b, .syncing key (Sync.program s.syncSettings key)⟩ ∧ after.timed.queue = queue

theorem Site.work_of_stage (h : s.stage index = (true, next)) (fuel : Nat) :
    s.work index (fuel + 1) = next.work index fuel := by
  rw [Site.work, h]

/-- A worker that asks a queue with a ready key gets it and starts its sync. -/
theorem Site.takes_of_asking (hw : s.workers[index]? = some ⟨b, .asking⟩) {queue : WorkQueue ServiceKey}
    (ht : s.timed.queue.take? = some (key, queue)) : ∃ after : Site,
    (∀ fuel, s.work index (fuel + 1) = after.work index fuel) ∧
      after.workers[index]? = some ⟨b, .syncing key (Sync.program s.syncSettings key)⟩ ∧ after.timed.queue = queue := by
  have hopen : s.timed.queue.shuttingDown = false := (WorkQueue.take?_eq_some.mp ht).1
  have hpoll : s.timed.poll (.worker index) = (.item key, { s.timed with queue }) := by
    simp [TimedQueue.poll, hopen, ht]
  have hindex : index < s.workers.length := (List.getElem?_eq_some_iff.mp hw).1
  refine ⟨{ s with timed := { s.timed with queue } }.setWorker index
    ⟨b, .syncing key (Sync.program s.syncSettings key)⟩, Site.work_of_stage ?_, ?_, rfl⟩
  · simp only [Site.stage, hw, hpoll]
    rfl
  · simp [Site.setWorker, hindex]

/-- A worker whose sync has ended hands its key back and asks for the next, unless the delay is past what the clock can
show. -/
theorem Site.goes_on {requeue : Option Requeue} (hw : s.workers[index]? = some w)
    (hsync : w.activity = .syncing key rest)
    (hend : outcomeOf? (rest.advance (World.reply s.now) s.world).1 = some outcome)
    (hverdict : Worker.requeue? s.settings.errorRequeue quietClock w.backoff outcome = (requeue, b))
    (hclock : Worker.handBack s.timed.queue s.timed.agenda.clock key requeue ≠ .overflow) :
    ∃ next : Site, s.GoesOn next index b ∧
      next.timed.queue = (Worker.putBack s.timed.queue s.timed.agenda.clock key requeue).release key ∧
      ∀ queue deadline, Worker.handBack s.timed.queue s.timed.agenda.clock key requeue = .timed queue deadline →
        .setTimer key deadline ∈ next.timed.agenda.ready := by
  have hindex : index < s.workers.length := (List.getElem?_eq_some_iff.mp hw).1
  obtain ⟨timed, htimed, hqueue, htimer⟩ := s.timed.delayed?_eq_some key hclock
  have hfinish : ∀ world, ∃ world', { s with world }.finishSync index w key outcome =
      (true, { s with timed, world := world' }.setWorker index ⟨b, .asking⟩) := by
    intro world
    simp only [finishSync, hverdict, htimed]
    exact ⟨_, rfl⟩
  have hstage : ∃ world', s.stage index = (true, { s with timed, world := world' }.setWorker index ⟨b, .asking⟩) := by
    simp only [stage, hw, hsync]
    rcases hp : rest.advance (World.reply s.now) s.world with ⟨progress, world⟩
    rw [hp] at hend
    cases progress with
    | finished result =>
      obtain rfl := Option.some.inj hend
      exact hfinish world
    | broken =>
      obtain rfl := Option.some.inj hend
      exact hfinish world
    | paused pause rest => cases hend
    | stuck => cases hend
  obtain ⟨world', hstage⟩ := hstage
  have hasks : ({ s with timed, world := world' }.setWorker index ⟨b, .asking⟩).workers[index]? =
      some ⟨b, .asking⟩ := by simp [setWorker, hindex]
  exact ⟨_, ⟨Site.work_of_stage hstage, hasks, fun _ _ ht => Site.takes_of_asking hasks ht⟩,
    hqueue.trans (Worker.afterDelayed_handBack hclock), htimer⟩

end Simulation

/-- What has become of a key that a worker took, synced and put back, and then released after a history of the queue. -/
structure Custody.Returned {ι : Type} (outcome : SyncOutcome) (requeue : Option Requeue) (now : Duration)
    (key : ServiceKey) (before : WorkQueue ServiceKey) (history : List (Effect ServiceKey)) (u : Custody ServiceKey ι) :
    Prop where
  free : key ∉ u.queue.processing ∧ ∀ who, (who, key) ∉ u.held
  /-- An earlier deadline is kept, and there is one in time unless the key is ready. -/
  failed : outcome ≠ some (.ok ()) → ∃ r, requeue = some r ∧
    (∀ earlier, before.deadline? key = some earlier → earlier ≤ ⟨now.nanos + r.delay.nanos⟩ →
      (Worker.putBack before now key requeue).deadline? key = some earlier) ∧
    (u.queue.shuttingDown = false → key ∈ u.queue.ready ∨ ∃ deadline, u.queue.deadline? key = some deadline ∧
      deadline ≤ ⟨now.nanos + r.delay.nanos⟩ ∧ ∀ earlier, before.deadline? key = some earlier → deadline ≤ earlier)
  succeeded : outcome = some (.ok ()) →
    (key ∈ u.queue.ready ↔ u.queue.shuttingDown = false ∧ Signalled key history)

namespace Simulation
open Custody
variable {ι : Type} [DecidableEq ι]

/-- No worker loses a key. However its sync has ended, and whatever others do to the queue before the key is released,
the key is in no hand then. One that failed is ready, or has a deadline no later than its delay asks for and than it had
before, until the queue is shut down; one that did not fail is ready exactly if it was added again and the queue is
not shut down. Only throttling moves the backoff, and the worker goes on. -/
theorem key_given_back {errorDelay clock : Duration} {b b' : Backoff} {outcome : SyncOutcome}
    {requeue : Option Requeue} (hverdict : Worker.requeue? errorDelay clock b outcome = (requeue, b')) :
    ((∃ e, outcome = some (.error e) ∧ e.isThrottled = true) ∧ requeue = some ⟨"throttled", (b.next clock).1⟩ ∧
        b' = (b.next clock).2 ∨
      (∀ e, outcome = some (.error e) → e.isThrottled = false) ∧ b' = b ∧
        ∀ r, requeue = some r → r.delay = errorDelay) ∧
    (∀ (name : String) (es later : List (Effect ServiceKey)) (s t u : Custody ServiceKey ι) (who : ι) (key : ServiceKey)
      (now : Duration), Run (opened name) es s → Worker.handBack s.queue now key requeue ≠ .overflow →
      Run (s.putBack now key requeue) later t → .handout key ∉ later →
      t.act? (.release who key) = some u → Returned outcome requeue now key s.queue (later ++ es) u) ∧
    ∀ (s : Site) (index : Nat) (w : WorkerState) (key : ServiceKey) (rest : Program Sync.Answer (Except Error Unit)),
      s.settings.errorRequeue = errorDelay → Site.quietClock = clock → w.backoff = b → s.workers[index]? = some w →
      w.activity = .syncing key rest → outcomeOf? (rest.advance (World.reply s.now) s.world).1 = some outcome →
      Worker.handBack s.timed.queue s.timed.agenda.clock key requeue ≠ .overflow →
      ∃ next : Site, s.GoesOn next index b' ∧
        next.timed.queue = (Worker.putBack s.timed.queue s.timed.agenda.clock key requeue).release key ∧
        ∀ queue deadline, Worker.handBack s.timed.queue s.timed.agenda.clock key requeue = .timed queue deadline →
          .setTimer key deadline ∈ next.timed.agenda.ready := by
  refine ⟨?_, ?_, ?_⟩
  · rcases Worker.requeue?_cases errorDelay clock b outcome with ⟨rfl, he⟩ | ⟨hthrottled, he⟩ | ⟨_, hother, reason, he⟩
    · obtain ⟨rfl, rfl⟩ := Prod.mk.inj (he.symm.trans hverdict)
      exact .inr ⟨by simp, rfl, by simp⟩
    · obtain ⟨rfl, rfl⟩ := Prod.mk.inj (he.symm.trans hverdict)
      exact .inl ⟨hthrottled, rfl, rfl⟩
    · obtain ⟨rfl, rfl⟩ := Prod.mk.inj (he.symm.trans hverdict)
      exact .inr ⟨hother, rfl, fun r h => by rw [← Option.some.inj h]⟩
  · intro name es later s t u who key now hs hclock hlater hkeeps hdone
    have hkept : s.Kept := (kept_opened name).run hs
    have ht : t.Kept := (hkept.putBack now key requeue).run hlater
    refine ⟨ht.free_of_release hdone, fun hfailed => ?_, fun hok => ?_⟩
    · obtain ⟨r, hr⟩ := Worker.requeue?_isSome errorDelay clock b hfailed
      rw [hverdict] at hr
      obtain rfl : requeue = some r := hr
      exact ⟨r, rfl, fun earlier he hle => WorkQueue.addAfter_keeps_deadline he fun _ => hle,
        hkept.returns_in_time hclock hlater hkeeps hdone⟩
    · subst hok
      obtain ⟨rfl, rfl⟩ := Prod.mk.inj hverdict
      have hopen : u.queue.shuttingDown = t.queue.shuttingDown := by rw [(act?_release hdone).2]; simp
      rw [ht.ready_of_release hdone, hopen]
      exact and_congr_right fun ho => mem_dirty_iff (hs.trans hlater) ho
  · rintro s index w key rest rfl rfl rfl hw hsync hend hclock
    exact Site.goes_on hw hsync hend hverdict hclock

private def throttledFailure : Error := .cloud ⟨.throttled, "ErrorCode: Throttling"⟩

private def inFiveSeconds : Requeue := ⟨"throttled", .ofSeconds 5⟩

private def webKey : ServiceKey := ⟨"default", "web"⟩

private def mailKey : ServiceKey := ⟨"default", "mail"⟩

private def atTheEnd : Site where
  settings := {}
  world := {}
  timed := { queue := { ready := [mailKey], dirty := [mailKey], processing := [webKey] } }
  workers := [{ backoff := { settings := {} }, activity := .syncing webKey (.done (.error throttledFailure)) }]

private def inHand : Custody ServiceKey Nat where
  queue := { name := "service", processing := [webKey], waiting := [(webKey, .ofSeconds 3)] }
  held := [(7, webKey)]

private theorem run_inHand : Run (opened "service") [.quiet, .handout webKey, .signal webKey] inHand := by
  have hadd := Run.start.next (show act? (opened "service" : Custody ServiceKey Nat) (.add webKey) = some _ from rfl)
  have hget := hadd.next (show act? _ (.get 7) = some _ from rfl)
  exact hget.next (show act? _ (.addAfter .zero webKey (.ofSeconds 3)) = some inHand from rfl)

/-- The sync of the key is throttled after a second. The five seconds of the backoff do not put it off: the timer fires
before the key is released, which is ready then. And the worker goes on with another key. -/
theorem key_given_back_throttled :
    (∃ t u, Run (inHand.putBack (.ofSeconds 1) webKey (some inFiveSeconds)) [.signal webKey] t ∧
      t.act? (.release 7 webKey) = some u ∧ u.queue.ready = [webKey] ∧
      Returned (some (.error throttledFailure)) (some inFiveSeconds) (.ofSeconds 1) webKey inHand.queue
        [.signal webKey, .quiet, .handout webKey, .signal webKey] u) ∧
    ∃ next, atTheEnd.GoesOn next 0 ⟨{}, some (.ofSeconds 5), some .zero⟩ ∧
      next.timed.queue.deadline? webKey = some (.ofSeconds 5) ∧
      .setTimer webKey (.ofSeconds 5) ∈ next.timed.agenda.ready ∧
      ∃ queue, next.timed.queue.take? = some (mailKey, queue) := by
  have hverdict : Worker.requeue? (.ofSeconds 5) .zero { settings := {} } (some (.error throttledFailure)) =
      (some inFiveSeconds, ⟨{}, some (.ofSeconds 5), some .zero⟩) := rfl
  obtain ⟨_, hreturned, hgoes⟩ := @key_given_back Nat _ _ _ _ _ _ _ hverdict
  constructor
  · have hsettled : Worker.handBack inHand.queue (.ofSeconds 1) webKey (some inFiveSeconds) =
        .settled (inHand.queue.release webKey) := rfl
    have hlater : Run (inHand.putBack (.ofSeconds 1) webKey (some inFiveSeconds)) _ _ :=
      Run.start.next (show act? _ (.fire webKey (.ofSeconds 3)) = some _ from rfl)
    exact ⟨_, _, hlater, rfl, rfl, hreturned _ _ _ _ _ _ 7 _ (.ofSeconds 1) run_inHand (by simp [hsettled]) hlater
      (by decide) rfl⟩
  · obtain ⟨next, hnext, hqueue, htimer⟩ := hgoes atTheEnd 0 _ webKey (.done (.error throttledFailure))
      rfl rfl rfl rfl rfl rfl nofun
    refine ⟨next, hnext, ?_, htimer _ _ rfl, ?_⟩
    · rw [hqueue]
      decide
    · rw [hqueue]
      exact ⟨_, rfl⟩

/-- A key that was added again is not ready after a sync that went well, if the queue was shut down meanwhile. -/
theorem not_ready_shut_down :
    ¬∀ (errorDelay clock now : Duration) (b : Backoff) (es later : List (Effect ServiceKey))
      (s t u : Custody ServiceKey Nat) (who : Nat) (key : ServiceKey), Run (opened "service") es s →
      Run (s.putBack now key (Worker.requeue? errorDelay clock b (some (.ok ()))).1) later t →
      .handout key ∉ later → t.act? (.release who key) = some u →
      (key ∈ u.queue.ready ↔ Signalled key (later ++ es)) := by
  intro hready
  have hadded := Run.start.next (show inHand.act? (.add webKey) = some _ from rfl)
  have hlater := hadded.next (show act? _ .shutDown = some _ from rfl)
  have hiff := hready .zero .zero .zero { settings := {} } _ _ _ _ _ 7 webKey run_inHand hlater (by decide) rfl
  have hsignalled : Signalled webKey [.quiet, .signal webKey, .quiet, .handout webKey, .signal webKey] :=
    signalled_cons.mpr (.inr ⟨by decide, signalled_cons.mpr (.inl rfl)⟩)
  have hmem := hiff.mpr hsignalled
  revert hmem
  decide

end Simulation
end ServiceBalancer
