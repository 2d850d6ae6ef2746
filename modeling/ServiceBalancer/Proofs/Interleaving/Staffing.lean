import ServiceBalancer.Proofs.Interleaving.Scene
import ServiceBalancer.Proofs.Queue.Demand

/-! Who is at which key. Whatever is done, a worker holds the key that it is at, no two are at the same, and every
sync goes by its protocol. So a move lets a sync of a key start, go on or end, or it leaves the syncs of
that key alone. -/
namespace ServiceBalancer.Simulation
open Sync

def Job.Regular (settings : SyncSettings) (job : Job) : Prop :=
  match job.rest with
  | some rest => Program.Obeys (protocol settings job.key) (Course.Ends settings) job.course rest
  | none => job.course.Clear

namespace Scene
variable {settings : SyncSettings} {s t : Scene} {key : ServiceKey} {move : Move} {who : Nat}

/-! ### What a worker does -/

theorem setJob_eq_some {who other : Nat} {job : Option Job} {j : Job} (h : (s.setJob who job).jobs other = some j) :
    other = who ∧ job = some j ∨ other ≠ who ∧ s.jobs other = some j := by
  simp only [setJob] at h
  split at h
  · next he => exact .inl ⟨he, h⟩
  · next he => exact .inr ⟨he, h⟩

/-- The job of a worker that is at another key is no matter. -/
theorem setJob_other {who : Nat} {job : Option Job} (hold : ∀ j, s.jobs who = some j → j.key ≠ key)
    (hnew : ∀ j, job = some j → j.key ≠ key) (other : Nat) (j : Job) (hk : j.key = key) :
    (s.setJob who job).jobs other = some j ↔ s.jobs other = some j := by
  simp only [setJob]
  split
  · next he =>
    subst he
    exact ⟨fun hj => absurd hk (hnew j hj), fun hj => absurd hk (hold j hj)⟩
  · exact Iff.rfl

/-- A worker takes a key that is due, and starts to sync it. -/
theorem get_eq_some (ht : s.get settings who = some t) : ∃ key queue, s.jobs who = none ∧
    s.queue.take? = some (key, queue) ∧
    t = { s with queue }.setJob who (some { key, rest := some (program settings key) }) := by
  unfold get at ht
  split at ht
  · next key queue hj hq => exact ⟨key, queue, hj, hq, (Option.some.inj ht).symm⟩
  · cases ht

/-- A request is answered and the sync goes on, or the sync breaks down at it. -/
theorem exchange_eq_some {time : Nat} (ht : s.exchange who time = some t) : ∃ key q next course,
    s.jobs who = some ⟨key, some (.ask q next), course⟩ ∧
    ((∃ a, (s.world.answer time q).1 = some a ∧ t = { s with world := (s.world.answer time q).2 }.setJob who
        (some ⟨key, some (next a), course.note q a⟩)) ∨
      (s.world.answer time q).1 = none ∧
        t = { s with world := (s.world.answer time q).2 }.setJob who (some ⟨key, none, course⟩)) := by
  unfold exchange at ht
  split at ht
  · next key q next course hj =>
    refine ⟨key, q, next, course, hj, ?_⟩
    rcases ha : s.world.answer time q with ⟨_ | a, w⟩
    · rw [ha] at ht
      exact .inr ⟨rfl, (Option.some.inj ht).symm⟩
    · rw [ha] at ht
      exact .inl ⟨a, rfl, (Option.some.inj ht).symm⟩
  · cases ht

/-- A worker hands back its key, and keeps a report of its sync. -/
theorem finish_eq_some {now clock errorDelay : Duration} {backoff : Backoff}
    (ht : s.finish who now clock errorDelay backoff = some t) : ∃ job outcome added past,
    s.jobs who = some job ∧ job.outcome? = some outcome ∧
    (added = s.queue ∨ ∃ delay, added = s.queue.afterDelayed (s.queue.addAfter now job.key delay)) ∧
    past = (fun key => if key = job.key then ⟨job.course, outcome⟩ :: s.past key else s.past key) ∧
    t = { s with queue := added.release job.key, past }.setJob who none := by
  unfold finish at ht
  split at ht
  · next job hj =>
    split at ht
    · next outcome ho =>
      dsimp only at ht
      split at ht
      · next queue hb =>
        obtain ⟨added, rfl, hadd⟩ := Worker.handBack_settled (.inl hb)
        exact ⟨job, outcome, added, _, hj, ho, hadd, rfl, (Option.some.inj ht).symm⟩
      · next queue deadline hb =>
        obtain ⟨added, rfl, hadd⟩ := Worker.handBack_settled (.inr ⟨deadline, hb⟩)
        exact ⟨job, outcome, added, _, hj, ho, hadd, rfl, (Option.some.inj ht).symm⟩
      · cases ht
    · cases ht
  · cases ht

/-- A key whose sync did not go well is due again. -/
theorem due_finish {now clock errorDelay : Duration} {backoff : Backoff} {job : Job} {outcome : SyncOutcome}
    (ho : s.queue.shuttingDown = false) (ht : s.finish who now clock errorDelay backoff = some t)
    (hj : s.jobs who = some job) (hout : job.outcome? = some outcome) (hbad : outcome ≠ some (.ok ())) :
    t.queue.Due job.key := by
  obtain ⟨r, hr⟩ := Worker.requeue?_isSome errorDelay clock backoff hbad
  simp only [finish, hj, hout, hr] at ht
  split at ht
  · next queue hb =>
    rw [← Option.some.inj ht]
    exact Worker.due_handBack ho (.inl hb)
  · next queue deadline hb =>
    rw [← Option.some.inj ht]
    exact Worker.due_handBack ho (.inr ⟨deadline, hb⟩)
  · cases ht

/-! ### What else is done -/

/-- Whether a key is bound to be synced after this: it is due, or the router is yet to enqueue it. -/
def Called (s : Scene) (key : ServiceKey) : Prop := s.queue.Due key ∨ .enqueue key ∈ s.todo

structure Offstage (s t : Scene) : Prop where
  jobs : t.jobs = s.jobs
  past : t.past = s.past
  queue : t.queue = s.queue ∨ (∃ k, t.queue = s.queue.add k) ∨ ∃ k deadline, t.queue = s.queue.fire k deadline
  called : s.queue.shuttingDown = false → ∀ key, s.Called key → t.Called key

theorem mem_eraseIdx_or {α : Type} {l : List α} {i : Nat} {x y : α} (hi : l[i]? = some y) (hx : x ∈ l) :
    x = y ∨ x ∈ l.eraseIdx i := by
  obtain ⟨j, hj⟩ := List.mem_iff_getElem?.mp hx
  by_cases he : j = i
  · subst he
    exact .inl (Option.some.inj (hj.symm.trans hi))
  · exact .inr (List.mem_eraseIdx_iff_getElem?.mpr ⟨j, he, hj⟩)

theorem offstage_of_todo (hj : t.jobs = s.jobs) (hp : t.past = s.past) (hq : t.queue = s.queue)
    (ht : ∀ r ∈ s.todo, r ∈ t.todo) : Offstage s t where
  jobs := hj
  past := hp
  queue := .inl hq
  called _ _ h := h.imp (fun hd => hq ▸ hd) (ht _)

/-- The router adds to what it is to do. It may read a service, and so meet a failure. -/
theorem decide_frame (s : Scene) (item : News) : ∃ world todo, s.decide item = { s with world, todo } ∧
    world.cluster = s.world.cluster ∧ world.cloud = s.world.cloud ∧ world.cache = s.world.cache ∧
    ∀ r ∈ s.todo, r ∈ todo := by
  cases item with
  | service δ => exact ⟨s.world, _, rfl, rfl, rfl, rfl, fun r hr => List.mem_append_left _ hr⟩
  | node δ => exact ⟨s.world, _, rfl, rfl, rfl, rfl, fun r hr => List.mem_append_left _ hr⟩
  | endpoints δ =>
    simp only [decide, decideEndpoints]
    split
    · exact ⟨s.world, s.todo, rfl, rfl, rfl, rfl, fun _ hr => hr⟩
    · next key _ =>
      split
      · exact ⟨s.world, _, rfl, rfl, rfl, rfl, fun r hr => List.mem_append_left _ hr⟩
      · have hw : (s.world.fetch 0 key).2.cluster = s.world.cluster ∧ (s.world.fetch 0 key).2.cloud = s.world.cloud ∧
            (s.world.fetch 0 key).2.cache = s.world.cache := by
          unfold World.fetch
          cases World.takeFault s.world.faults.fetch <;> exact ⟨rfl, rfl, rfl⟩
        split
        · exact ⟨_, _, rfl, hw.1, hw.2.1, hw.2.2, fun r hr => List.mem_append_left _ hr⟩
        · exact ⟨_, s.todo, rfl, hw.1, hw.2.1, hw.2.2, fun _ hr => hr⟩

theorem offstage_react {index : Nat} {r : Reaction} (hi : s.todo[index]? = some r) :
    Offstage s ({ s with todo := s.todo.eraseIdx index }.react r) := by
  -- What is to be done stays so, but for the reaction itself.
  have hrest {key : ServiceKey} (hr : r ≠ .enqueue key) (hc : .enqueue key ∈ s.todo) :
      .enqueue key ∈ s.todo.eraseIdx index := (mem_eraseIdx_or hi hc).resolve_left (Ne.symm hr)
  cases r with
  | enqueue k =>
    refine ⟨rfl, rfl, .inr (.inl ⟨k, rfl⟩), fun ho key hc => ?_⟩
    by_cases hk : key = k
    · exact .inl (hk ▸ WorkQueue.due_add ho)
    · exact hc.imp WorkQueue.Due.add (hrest fun he => hk (Reaction.enqueue.inj he).symm)
  | record e => exact ⟨rfl, rfl, .inl rfl, fun _ _ hc => hc.imp_right (hrest (by simp))⟩
  | keepDeleted svc => exact ⟨rfl, rfl, .inl rfl, fun _ _ hc => hc.imp_right (hrest (by simp))⟩
  | markStale k => exact ⟨rfl, rfl, .inl rfl, fun _ _ hc => hc.imp_right (hrest (by simp))⟩

/-- A move is offstage, or is what a worker does. -/
theorem act_cases (ht : s.act? settings move = some t) :
    (Offstage s t ∧ ∀ who time, move ≠ .exchange who time) ∨
    (∃ who, s.get settings who = some t ∧ move = .get who) ∨
    (∃ who time, s.exchange who time = some t ∧ move = .exchange who time) ∨
    ∃ who now clock errorDelay backoff, s.finish who now clock errorDelay backoff = some t ∧
      move = .finish who now clock errorDelay backoff := by
  cases move with
  | putService svc =>
    obtain rfl := Option.some.inj ht
    exact .inl ⟨offstage_of_todo rfl rfl rfl fun _ hr => hr, by simp⟩
  | removeService k =>
    obtain ⟨svc, _, rfl⟩ := Option.map_eq_some_iff.mp ht
    exact .inl ⟨offstage_of_todo rfl rfl rfl fun _ hr => hr, by simp⟩
  | putNode node =>
    obtain rfl := Option.some.inj ht
    exact .inl ⟨offstage_of_todo rfl rfl rfl fun _ hr => hr, by simp⟩
  | dropNode name =>
    obtain ⟨node, _, rfl⟩ := Option.map_eq_some_iff.mp ht
    exact .inl ⟨offstage_of_todo rfl rfl rfl fun _ hr => hr, by simp⟩
  | putEndpoints δ =>
    obtain rfl := Option.some.inj ht
    exact .inl ⟨offstage_of_todo rfl rfl rfl fun _ hr => hr, by simp⟩
  | tell index =>
    obtain ⟨item, _, rfl⟩ := Option.map_eq_some_iff.mp ht
    obtain ⟨world, todo, he, _, _, _, hmem⟩ := decide_frame { s with news := s.news.eraseIdx index } item
    rw [he]
    exact .inl ⟨offstage_of_todo rfl rfl rfl hmem, by simp⟩
  | react index =>
    obtain ⟨r, hi, rfl⟩ := Option.map_eq_some_iff.mp ht
    exact .inl ⟨offstage_react hi, by simp⟩
  | resync =>
    obtain rfl := Option.some.inj ht
    exact .inl ⟨offstage_of_todo rfl rfl rfl fun r hr => List.mem_append_left _ hr, by simp⟩
  | failCloud message =>
    obtain rfl := Option.some.inj ht
    exact .inl ⟨offstage_of_todo rfl rfl rfl fun _ hr => hr, by simp⟩
  | failStatus e =>
    obtain rfl := Option.some.inj ht
    exact .inl ⟨offstage_of_todo rfl rfl rfl fun _ hr => hr, by simp⟩
  | failCluster call e =>
    obtain rfl := Option.some.inj ht
    exact .inl ⟨offstage_of_todo rfl rfl rfl fun _ hr => hr, by simp⟩
  | fire k deadline =>
    obtain rfl := Option.some.inj ht
    refine .inl ⟨⟨rfl, rfl, .inr (.inr ⟨k, deadline, rfl⟩), fun ho key hc => ?_⟩, by simp⟩
    exact hc.imp_left (WorkQueue.Due.fire ho)
  | get who => exact .inr (.inl ⟨who, ht, rfl⟩)
  | exchange who time => exact .inr (.inr (.inl ⟨who, time, ht, rfl⟩))
  | finish who now clock errorDelay backoff =>
    exact .inr (.inr (.inr ⟨who, now, clock, errorDelay, backoff, ht, rfl⟩))

/-! ### Who holds what -/

/-- A queue that is open and in order, of which each worker holds the key that it is at, and none the same. -/
structure Staffed (s : Scene) : Prop where
  orderly : s.queue.Orderly
  isOpen : s.queue.shuttingDown = false
  held : ∀ who job, s.jobs who = some job → job.key ∈ s.queue.processing
  single : ∀ who other job job', s.jobs who = some job → s.jobs other = some job' → job.key = job'.key → who = other

/-- Whether every sync that is under way is in order. -/
def Regular (settings : SyncSettings) (s : Scene) : Prop := ∀ who job, s.jobs who = some job → job.Regular settings

theorem Offstage.staffed (hs : Offstage s t) (h : s.Staffed) : t.Staffed := by
  have hq : t.queue.Orderly ∧ t.queue.shuttingDown = false ∧ t.queue.processing = s.queue.processing := by
    rcases hs.queue with he | ⟨k, he⟩ | ⟨k, deadline, he⟩
    · exact ⟨he ▸ h.orderly, he ▸ h.isOpen, by rw [he]⟩
    · exact ⟨he ▸ h.orderly.add k, by simpa [he] using h.isOpen, by simp [he]⟩
    · rw [he]
      refine ⟨h.orderly.fire k deadline, ?_⟩
      rcases s.queue.fire_cases k deadline with ⟨_, waiting, hf⟩ | ⟨_, hf⟩
      · simp [hf, h.isOpen]
      · simp [hf, h.isOpen]
  exact ⟨hq.1, hq.2.1, hs.jobs ▸ hq.2.2 ▸ h.held, hs.jobs ▸ h.single⟩

theorem Staffed.get (h : s.Staffed) (ht : s.get settings who = some t) : t.Staffed := by
  obtain ⟨key, queue, hnone, hq, rfl⟩ := get_eq_some ht
  -- Nobody else is at the key, as it was not held.
  have hfree {other : Nat} {job : Job} (hj : s.jobs other = some job) : job.key ≠ key := fun he =>
    h.orderly.take_free hq (he ▸ h.held other job hj)
  refine ⟨h.orderly.take hq, ?_, ?_, ?_⟩
  · obtain ⟨_, rest, _, rfl⟩ := WorkQueue.take?_eq_some.mp hq
    exact h.isOpen
  · intro other job hj
    rcases setJob_eq_some hj with ⟨_, he⟩ | ⟨_, hj⟩
    · obtain rfl := Option.some.inj he
      exact (WorkQueue.mem_processing_take hq).mpr (.inl rfl)
    · exact (WorkQueue.mem_processing_take hq).mpr (.inr (h.held other job hj))
  · intro a b job job' ha hb hk
    rcases setJob_eq_some ha with ⟨he, hx⟩ | ⟨_, hx⟩ <;> rcases setJob_eq_some hb with ⟨he', hy⟩ | ⟨_, hy⟩
    · exact he.trans he'.symm
    · obtain rfl := Option.some.inj hx
      exact absurd hk.symm (hfree hy)
    · obtain rfl := Option.some.inj hy
      exact absurd hk (hfree hx)
    · exact h.single a b job job' hx hy hk

/-- The job of a worker goes on. -/
theorem Staffed.withJob (h : s.Staffed) {old new : Job} (hj : s.jobs who = some old) (hk : new.key = old.key) :
    (s.setJob who (some new)).Staffed := by
  have hold {other : Nat} {job : Job} (hj' : (s.setJob who (some new)).jobs other = some job) :
      ∃ job', s.jobs other = some job' ∧ job.key = job'.key := by
    rcases setJob_eq_some hj' with ⟨rfl, he⟩ | ⟨_, hj'⟩
    · obtain rfl := Option.some.inj he
      exact ⟨old, hj, hk⟩
    · exact ⟨job, hj', rfl⟩
  refine ⟨h.orderly, h.isOpen, ?_, ?_⟩
  · intro other job hj'
    obtain ⟨job', hj', hkey⟩ := hold hj'
    exact hkey ▸ h.held other job' hj'
  · intro a b job job' ha hb hkey
    obtain ⟨x, ha, hx⟩ := hold ha
    obtain ⟨y, hb, hy⟩ := hold hb
    exact h.single a b x y ha hb (hx.symm.trans (hkey.trans hy))

theorem Staffed.exchange (h : s.Staffed) {time : Nat} (ht : s.exchange who time = some t) : t.Staffed := by
  obtain ⟨key, q, next, course, hj, hcase⟩ := exchange_eq_some ht
  have hw : ({ s with world := (s.world.answer time q).2 } : Scene).Staffed := ⟨h.orderly, h.isOpen, h.held, h.single⟩
  rcases hcase with ⟨a, _, rfl⟩ | ⟨_, rfl⟩
  · exact hw.withJob hj rfl
  · exact hw.withJob hj rfl

/-- What a worker hands back, with the others at other keys. -/
theorem Staffed.finish (h : s.Staffed) {now clock errorDelay : Duration} {backoff : Backoff}
    (ht : s.finish who now clock errorDelay backoff = some t) : t.Staffed := by
  obtain ⟨job, outcome, added, past, hj, _, hadd, _, rfl⟩ := finish_eq_some ht
  have hmem := h.held who job hj
  have hadded : added.Orderly ∧ added.shuttingDown = false ∧ added.processing = s.queue.processing := by
    rcases hadd with rfl | ⟨delay, rfl⟩
    · exact ⟨h.orderly, h.isOpen, rfl⟩
    · refine ⟨h.orderly.addAfter now job.key delay, ?_⟩
      rcases s.queue.addAfter_cases now job.key delay with ⟨_, he⟩ | ⟨_, _, he⟩
      · simp [he, h.isOpen]
      · simp [he, h.isOpen]
  obtain ⟨horderly, hopen, hproc⟩ := hadded
  have hother {other : Nat} {j : Job} (hj' : (setJob s who none).jobs other = some j) :
      s.jobs other = some j ∧ j.key ≠ job.key := by
    rcases setJob_eq_some hj' with ⟨_, he⟩ | ⟨hne, hj'⟩
    · cases he
    · exact ⟨hj', fun hk => hne (h.single other who j job hj' hj hk)⟩
  refine ⟨horderly.release (hproc ▸ hmem), (added.release_shuttingDown job.key).trans hopen, ?_, ?_⟩
  · intro other j hj'
    obtain ⟨hj', hne⟩ := hother hj'
    show j.key ∈ (added.release job.key).processing
    rw [WorkQueue.release_processing, hproc]
    exact List.mem_filter.mpr ⟨h.held other j hj', by simpa using hne⟩
  · exact fun a b job job' ha hb hk => h.single a b job job' (hother ha).1 (hother hb).1 hk

theorem Staffed.act (h : s.Staffed) (ht : s.act? settings move = some t) : t.Staffed := by
  rcases act_cases ht with ⟨hs, _⟩ | ⟨who, ht, _⟩ | ⟨who, time, ht, _⟩ | ⟨_, _, _, _, _, ht, _⟩
  · exact hs.staffed h
  · exact h.get ht
  · exact h.exchange ht
  · exact h.finish ht

theorem Regular.exchange (h : s.Regular settings) {time : Nat} (ht : s.exchange who time = some t) :
    t.Regular settings := by
  obtain ⟨key, q, next, course, hj, hcase⟩ := exchange_eq_some ht
  obtain ⟨hq, hnext⟩ : course.Allows settings key q ∧ ∀ a, Program.Obeys (protocol settings key)
      (Course.Ends settings) (course.note q a) (next a) := h who _ hj
  rcases hcase with ⟨a, _, rfl⟩ | ⟨ha, rfl⟩
  · intro other job hj'
    rcases setJob_eq_some hj' with ⟨_, he⟩ | ⟨_, hj'⟩
    · exact Option.some.inj he ▸ hnext a
    · exact h other job hj'
  · intro other job hj'
    rcases setJob_eq_some hj' with ⟨_, he⟩ | ⟨_, hj'⟩
    · exact Option.some.inj he ▸ clear_of_broken hq ha
    · exact h other job hj'

theorem Regular.act (h : s.Regular settings) (ht : s.act? settings move = some t) : t.Regular settings := by
  rcases act_cases ht with ⟨hs, _⟩ | ⟨who, ht, _⟩ | ⟨who, time, ht, _⟩ | ⟨_, _, _, _, _, ht, _⟩
  · intro who job hj
    exact h who job (hs.jobs ▸ hj)
  · obtain ⟨key, queue, _, _, rfl⟩ := get_eq_some ht
    intro other job hj
    rcases setJob_eq_some hj with ⟨_, he⟩ | ⟨_, hj⟩
    · exact Option.some.inj he ▸ obeys_program settings key
    · exact h other job hj
  · exact h.exchange ht
  · obtain ⟨job, _, _, _, _, _, _, _, rfl⟩ := finish_eq_some ht
    intro other j hj
    rcases setJob_eq_some hj with ⟨_, he⟩ | ⟨_, hj⟩
    · cases he
    · exact h other j hj

end Scene
end ServiceBalancer.Simulation
