import ServiceBalancer.Proofs.Interleaving.Engine
import ServiceBalancer.Proofs.Simulation.Returning

/-! The controller at work on a clock, one at a time. Whatever turn it takes, its run and its workers take steps that
they can take in any order. -/
namespace ServiceBalancer

theorem TimedQueue.queue_shutDown {α ι : Type} (q : TimedQueue α ι) : q.shutDown.queue = q.queue.shutDown := by
  have hwake (woken : List ι) (q : TimedQueue α ι) : (woken.foldl wake q).queue = q.queue := by
    induction woken generalizing q with
    | nil => rfl
    | cons who woken ih => exact ih (q.wake who)
  exact hwake _ _

/-- Someone who asks for an item finds the queue shut down, gets an item or waits. -/
theorem TimedQueue.poll_cases {α ι : Type} [DecidableEq α] (q : TimedQueue α ι) (who : ι) :
    (q.queue.shuttingDown = true ∧ q.poll who = (.closed, q)) ∨
    (∃ a queue, q.queue.take? = some (a, queue) ∧ q.poll who = (.item a, { q with queue })) ∨
    ∃ signal, q.poll who = (.blocked, { q with signal }) := by
  unfold poll
  split_ifs with hs
  · exact .inl ⟨hs, rfl⟩
  · cases ht : q.queue.take? with
    | none => exact .inr (.inr ⟨_, rfl⟩)
    | some handout => exact .inr (.inl ⟨handout.1, handout.2, rfl, rfl⟩)

/-- An errand is someone's, or a timer that is set, or one that fires. -/
theorem TimedQueue.step?_cases {α ι : Type} [DecidableEq α] {q q' : TimedQueue α ι} {who : Option ι}
    (h : q.step? = some (who, q')) : q'.queue = q.queue ∨
      ∃ a deadline, who = none ∧ q'.queue = q.queue.fire a deadline := by
  unfold step? at h
  split at h
  · cases h
  · cases h
    exact .inl rfl
  · dsimp only at h
    split_ifs at h
    · cases h
      exact .inr ⟨_, _, rfl, TimedQueue.queue_change _ _⟩
    · cases h
      exact .inl rfl
  · cases h
    exact .inr ⟨_, _, rfl, TimedQueue.queue_change _ _⟩

/-- Only a run that is to serve starts workers. -/
theorem Controller.Phase.eq_serving {phase next : Controller.Phase} {sight : Controller.Sight}
    (h : phase.move? sight = some (.startWorkers, next)) : next = .serving := by
  cases phase with
  | awaitingSync =>
    simp only [move?] at h
    split_ifs at h <;> cases h
    rfl
  | serving | draining =>
    simp only [move?] at h
    split_ifs at h <;> cases h
  | ended => cases h

namespace MemoryCluster
variable (c : MemoryCluster) (svc : Service)

theorem updateStatus_synced (status : BalancerStatus) : (c.updateStatus svc status).2.synced = c.synced := by
  unfold updateStatus
  dsimp only
  split
  · rfl
  · split <;> rfl

theorem setHash_synced (hash : String) : (c.setHash svc hash).synced = c.synced := by
  unfold setHash
  dsimp only
  split <;> rfl

theorem removeHash_synced : (c.removeHash svc).synced = c.synced := by
  unfold removeHash
  dsimp only
  split <;> rfl

end MemoryCluster

namespace Simulation
open Relation

theorem World.reply_synced (time : Nat) (q : Sync.Request) (w : World) :
    (World.reply time q w).2.cluster.synced = w.cluster.synced := by
  have hanswer : (w.answer time q).2 = (World.reply time q w).2 := rfl
  rw [← hanswer]
  rcases w.answer_cluster_cases time q with h | ⟨svc, status, _, h⟩ | ⟨svc, hash, _, h⟩ | ⟨svc, _, h⟩ <;> rw [h]
  · exact w.cluster.updateStatus_synced svc status
  · exact w.cluster.setHash_synced svc hash
  · exact w.cluster.removeHash_synced svc

theorem World.advance_synced {α : Type} (time : Nat) (p : Program Sync.Answer α) (w : World) :
    (p.advance (World.reply time) w).2.cluster.synced = w.cluster.synced := by
  induction p generalizing w with
  | done a => rfl
  | ask q next ih =>
    have hreply := World.reply_synced time q w
    rw [Program.advance]
    generalize World.reply time q w = reply at hreply ⊢
    rcases reply with ⟨_ | _ | _ | _, w'⟩
    · exact (ih _ w').trans hreply
    · exact hreply
    · exact hreply
    · exact hreply

/-! ### What a site is at -/

inductive WorkerState.IsAt (w : WorkerState) : Post → Prop
  | asking : w.activity = .asking → w.IsAt .asking
  | syncing {key : ServiceKey} {rest : Program Sync.Answer (Except Error Unit)} :
      w.activity = .syncing key rest → w.IsAt (.syncing key rest)
  | gone {p : Post} : w.activity = .gone → p.IsOver → w.IsAt p

theorem WorkerState.IsAt.of_activity {w w' : WorkerState} {p : Post} (h : w.IsAt p) (he : w'.activity = w.activity) :
    w'.IsAt p := by
  cases h with
  | asking hact => exact .asking (he.trans hact)
  | syncing hact => exact .syncing (he.trans hact)
  | gone hact hover => exact .gone (he.trans hact) hover

structure Site.Shows (s : Site) (e : Engine) : Prop where
  queue : e.queue = s.timed.queue
  phase : e.phase = (s.run.map RunState.phase).getD .awaitingSync
  broken : e.broken = (s.run.map RunState.broken).getD false
  synced : e.synced = s.world.cluster.synced
  stopped : e.stopped = s.stopped
  length : e.posts.length = s.workers.length
  posts : ∀ (index : Nat) (w : WorkerState) (p : Post), s.workers[index]? = some w → e.posts[index]? = some p → w.IsAt p

namespace Engine
variable {settings : Settings} {e e' : Engine} {who : Nat} {key : ServiceKey}

abbrev Reaches (settings : Settings) : Engine → Engine → Prop := ReflTransGen (fun s t => ∃ a, Steps settings s a t)

theorem Reaches.step {a : Act} (h : Steps settings e a e') : Reaches settings e e' := .single ⟨a, h⟩

def advanced (key : ServiceKey) : Program.Progress Sync.Answer (Except Error Unit) → Option Post
  | .finished result => some (.synced key (some result))
  | .paused _ rest => some (.syncing key rest)
  | .broken => some (.synced key none)
  | .stuck => none

theorem reaches_advanced {rest : Program Sync.Answer (Except Error Unit)} (hp : e.posts[who]? = some (.syncing key rest))
    (time : Nat) (w : World) {p : Post} (hadv : advanced key (rest.advance (World.reply time) w).1 = some p) :
    Reaches settings e { e with posts := e.posts.set who p } := by
  induction rest generalizing e w with
  | done result =>
    obtain rfl := Option.some.inj hadv
    exact .step (.worker hp .conclude)
  | ask q next ih =>
    rw [Program.advance] at hadv
    generalize World.reply time q w = reply at hadv
    rcases reply with ⟨a | ⟨pause, a⟩ | _ | _, w'⟩
    · have hlt : who < e.posts.length := (List.getElem?_eq_some_iff.mp hp).1
      let e₁ : Engine := { e with posts := e.posts.set who (.syncing key (next a)) }
      have hexchange : Steps settings e (.worker who .exchange) e₁ := .worker hp (.exchange a)
      have hnext : e₁.posts[who]? = some (.syncing key (next a)) := by simp [e₁, hlt]
      simpa [e₁] using (Reaches.step hexchange).trans (ih a hnext w' hadv)
    · obtain rfl := Option.some.inj hadv
      exact .step (.worker hp (.exchange a))
    · cases hadv
    · obtain rfl := Option.some.inj hadv
      exact .step (.worker hp .collapse)

end Engine

namespace Site
open Engine
variable {s t : Site} {e : Engine}

/-! ### Workers -/

theorem setWorker_eq (s : Site) (index : Nat) (w : WorkerState) :
    ∃ timed, s.setWorker index w = { s with workers := s.workers.set index w, timed } ∧ timed.queue = s.timed.queue := by
  obtain ⟨settings, world, timed, workers, run, stopped⟩ := s
  simp only [setWorker]
  split
  · cases run <;> exact ⟨_, rfl, rfl⟩
  · exact ⟨_, rfl, rfl⟩

/-- A worker is set to what a post says. -/
theorem Shows.setWorker (h : s.Shows e) {index : Nat} {w : WorkerState} {p : Post} (hw : w.IsAt p)
    {timed : TimedQueue ServiceKey Actor} {world : World} {queue : WorkQueue ServiceKey} (hq : queue = timed.queue)
    (hworld : world.cluster.synced = s.world.cluster.synced) :
    ({ s with timed, world }.setWorker index w).Shows { e with queue, posts := e.posts.set index p } := by
  obtain ⟨timed', ht, hqueue⟩ := setWorker_eq { s with timed, world } index w
  rw [ht]
  refine ⟨hq.trans hqueue.symm, h.phase, h.broken, h.synced.trans hworld.symm, h.stopped, ?_, fun i w' p' hi hp => ?_⟩
  · simp [h.length]
  · by_cases he : i = index
    · subst he
      have hlt : i < s.workers.length := by simpa using (List.getElem?_eq_some_iff.mp hi).1
      have hlt' : i < e.posts.length := h.length ▸ hlt
      obtain rfl : w = w' := by simpa [hlt] using hi
      obtain rfl : p = p' := by simpa [hlt'] using hp
      exact hw
    · exact h.posts i w' p' (by simpa [List.getElem?_set, Ne.symm he] using hi)
        (by simpa [List.getElem?_set, Ne.symm he] using hp)

/-- A key that is put back in time is released. -/
theorem reaches_asking {now clock : Duration} {b : Backoff} {index : Nat} {key : ServiceKey} {outcome : SyncOutcome}
    {requeue : Option Requeue} {settings : Settings} (hp : e.posts[index]? = some (.synced key outcome))
    (hr : (Worker.requeue? settings.errorRequeue clock b outcome).1 = requeue)
    (hfits : Worker.handBack e.queue now key requeue ≠ .overflow) : Reaches settings e
      { e with queue := (Worker.putBack e.queue now key requeue).release key, posts := e.posts.set index .asking } := by
  have hlt : index < e.posts.length := (List.getElem?_eq_some_iff.mp hp).1
  let e₁ : Engine :=
    { e with queue := Worker.putBack e.queue now key requeue, posts := e.posts.set index (.releasing key) }
  have hput : Steps settings e (.worker index (.putBack now clock b)) e₁ := by
    cases requeue with
    | none => exact .worker hp (.keep hr)
    | some r => exact .worker hp (.putBack hr (Worker.addAfter_of_handBack hfits))
  have hreleasing : e₁.posts[index]? = some (.releasing key) := by simp [e₁, hlt]
  simpa [e₁] using (Reaches.step hput).trans (Reaches.step (.worker hreleasing .release))

/-- A key that is put back too late is lost with its worker. -/
theorem steps_lost {now clock : Duration} {b : Backoff} {index : Nat} {key : ServiceKey} {outcome : SyncOutcome}
    {requeue : Option Requeue} {settings : Settings} (hp : e.posts[index]? = some (.synced key outcome))
    (hr : (Worker.requeue? settings.errorRequeue clock b outcome).1 = requeue)
    (hover : Worker.handBack e.queue now key requeue = .overflow) :
    Steps settings e (.worker index (.putBack now clock b)) { e with posts := e.posts.set index (.lost key) } := by
  cases requeue with
  | none => cases hover
  | some r =>
    refine .worker hp (.lose hr ?_)
    simp only [Worker.handBack] at hover
    split at hover
    · cases hover
    · cases hover
    · assumption

/-- A worker ends its sync. -/
theorem Shows.finishSync (h : s.Shows e) {index : Nat} (hlt : index < e.posts.length) (w : WorkerState)
    (key : ServiceKey) (outcome : SyncOutcome) : ∃ e',
      Reaches s.settings { e with posts := e.posts.set index (.synced key outcome) } e' ∧
      (s.finishSync index w key outcome).2.Shows e' := by
  let e₁ : Engine := { e with posts := e.posts.set index (.synced key outcome) }
  have hp : e₁.posts[index]? = some (.synced key outcome) := by simp [e₁, hlt]
  rcases hr : Worker.requeue? s.settings.errorRequeue quietClock w.backoff outcome with ⟨requeue, b⟩
  have hrequeue : (Worker.requeue? s.settings.errorRequeue quietClock w.backoff outcome).1 = requeue := by rw [hr]
  have hqueue₁ : e₁.queue = s.timed.queue := h.queue
  by_cases hfits : Worker.handBack s.timed.queue s.timed.agenda.clock key requeue = .overflow
  · refine ⟨_, .step (steps_lost hp hrequeue (hqueue₁ ▸ hfits)), ?_⟩
    simp only [Site.finishSync, hr, hfits, TimedQueue.delayed?, List.set_set]
    exact h.setWorker (.gone rfl (.inr ⟨key, rfl⟩)) h.queue rfl
  · obtain ⟨timed, htimed, hqueue, _⟩ := s.timed.delayed?_eq_some key hfits
    rw [Worker.afterDelayed_handBack hfits] at hqueue
    refine ⟨_, reaches_asking hp hrequeue (hqueue₁ ▸ hfits), ?_⟩
    simp only [Site.finishSync, hr, htimed, List.set_set]
    exact h.setWorker (.asking rfl) (by rw [hqueue₁, hqueue]) rfl

@[simp] theorem setWorker_settings (s : Site) (index : Nat) (w : WorkerState) :
    (s.setWorker index w).settings = s.settings := by
  obtain ⟨_, he, _⟩ := s.setWorker_eq index w
  rw [he]

theorem finishSync_settings (s : Site) (index : Nat) (w : WorkerState) (key : ServiceKey) (outcome : SyncOutcome) :
    (s.finishSync index w key outcome).2.settings = s.settings := by
  simp only [Site.finishSync]
  split <;> rw [setWorker_settings]

def Follows (s t : Site) (e : Engine) : Prop := t.settings = s.settings ∧ ∃ e', Reaches s.settings e e' ∧ t.Shows e'

theorem Follows.rest (h : t.Shows e) (hs : t.settings = s.settings) : Follows s t e := ⟨hs, e, .refl, h⟩

theorem Follows.step {a : Act} {e' : Engine} (hstep : Steps s.settings e a e') (h : t.Shows e')
    (hs : t.settings = s.settings) : Follows s t e := ⟨hs, e', .step hstep, h⟩

theorem Follows.trans {u : Site} (h : Follows s t e) (h' : ∀ e', t.Shows e' → Follows t u e') : Follows s u e := by
  obtain ⟨hs, e', hreach, hshows⟩ := h
  obtain ⟨hs', e'', hreach', hshows'⟩ := h' e' hshows
  exact ⟨hs'.trans hs, e'', hreach.trans (hs ▸ hreach'), hshows'⟩

/-- Another clock, world or line of sleepers is no matter. -/
theorem Shows.withTimed (h : s.Shows e) {timed : TimedQueue ServiceKey Actor} {world : World}
    (hq : timed.queue = s.timed.queue) (hworld : world.cluster.synced = s.world.cluster.synced) :
    ({ s with timed, world } : Site).Shows e :=
  ⟨h.queue.trans hq.symm, h.phase, h.broken, h.synced.trans hworld.symm, h.stopped, h.length, h.posts⟩

/-- A stage of a worker. -/
theorem Shows.stage (h : s.Shows e) (index : Nat) : Follows s (s.stage index).2 e := by
  cases hw : s.workers[index]? with
  | none =>
    simp only [Site.stage, hw]
    exact .rest h rfl
  | some w =>
    have hlt : index < e.posts.length := h.length ▸ (List.getElem?_eq_some_iff.mp hw).1
    have hp : e.posts[index]? = some e.posts[index] := List.getElem?_eq_getElem hlt
    generalize e.posts[index] = p at hp
    simp only [Site.stage, hw]
    rcases h.posts index w p hw hp with hact | @⟨key, rest, hact⟩ | ⟨hact, _⟩
    · simp only [hact]
      rcases s.timed.poll_cases (.worker index) with ⟨hshut, hpoll⟩ | ⟨key, queue, htake, hpoll⟩ | ⟨signal, hpoll⟩
      · simp only [hpoll]
        exact .step (.worker hp (.leave (h.queue ▸ hshut))) (h.setWorker (.gone rfl (.inl rfl)) h.queue rfl)
          (setWorker_settings _ _ _)
      · simp only [hpoll]
        exact .step (.worker hp (.get (h.queue ▸ htake))) (h.setWorker (.syncing rfl) rfl rfl) (setWorker_settings _ _ _)
      · simp only [hpoll]
        exact .rest (h.withTimed rfl rfl) rfl
    · simp only [hact]
      have hreach {p' : Post} (hadv : advanced key (rest.advance (World.reply s.now) s.world).1 = some p') :
          Reaches s.settings e { e with posts := e.posts.set index p' } := reaches_advanced hp s.now s.world hadv
      have hworld := World.advance_synced s.now rest s.world
      generalize rest.advance (World.reply s.now) s.world = advance at hreach hworld ⊢
      rcases advance with ⟨progress, world⟩
      have hs : ({ s with world } : Site).Shows e := h.withTimed rfl hworld
      cases progress with
      | finished result =>
        obtain ⟨e', hend, hshows⟩ := hs.finishSync hlt w key (some result)
        exact ⟨finishSync_settings _ _ _ _ _, e', (hreach rfl).trans hend, hshows⟩
      | paused pause rest =>
        refine ⟨setWorker_settings _ _ _, _, hreach rfl, ?_⟩
        dsimp only
        exact h.setWorker (.syncing rfl) h.queue hworld
      | broken =>
        obtain ⟨e', hend, hshows⟩ := hs.finishSync hlt w key none
        exact ⟨finishSync_settings _ _ _ _ _, e', (hreach rfl).trans hend, hshows⟩
      | stuck => exact .rest hs rfl
    · simp only [hact]
      exact .rest h rfl

theorem Shows.work (h : s.Shows e) (index fuel : Nat) : Follows s (s.work index fuel) e := by
  induction fuel generalizing s e with
  | zero => exact .rest h rfl
  | succ fuel ih =>
    rw [Site.work]
    have hstage := h.stage index
    generalize s.stage index = next at hstage ⊢
    rcases next with ⟨_ | _, t⟩
    · exact hstage
    · exact hstage.trans fun e' h' => ih h'

/-! ### The run -/

theorem hire_all (s : Site) (count : Nat) : ∃ timed, timed.queue = s.timed.queue ∧
    (List.range count).foldl (fun s _ => s.hire) s = { s with
      workers := s.workers ++ List.replicate count { backoff := { settings := s.settings.backoff } }, timed } := by
  induction count with
  | zero => exact ⟨s.timed, rfl, by simp⟩
  | succ count ih =>
    obtain ⟨timed, hq, he⟩ := ih
    refine ⟨timed.wake (.worker (s.workers.length + count)), hq, ?_⟩
    rw [List.range_succ, List.foldl_append, he]
    simp [hire, List.replicate_succ']

theorem Shows.add (h : s.Shows e) (key : ServiceKey) : Follows s (s.react (.enqueue key)) e := by
  refine .step (.add e key) ⟨?_, h.phase, h.broken, h.synced, h.stopped, h.length, h.posts⟩ rfl
  simp [react, TimedQueue.add, h.queue]

theorem Shows.addAll (h : s.Shows e) (keys : List ServiceKey) :
    Follows s (keys.foldl (fun s key => s.react (.enqueue key)) s) e := by
  induction keys generalizing s e with
  | nil => exact .rest h rfl
  | cons key keys ih => exact (h.add key).trans fun e' h' => ih h'

theorem move_relaxBackoffs (s : Site) (run : RunState) : ∃ timed world decayAt,
    s.move run .relaxBackoffs = { s with
      workers := s.workers.map (fun w => { w with backoff := (w.backoff.relax quietClock).2 })
      run := some { run with decayAt }, timed, world } ∧
    timed.queue = s.timed.queue ∧ world.cluster.synced = s.world.cluster.synced := ⟨_, _, _, rfl, rfl, rfl⟩

theorem move_resync (s : Site) (run : RunState) :
    ∃ (timed : TimedQueue ServiceKey Actor) (world : World) (resyncAt : Option Nat) (keys : List ServiceKey),
    s.move run .resync = keys.foldl (fun s key => s.react (.enqueue key))
      { s with run := some { run with resyncAt }, timed, world } ∧
    timed.queue = s.timed.queue ∧ world.cluster.synced = s.world.cluster.synced := ⟨_, _, _, _, rfl, rfl, rfl⟩

/-- An interval that is started adds a timer. -/
theorem startInterval?_eq_some {interval : Duration} {moment : Nat}
    (h : s.startInterval? interval = some (moment, t)) : ∃ timed, timed.queue = s.timed.queue ∧ t = { s with timed } := by
  unfold startInterval? at h
  dsimp only at h
  split_ifs at h
  cases h
  exact ⟨s.timed.sleepUntil _ .run, rfl, rfl⟩

/-- The workers are hired, and the intervals started unless they are past what the clock can show. Then the run breaks
down with its workers. -/
theorem move_startWorkers (s : Site) (run : RunState) : ∃ (timed : TimedQueue ServiceKey Actor)
    (workers : List WorkerState) (decayAt : Nat) (resyncAt : Option Nat),
    workers = s.workers ++ List.replicate s.settings.workers { backoff := { settings := s.settings.backoff } } ∧
    timed.queue = s.timed.queue ∧
    (s.move run .startWorkers = { s with run := some { run with decayAt, resyncAt }, workers, timed } ∨
      s.move run .startWorkers = { s with
        run := some { run with phase := .ended, broken := true }
        workers := workers.map (fun w => { w with activity := .gone }), timed }) := by
  -- The intervals are kept shut: opened, they compute with what the clock can show.
  obtain ⟨interval?, hinterval⟩ : ∃ f, f = startInterval? := ⟨_, rfl⟩
  have hsome := @startInterval?_eq_some
  rw [Site.move]
  generalize hstart : startWorkers = start
  delta startWorkers at hstart
  rw [← hinterval] at hstart hsome
  subst hstart
  obtain ⟨timed, hq, hhired⟩ := s.hire_all s.settings.workers
  dsimp only
  rw [hhired]
  generalize s.workers ++ List.replicate s.settings.workers _ = workers
  cases hdecay : interval? { s with timed, workers } (decayInterval { s with timed, workers }) with
  | none => exact ⟨timed, workers, 0, none, rfl, hq, .inr rfl⟩
  | some first =>
    obtain ⟨decayAt, s₁⟩ := first
    obtain ⟨timed₁, hq₁, rfl⟩ := hsome hdecay
    dsimp only
    cases s.settings.resyncPeriod? with
    | none => exact ⟨timed₁, workers, decayAt, run.resyncAt, rfl, hq₁.trans hq, .inl rfl⟩
    | some period =>
      dsimp only
      cases hresync : interval? { s with timed := timed₁, workers } period with
      | none => exact ⟨timed, workers, 0, none, rfl, hq, .inr rfl⟩
      | some second =>
        obtain ⟨resyncAt, s₂⟩ := second
        obtain ⟨timed₂, hq₂, rfl⟩ := hsome hresync
        exact ⟨timed₂, workers, decayAt, some resyncAt, rfl, hq₂.trans (hq₁.trans hq), .inl rfl⟩

theorem move_shutDown (s : Site) (run : RunState) :
    s.move run .shutDown = { s with run := some run, timed := s.timed.shutDown } := rfl

theorem move_finish (s : Site) (run : RunState) : s.move run .finish = { s with run := some run } := rfl

/-- A move of the run. -/
theorem Shows.move (h : s.Shows e) {run : RunState} (hrun : s.run = some run) {next : Controller.Move}
    {phase : Controller.Phase} (hmove : run.phase.move? (s.sight run) = some (next, phase)) :
    Follows s (s.move { run with phase } next) e := by
  have hphase : e.phase = run.phase := by rw [h.phase, hrun]; rfl
  have hbroken : e.broken = run.broken := by rw [h.broken, hrun]; rfl
  have hsees : e.Sees (s.sight run) := by
    refine ⟨fun hs => h.synced.trans hs, fun hs => h.stopped.trans hs, fun hdone p hp => ?_⟩
    obtain ⟨index, hindex⟩ := List.mem_iff_getElem?.mp hp
    have hlt : index < s.workers.length := h.length ▸ (List.getElem?_eq_some_iff.mp hindex).1
    have hgone : s.workers[index].isGone = true := List.all_eq_true.mp hdone _ (List.getElem_mem hlt)
    rcases h.posts index _ p (List.getElem?_eq_getElem hlt) hindex with hact | hact | ⟨_, hover⟩
    · simp [WorkerState.isGone, hact] at hgone
    · simp [WorkerState.isGone, hact] at hgone
    · exact hover
  have hstep : Steps s.settings e (.run next) (e.move s.settings phase next) := .run hsees (hphase ▸ hmove)
  cases next with
  | startWorkers =>
    obtain ⟨timed, workers, decayAt, resyncAt, hworkers, hq, ht⟩ := s.move_startWorkers { run with phase }
    have hlength : (e.move s.settings phase .startWorkers).posts.length = workers.length := by
      simp [Engine.move, h.length, hworkers]
    have hposts (index : Nat) (w : WorkerState) (p : Post) (hw : workers[index]? = some w)
        (hp : (e.posts ++ List.replicate s.settings.workers .asking)[index]? = some p) : w.IsAt p := by
      subst hworkers
      by_cases hlt : index < s.workers.length
      · rw [List.getElem?_append_left hlt] at hw
        rw [List.getElem?_append_left (h.length ▸ hlt)] at hp
        exact h.posts index w p hw hp
      · rw [List.getElem?_append_right (Nat.le_of_not_lt hlt)] at hw
        rw [List.getElem?_append_right (h.length ▸ Nat.le_of_not_lt hlt)] at hp
        obtain rfl := List.eq_of_mem_replicate (List.mem_of_getElem? hw)
        obtain rfl := List.eq_of_mem_replicate (List.mem_of_getElem? hp)
        exact .asking rfl
    rcases ht with ht | ht <;> rw [ht]
    · exact .step hstep ⟨h.queue.trans hq.symm, rfl, hbroken, h.synced, h.stopped, hlength, hposts⟩ rfl
    · have hserving : (e.move s.settings phase .startWorkers).phase = .serving := Controller.Phase.eq_serving hmove
      refine ⟨rfl, _, (Reaches.step hstep).trans (Reaches.step (.breakDown hserving)), ?_⟩
      refine ⟨h.queue.trans hq.symm, rfl, rfl, h.synced, h.stopped, ?_, fun index w p hw hp => ?_⟩
      · simpa using hlength
      · obtain ⟨w', _, rfl⟩ := List.mem_map.mp (List.mem_of_getElem? hw)
        obtain ⟨p', _, rfl⟩ := List.mem_map.mp (List.mem_of_getElem? hp)
        exact .gone rfl (.inl rfl)
  | shutDown =>
    rw [move_shutDown]
    refine .step hstep ⟨?_, rfl, hbroken, h.synced, h.stopped, h.length, h.posts⟩ rfl
    rw [TimedQueue.queue_shutDown, ← h.queue]
    rfl
  | relaxBackoffs =>
    obtain ⟨timed, world, decayAt, ht, hq, hworld⟩ := s.move_relaxBackoffs { run with phase }
    rw [ht]
    refine .step hstep ⟨h.queue.trans hq.symm, rfl, hbroken, h.synced.trans hworld.symm, h.stopped, ?_, ?_⟩ rfl
    · simpa [Engine.move] using h.length
    · intro index w p hw hp
      simp only [List.getElem?_map] at hw
      obtain ⟨old, hold, rfl⟩ := Option.map_eq_some_iff.mp hw
      exact (h.posts index old p hold hp).of_activity rfl
  | resync =>
    obtain ⟨timed, world, resyncAt, keys, ht, hq, hworld⟩ := s.move_resync { run with phase }
    rw [ht]
    refine Follows.trans ?_ fun e' h' => h'.addAll keys
    exact .step hstep
      ⟨h.queue.trans hq.symm, rfl, hbroken, h.synced.trans hworld.symm, h.stopped, h.length, h.posts⟩ rfl
  | finish =>
    rw [move_finish]
    exact .step hstep ⟨h.queue, rfl, hbroken, h.synced, h.stopped, h.length, h.posts⟩ rfl

/-- The moves of the run. -/
theorem Shows.attend (h : s.Shows e) (fuel : Nat) : Follows s (s.attend fuel) e := by
  induction fuel generalizing s e with
  | zero => exact .rest h rfl
  | succ fuel ih =>
    rw [Site.attend]
    cases hrun : s.run with
    | none => exact .rest h rfl
    | some run =>
      dsimp only
      cases hmove : run.phase.move? (s.sight run) with
      | none => exact .rest h rfl
      | some next => exact (h.move hrun hmove).trans fun e' h' => ih h'

theorem Shows.serve (h : s.Shows e) (actor : Actor) : Follows s (s.serve actor) e := by
  cases actor with
  | worker index =>
    rw [Site.serve]
    exact h.work index _
  | run =>
    rw [Site.serve]
    exact h.attend _

/-- Whoever's turn it is, the engine takes steps to what a site comes to. -/
theorem Shows.step (h : s.Shows e) (ht : s.step? = some t) : Follows s t e := by
  obtain ⟨⟨actor, timed⟩, hstep, rfl⟩ := Option.map_eq_some_iff.mp ht
  rcases s.timed.step?_cases hstep with hq | ⟨key, deadline, rfl, hq⟩
  · have hrest : Follows s { s with timed } e := .rest (h.withTimed hq rfl) rfl
    cases actor with
    | none => exact hrest
    | some actor => exact hrest.trans fun e' h' => h'.serve actor
  · refine .step (.fire e key deadline) ⟨?_, h.phase, h.broken, h.synced, h.stopped, h.length, h.posts⟩ rfl
    rw [hq, h.queue]

end Site

end Simulation
end ServiceBalancer
