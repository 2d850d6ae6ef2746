import ServiceBalancer.Proofs.Interleaving.Engine

/-! The life of a run. No sync begins before the caches are awaited or after the queue is shut down, and what is in
flight then comes to its end before the run returns. A key is released unless the delay after which it was to be put
back is past what the clock can show. -/
namespace ServiceBalancer

theorem WorkQueue.addAfter_eq_overflow {α : Type} [DecidableEq α] {q : WorkQueue α} {now delay : Duration} {a : α} :
    q.addAfter now a delay = .overflow ↔ delay ≠ .zero ∧ clockLimit ≤ ⟨now.nanos + delay.nanos⟩ := by
  unfold addAfter
  by_cases hz : delay = .zero
  · simp [hz]
  · by_cases hlimit : clockLimit ≤ ⟨now.nanos + delay.nanos⟩
    · simp [hz, hlimit]
    · simp only [hz, hlimit, if_false, ne_eq, not_false_eq_true, true_and, iff_false]
      split_ifs
      · simp
      · split
        · split_ifs <;> simp
        · simp

namespace Simulation.Engine
open Sync

variable {settings : Settings} {s t : Engine} {a : Act} {who : Nat} {p : Post} {key : ServiceKey}

/-! ### One worker in one step -/

/-- A worker stays at what it is at until it acts, or the run breaks down. -/
theorem Steps.post (h : Steps settings s a t) (hp : s.posts[who]? = some p) : t.posts[who]? = some p ∨
    t.broken = true ∨ ∃ d queue p', a = .worker who d ∧ p.Works settings s.queue d queue p' ∧
      t.posts[who]? = some p' := by
  have hlt : who < s.posts.length := (List.getElem?_eq_some_iff.mp hp).1
  cases h with
  | resolve | stop | add | addAfter | fire => exact .inl hp
  | @run _ next _ _ _ =>
    cases next with
    | startWorkers => exact .inl ((List.getElem?_append_left hlt).trans hp)
    | shutDown | relaxBackoffs | resync | finish => exact .inl hp
  | breakDown => exact .inr (.inl rfl)
  | @worker other p₀ p' d queue hpost hworks =>
    by_cases he : other = who
    · subst he
      obtain rfl := Option.some.inj (hpost.symm.trans hp)
      exact .inr (.inr ⟨d, queue, p', rfl, hworks, by simp [hlt]⟩)
    · exact .inl (by simp [List.getElem?_set_ne he, hp])

theorem Steps.of_worker {d : Post.Deed} (h : Steps settings s (.worker who d) t) (hp : s.posts[who]? = some p) :
    ∃ queue p', p.Works settings s.queue d queue p' ∧ t.posts[who]? = some p' := by
  have hlt : who < s.posts.length := (List.getElem?_eq_some_iff.mp hp).1
  cases h with
  | worker hpost hworks =>
    obtain rfl := Option.some.inj (hpost.symm.trans hp)
    exact ⟨_, _, hworks, by simp [hlt]⟩

/-- What a worker is lost with was to be put back too late. -/
theorem Steps.lost (h : Steps settings s a t) (hp : t.posts[who]? = some (.lost key)) :
    s.posts[who]? = some (.lost key) ∨ ∃ outcome now clock b requeue, s.posts[who]? = some (.synced key outcome) ∧
      a = .worker who (.putBack now clock b) ∧
      (Worker.requeue? settings.errorRequeue clock b outcome).1 = some requeue ∧
      s.queue.addAfter now key requeue.delay = .overflow := by
  cases h with
  | resolve | stop | add | addAfter | fire => exact .inl hp
  | @run _ next _ _ _ =>
    cases next with
    | startWorkers =>
      simp only [move, List.getElem?_append, List.getElem?_replicate] at hp
      split_ifs at hp
      · exact .inl hp
      · cases hp
    | shutDown | relaxBackoffs | resync | finish => exact .inl hp
  | breakDown =>
    obtain ⟨_, _, he⟩ := Option.map_eq_some_iff.mp (List.getElem?_map.symm.trans hp)
    cases he
  | @worker other p₀ p' d queue hpost hworks =>
    by_cases he : other = who
    · subst he
      have hlt : other < s.posts.length := (List.getElem?_eq_some_iff.mp hpost).1
      obtain rfl : p' = .lost key := by simpa [hlt] using hp
      cases hworks with
      | lose hr hover => exact .inr ⟨_, _, _, _, _, hpost, rfl, hr, hover⟩
    · rw [List.getElem?_set_ne he] at hp
      exact .inl hp

/-- The first workers are those that the run starts once waiting is over. -/
theorem Steps.posts_eq_nil (h : Steps settings s a t) (hs : s.posts = []) :
    t.posts = [] ∨ a = .run .startWorkers ∧ s.synced = true := by
  cases h with
  | resolve | stop | add | addAfter | fire => exact .inl hs
  | @run _ next _ hsees hmove =>
    cases next with
    | startWorkers =>
      refine .inr ⟨rfl, hsees.synced ?_⟩
      unfold Controller.Phase.move? at hmove
      grind
    | shutDown | relaxBackoffs | resync | finish => exact .inl hs
  | breakDown => exact .inl (by simp [hs])
  | worker hpost => simp [hs] at hpost

/-- A run that has ended, or that drains, goes on to. -/
theorem Steps.phase (h : Steps settings s a t) :
    (s.phase ≠ .awaitingSync → t.phase ≠ .awaitingSync) ∧ (s.phase = .ended → t.phase = .ended ∧ t.broken = s.broken) ∧
      (s.phase = .draining → t.phase = .draining ∧ t.broken = s.broken ∨ t.phase = .ended ∧ t.broken = s.broken) := by
  cases h with
  | resolve | stop | add | addAfter | fire | worker => exact ⟨id, fun h => ⟨h, rfl⟩, fun h => .inl ⟨h, rfl⟩⟩
  | breakDown hphase => simp [hphase]
  | @run _ next phase _ hmove =>
    unfold Controller.Phase.move? at hmove
    cases next <;> grind [move]

/-! ### Runs without end -/

/-- A run that goes on for ever, though nothing may happen at times. Keys may be queued when it begins, but none is in
flight. -/
structure EndlessRun (settings : Settings) where
  state : Nat → Engine
  act : Nat → Option Act
  phase_zero : (state 0).phase = .awaitingSync
  posts_zero : (state 0).posts = []
  broken_zero : (state 0).broken = false
  orderly_zero : (state 0).queue.Orderly
  processing_zero : (state 0).queue.processing = []
  step : ∀ n a, act n = some a → Steps settings (state n) a (state (n + 1))
  rest : ∀ n, act n = none → state (n + 1) = state n

namespace EndlessRun
variable (r : EndlessRun settings) {n m : Nat}

def Begins (n who : Nat) (key : ServiceKey) : Prop := r.act n = some (.worker who (.get key))

def Releases (n who : Nat) (key : ServiceKey) : Prop :=
  (r.state n).posts[who]? = some (.releasing key) ∧ r.act n = some (.worker who .release)

/-- Whether a worker is lost with its key: it was to be put back after a delay past what the clock can show. -/
def Loses (n who : Nat) (key : ServiceKey) : Prop := ∃ outcome now clock b requeue,
  (r.state n).posts[who]? = some (.synced key outcome) ∧ r.act n = some (.worker who (.putBack now clock b)) ∧
  (Worker.requeue? settings.errorRequeue clock b outcome).1 = some requeue ∧ requeue.delay ≠ .zero ∧
  clockLimit ≤ ⟨now.nanos + requeue.delay.nanos⟩

/-- Whether no worker that is at a key stands still for ever. -/
def Fair : Prop := ∀ who n, (∀ m, n ≤ m → ∃ p, (r.state m).posts[who]? = some p ∧ p.key?.isSome) →
  ∃ m, n ≤ m ∧ ∃ d, r.act m = some (.worker who d)

/-- What every step keeps holds from then on. -/
theorem from_on {P : Engine → Prop} (hP : ∀ s a t, Steps settings s a t → P s → P t) (h : P (r.state n))
    (hm : n ≤ m) : P (r.state m) := by
  induction hm with
  | refl => exact h
  | @step m _ ih =>
    cases hact : r.act m with
    | none => exact (r.rest m hact).symm ▸ ih
    | some a => exact hP _ a _ (r.step m a hact) ih

theorem sound (n : Nat) : (r.state n).Sound := by
  refine r.from_on (fun _ _ _ h hs => h.sound hs) ?_ (Nat.zero_le n)
  refine ⟨fun _ => r.posts_zero, ?_, ?_, ?_⟩
  · simp [Returned, r.phase_zero]
  · simp [r.phase_zero]
  · simp [r.broken_zero]

/-- A run that has broken down stays broken. -/
theorem whole_until (h : (r.state m).broken = false) (hn : n ≤ m) : (r.state n).broken = false := by
  by_contra hb
  have hbroken := r.from_on (P := fun s => s.phase = .ended ∧ s.broken = true)
    (fun _ _ _ h hs => ⟨(h.phase.2.1 hs.1).1, (h.phase.2.1 hs.1).2.trans hs.2⟩)
    ⟨(r.sound n).whole (by simpa using hb), by simpa using hb⟩ hn
  exact absurd (h.symm.trans hbroken.2) nofun

theorem kept (h : (r.state n).broken = false) : (r.state n).Kept := by
  induction n with
  | zero =>
    refine ⟨r.orderly_zero, ?_, ?_⟩
    · rintro who other key ⟨p, hp, _⟩
      simp [r.posts_zero] at hp
    · simp [r.processing_zero, Holds, r.posts_zero]
  | succ n ih =>
    have hs := ih (r.whole_until h (Nat.le_succ n))
    cases hact : r.act n with
    | none => exact (r.rest n hact).symm ▸ hs
    | some a => exact (r.step n a hact).kept hs h

/-! ### What does not happen -/

/-- No sync begins while the workers are over. -/
theorem not_begins_of_over (h : ∀ p ∈ (r.state n).posts, p.IsOver) (who : Nat) (key : ServiceKey) :
    ¬ r.Begins n who key := by
  intro hb
  have hstep := r.step n _ hb
  generalize r.state (n + 1) = t at hstep
  cases hstep with
  | worker hpost hworks => exact hworks.not_isOver (h _ (List.mem_of_getElem? hpost))

theorem not_begins_of_shuttingDown (h : (r.state n).queue.shuttingDown = true) (who : Nat) (key : ServiceKey) :
    ¬ r.Begins n who key := fun hb => (r.step n _ hb).not_get_of_shuttingDown h who key rfl

/-- Workers come only when waiting for the caches is over. -/
theorem started_of_posts (h : (r.state n).posts ≠ []) :
    ∃ m, m < n ∧ (r.state m).synced = true ∧ r.act m = some (.run .startWorkers) := by
  induction n with
  | zero => exact absurd r.posts_zero h
  | succ n ih =>
    by_cases hn : (r.state n).posts = []
    · cases hact : r.act n with
      | none => exact absurd ((congrArg posts (r.rest n hact)).trans hn) h
      | some a =>
        obtain ⟨rfl, hsynced⟩ := ((r.step n a hact).posts_eq_nil hn).resolve_left h
        exact ⟨n, Nat.lt_succ_self n, hsynced, hact⟩
    · obtain ⟨m, hm, h⟩ := ih hn
      exact ⟨m, Nat.lt_succ_of_lt hm, h⟩

theorem ended_from_on (h : (r.state n).phase = .ended) (hm : n ≤ m) :
    (r.state m).phase = .ended ∧ (r.state m).broken = (r.state n).broken :=
  r.from_on (P := fun s => s.phase = .ended ∧ s.broken = (r.state n).broken)
    (fun _ _ _ h hs => ⟨(h.phase.2.1 hs.1).1, (h.phase.2.1 hs.1).2.trans hs.2⟩) ⟨h, rfl⟩ hm

/-- A run that is stopped while it waits for the caches has no workers, and is over. -/
theorem over_of_stopped_early (hact : r.act n = some (.run .shutDown)) (hphase : (r.state n).phase = .awaitingSync)
    (m : Nat) : ∀ p ∈ (r.state m).posts, p.IsOver := by
  rcases Nat.lt_or_ge n m with hm | hm
  · have hended : (r.state (n + 1)).phase = .ended := by
      have hstep := r.step n _ hact
      generalize r.state (n + 1) = t at hstep
      cases hstep with
      | @run sight _ phase _ hmove =>
        simp only [hphase, Controller.Phase.move?] at hmove
        split_ifs at hmove <;> cases hmove
        rfl
    exact (r.sound m).gone (r.ended_from_on hended hm).1
  · have hwaits : (r.state m).phase = .awaitingSync := by
      by_contra hne
      exact r.from_on (P := fun s => s.phase ≠ .awaitingSync) (fun _ _ _ h hs => h.phase.1 hs) hne hm hphase
    simp [(r.sound m).idle hwaits]

/-! ### What happens some time -/

/-- A worker stays at what it is at as long as it does nothing. -/
theorem post_succ (hp : (r.state n).posts[who]? = some p) (hwhole : (r.state (n + 1)).broken = false) :
    (r.state (n + 1)).posts[who]? = some p ∨ ∃ d queue p', r.act n = some (.worker who d) ∧
      p.Works settings (r.state n).queue d queue p' ∧ (r.state (n + 1)).posts[who]? = some p' := by
  cases hact : r.act n with
  | none => exact .inl (by rw [r.rest n hact, hp])
  | some a =>
    rcases (r.step n a hact).post hp with h | h | ⟨d, queue, p', rfl, h⟩
    · exact .inl h
    · exact absurd (hwhole.symm.trans h) nofun
    · exact .inr ⟨d, queue, p', rfl, h⟩

/-- A worker at a key goes on some time. -/
theorem works_of_fair (hf : r.Fair) (hwhole : ∀ m, (r.state m).broken = false)
    (hp : (r.state n).posts[who]? = some p) (hkey : p.key?.isSome) :
    ∃ m, n ≤ m ∧ (r.state m).posts[who]? = some p ∧ ∃ d queue p', r.act m = some (.worker who d) ∧
      p.Works settings (r.state m).queue d queue p' ∧ (r.state (m + 1)).posts[who]? = some p' := by
  by_contra hnever
  have hstays : ∀ m, n ≤ m → (r.state m).posts[who]? = some p := by
    intro m hm
    induction hm with
    | refl => exact hp
    | @step m hm ih => exact (r.post_succ ih (hwhole _)).resolve_right fun h => hnever ⟨m, hm, ih, h⟩
  obtain ⟨m, hm, d, hact⟩ := hf who n fun m hm => ⟨p, hstays m hm, hkey⟩
  obtain ⟨queue, p', hworks, hnext⟩ := (r.step m _ hact).of_worker (hstays m hm)
  exact hnever ⟨m, hm, hstays m hm, d, queue, p', hact, hworks, hnext⟩

/-- A sync comes to its end. The induction is on what is left of it. -/
theorem concludes (hf : r.Fair) (hwhole : ∀ m, (r.state m).broken = false)
    {rest : Program Answer (Except Error Unit)} (hp : (r.state n).posts[who]? = some (.syncing key rest)) :
    ∃ m, n ≤ m ∧ ∃ outcome, (r.state m).posts[who]? = some (.synced key outcome) := by
  induction rest generalizing n with
  | done result =>
    obtain ⟨m, hm, _, d, queue, p', _, hworks, hnext⟩ := r.works_of_fair hf hwhole hp rfl
    cases hworks with
    | conclude => exact ⟨m + 1, by omega, _, hnext⟩
  | ask request next ih =>
    obtain ⟨m, hm, _, d, queue, p', _, hworks, hnext⟩ := r.works_of_fair hf hwhole hp rfl
    cases hworks with
    | exchange answer =>
      obtain ⟨l, hl, h⟩ := ih answer hnext
      exact ⟨l, by omega, h⟩
    | collapse => exact ⟨m + 1, by omega, _, hnext⟩

theorem releases_of_releasing (hf : r.Fair) (hwhole : ∀ m, (r.state m).broken = false)
    (hp : (r.state n).posts[who]? = some (.releasing key)) : ∃ m, n ≤ m ∧ r.Releases m who key := by
  obtain ⟨m, hm, hpost, d, queue, p', hact, hworks, _⟩ := r.works_of_fair hf hwhole hp rfl
  cases hworks with
  | release => exact ⟨m, hm, hpost, hact⟩

/-- A worker that has synced its key releases it, unless it is lost. -/
theorem releases_of_synced (hf : r.Fair) (hwhole : ∀ m, (r.state m).broken = false) {outcome : SyncOutcome}
    (hp : (r.state n).posts[who]? = some (.synced key outcome)) :
    ∃ m, n ≤ m ∧ (r.Releases m who key ∨ r.Loses m who key) := by
  obtain ⟨m, hm, hpost, d, queue, p', hact, hworks, hnext⟩ := r.works_of_fair hf hwhole hp rfl
  cases hworks with
  | keep | putBack =>
    obtain ⟨l, hl, h⟩ := r.releases_of_releasing hf hwhole hnext
    exact ⟨l, by omega, .inl h⟩
  | lose hr hover =>
    obtain ⟨hne, hlimit⟩ := WorkQueue.addAfter_eq_overflow.mp hover
    exact ⟨m, hm, .inr ⟨_, _, _, _, _, hpost, hact, hr, hne, hlimit⟩⟩

theorem releases_of_key (hf : r.Fair) (hwhole : ∀ m, (r.state m).broken = false)
    (hp : (r.state n).posts[who]? = some p) (hkey : p.key? = some key) :
    ∃ m, n ≤ m ∧ (r.Releases m who key ∨ r.Loses m who key) := by
  cases p with
  | syncing k rest =>
    obtain rfl : k = key := Option.some.inj hkey
    obtain ⟨m, hm, _, hp⟩ := r.concludes hf hwhole hp
    obtain ⟨l, hl, h⟩ := r.releases_of_synced hf hwhole hp
    exact ⟨l, by omega, h⟩
  | synced k outcome =>
    obtain rfl : k = key := Option.some.inj hkey
    exact r.releases_of_synced hf hwhole hp
  | releasing k =>
    obtain rfl : k = key := Option.some.inj hkey
    obtain ⟨m, hm, h⟩ := r.releases_of_releasing hf hwhole hp
    exact ⟨m, hm, .inl h⟩
  | asking | gone | lost => cases hkey

/-! ### Lost keys -/

theorem post_of_loses (h : r.Loses n who key) : (r.state (n + 1)).posts[who]? = some (.lost key) := by
  obtain ⟨outcome, now, clock, b, requeue, hp, hact, hr, hne, hlimit⟩ := h
  obtain ⟨queue, p', hworks, hnext⟩ := (r.step n _ hact).of_worker hp
  cases hworks with
  | lose => exact hnext
  | keep hnone =>
    rw [hr] at hnone
    cases hnone
  | putBack hr' hfits =>
    obtain rfl := Option.some.inj (hr.symm.trans hr')
    exact absurd (WorkQueue.addAfter_eq_overflow.mpr ⟨hne, hlimit⟩) hfits

/-- A lost key stays in flight. -/
theorem processing_of_loses (h : r.Loses n who key) (hm : n < m) (hwhole : (r.state m).broken = false) :
    key ∈ (r.state m).queue.processing := by
  have hlost : (r.state m).posts[who]? = some (.lost key) := by
    induction hm with
    | refl => exact r.post_of_loses h
    | @step m _ ih =>
      have hp := ih (r.whole_until hwhole (Nat.le_succ m))
      refine (r.post_succ hp hwhole).resolve_right ?_
      rintro ⟨_, _, _, _, hworks, _⟩
      exact hworks.not_isOver (.inr ⟨key, rfl⟩)
  exact ((r.kept hwhole).held key).mpr ⟨who, _, hlost, rfl⟩

theorem loses_of_post (hp : (r.state m).posts[who]? = some (.lost key)) : ∃ n, n < m ∧ r.Loses n who key := by
  induction m with
  | zero => simp [r.posts_zero] at hp
  | succ m ih =>
    have hstep : (r.state m).posts[who]? = some (.lost key) ∨ r.Loses m who key := by
      cases hact : r.act m with
      | none => exact .inl (by rw [← r.rest m hact, hp])
      | some a =>
        refine (r.step m a hact).lost hp |>.imp_right ?_
        rintro ⟨outcome, now, clock, b, requeue, hp, rfl, hr, hover⟩
        obtain ⟨hne, hlimit⟩ := WorkQueue.addAfter_eq_overflow.mp hover
        exact ⟨outcome, now, clock, b, requeue, hp, hact, hr, hne, hlimit⟩
    rcases hstep with hp | hl
    · obtain ⟨n, hn, h⟩ := ih hp
      exact ⟨n, by omega, h⟩
    · exact ⟨m, by omega, hl⟩

/-- What is still in flight when all workers are over was lost. -/
theorem loses_of_over (hover : ∀ p ∈ (r.state m).posts, p.IsOver) (hwhole : (r.state m).broken = false)
    (hkey : key ∈ (r.state m).queue.processing) : ∃ who n, n < m ∧ r.Loses n who key := by
  obtain ⟨who, p, hp, hk⟩ := ((r.kept hwhole).held key).mp hkey
  rcases hover p (List.mem_of_getElem? hp) with rfl | ⟨k, rfl⟩
  · cases hk
  · obtain rfl : k = key := Option.some.inj hk
    exact ⟨who, r.loses_of_post hp⟩

/-! ### The life of a run -/

theorem release_processing (h : r.Releases n who key) : key ∉ (r.state (n + 1)).queue.processing := by
  obtain ⟨hp, hact⟩ := h
  have hstep := r.step n _ hact
  generalize r.state (n + 1) = t at hstep ⊢
  cases hstep with
  | worker hpost hworks =>
    obtain rfl := Option.some.inj (hpost.symm.trans hp)
    cases hworks with
    | release => simp

theorem shuttingDown_of_shutDown (hact : r.act n = some (.run .shutDown)) (hm : n < m) :
    (r.state m).queue.shuttingDown = true := by
  refine r.from_on (P := fun s => s.queue.shuttingDown = true) (fun _ _ _ h hs => h.shuttingDown hs) ?_ hm
  have hstep := r.step n _ hact
  generalize r.state (n + 1) = t at hstep ⊢
  cases hstep with
  | run => rfl

/-- A run that drains does not break down. -/
theorem whole_of_draining (h : (r.state n).phase = .draining) (m : Nat) : (r.state m).broken = false := by
  have hwhole : (r.state n).broken = false := by
    by_contra hb
    have hended := (r.sound n).whole (by simpa using hb)
    rw [h] at hended
    cases hended
  rcases Nat.le_total m n with hm | hm
  · exact r.whole_until hwhole hm
  · refine (r.from_on (P := fun s => (s.phase = .draining ∨ s.phase = .ended) ∧ s.broken = false) ?_
      ⟨.inl h, hwhole⟩ hm).2
    rintro s a t hstep ⟨hdraining | hended, hs⟩
    · rcases hstep.phase.2.2 hdraining with ⟨hp, hb⟩ | ⟨hp, hb⟩
      · exact ⟨.inl hp, hb.trans hs⟩
      · exact ⟨.inr hp, hb.trans hs⟩
    · exact ⟨.inr (hstep.phase.2.1 hended).1, (hstep.phase.2.1 hended).2.trans hs⟩

/-- What holds of the life of a run, whatever others do to its queue and whenever it is told to stop. -/
structure Lifecycle (r : EndlessRun settings) : Prop where
  /-- No sync begins before waiting for the caches is over. -/
  waits : ∀ n who key, r.Begins n who key →
    ∃ m, m < n ∧ (r.state m).synced = true ∧ r.act m = some (.run .startWorkers)
  /-- If the run is stopped before that, no sync ever begins. -/
  early : ∀ n, r.act n = some (.run .shutDown) → (r.state n).phase = .awaitingSync → ∀ m who key, ¬ r.Begins m who key
  closes : ∀ n, r.act n = some (.run .shutDown) → ∀ m, n < m → ∀ who key, ¬ r.Begins m who key
  /-- A sync that is under way then comes to its end, and its key is released unless it is lost. -/
  finishes : r.Fair → ∀ n who p key, (r.state n).phase = .draining → (r.state n).posts[who]? = some p →
    p.key? = some key →
    (∀ rest, p = .syncing key rest →
      ∃ m, n ≤ m ∧ ∃ outcome, (r.state m).posts[who]? = some (.synced key outcome)) ∧
    ∃ m, n ≤ m ∧ (r.Releases m who key ∨ r.Loses m who key)
  releases : ∀ n who key, r.Releases n who key → key ∉ (r.state (n + 1)).queue.processing
  loses : ∀ n who key, r.Loses n who key → ∀ m, n < m → (r.state m).broken = false →
    key ∈ (r.state m).queue.processing
  /-- A run returns with no worker at a key, and none is at one any more whatever comes in. -/
  returns : ∀ n, (r.state n).Returned → ∀ m, n ≤ m → (r.state m).queue.shuttingDown = true ∧
    (∀ p ∈ (r.state m).posts, p.key? = none) ∧ (∀ who key, ¬ r.Begins m who key) ∧
    ∀ key ∈ (r.state m).queue.processing, ∃ who l, l < m ∧ r.Loses l who key

/-- A run waits for the caches before it starts any sync, starts none after it has shut its queue down, and returns when
none is under way. A key that is in flight by then is released, unless the delay after which it was to be put back is
past what the clock can show: then it is in flight for ever. -/
theorem lifecycle (r : EndlessRun settings) : r.Lifecycle where
  waits n who key hb := by
    refine r.started_of_posts fun hnil => r.not_begins_of_over ?_ who key hb
    simp [hnil]
  early n hact hphase m := r.not_begins_of_over (r.over_of_stopped_early hact hphase m)
  closes n hact m hm := r.not_begins_of_shuttingDown (r.shuttingDown_of_shutDown hact hm)
  finishes hf n who p key hphase hp hkey := by
    have hwhole := r.whole_of_draining hphase
    refine ⟨?_, r.releases_of_key hf hwhole hp hkey⟩
    rintro rest rfl
    exact r.concludes hf hwhole hp
  releases n who key := r.release_processing
  loses n who key h m hm := r.processing_of_loses h hm
  returns n h m hm := by
    have hended := r.ended_from_on h.1 hm
    have hwhole := hended.2.trans h.2
    have hover := (r.sound m).gone hended.1
    refine ⟨(r.sound m).shut (.inr ⟨hended.1, hwhole⟩), fun p hp => ?_, r.not_begins_of_over hover,
      fun key => r.loses_of_over hover hwhole⟩
    rcases hover p hp with rfl | ⟨_, rfl⟩ <;> rfl

end EndlessRun

/-! ### Runs that come to rest -/

inductive Play (settings : Settings) : Engine → List (Act × Engine) → Prop
  | nil (s : Engine) : Play settings s []
  | cons {s t : Engine} {a : Act} {later : List (Act × Engine)} :
      Steps settings s a t → Play settings t later → Play settings s ((a, t) :: later)

def after : Engine → List (Act × Engine) → Nat → Engine
  | s, [], _ => s
  | s, _ :: _, 0 => s
  | _, (_, t) :: later, n + 1 => after t later n

theorem Play.step {later : List (Act × Engine)} (h : Play settings s later) (n : Nat) :
    (∀ a, later[n]?.map (·.1) = some a → Steps settings (after s later n) a (after s later (n + 1))) ∧
      (later[n]?.map (·.1) = none → after s later (n + 1) = after s later n) := by
  induction h generalizing n with
  | nil => simp [after]
  | @cons s t a later hstep hplay ih =>
    cases n with
    | zero =>
      refine ⟨fun b hb => ?_, nofun⟩
      obtain rfl := Option.some.inj hb
      cases later <;> exact hstep
    | succ n => exact ih n

theorem after_length (s : Engine) (later : List (Act × Engine)) {n : Nat} (hn : later.length ≤ n) :
    after s later n = after s later later.length := by
  induction later generalizing s n with
  | nil => rfl
  | cons step later ih =>
    cases n with
    | zero => simp at hn
    | succ n => exact ih step.2 (by simpa using hn)

theorem Play.append {later more : List (Act × Engine)} (h : Play settings s later)
    (h' : Play settings (after s later later.length) more) : Play settings s (later ++ more) := by
  induction h with
  | nil => exact h'
  | cons hstep _ ih => exact .cons hstep (ih h')

theorem after_append (s : Engine) (later more : List (Act × Engine)) (n : Nat) :
    after s (later ++ more) (later.length + n) = after (after s later later.length) more n := by
  induction later generalizing s with
  | nil => simp [after]
  | cons step later ih =>
    rw [List.length_cons, Nat.add_right_comm]
    exact ih step.2

theorem after_mem (s : Engine) (later : List (Act × Engine)) (n : Nat) :
    after s later n ∈ s :: later.map (·.2) := by
  induction later generalizing s n with
  | nil => exact .head _
  | cons step later ih =>
    cases n with
    | zero => exact .head _
    | succ n => exact .tail _ (ih step.2 n)

def Play.endless {later : List (Act × Engine)} (h : Play settings {} later) : EndlessRun settings where
  state := after {} later
  act n := later[n]?.map (·.1)
  phase_zero := by cases later <;> rfl
  posts_zero := by cases later <;> rfl
  broken_zero := by cases later <;> rfl
  orderly_zero := by cases later <;> exact WorkQueue.orderly_new ""
  processing_zero := by cases later <;> rfl
  step n := (h.step n).1
  rest n := (h.step n).2

theorem Play.fair {later : List (Act × Engine)} (h : Play settings {} later)
    (hrest : ∀ p ∈ (after {} later later.length).posts, p.key? = none) : h.endless.Fair := by
  intro who n hbusy
  obtain ⟨p, hp, hkey⟩ := hbusy (max n later.length) (Nat.le_max_left _ _)
  have hlast : h.endless.state (max n later.length) = after {} later later.length :=
    after_length _ _ (Nat.le_max_right _ _)
  rw [hlast] at hp
  simp [hrest p (List.mem_of_getElem? hp)] at hkey

section Example

private def web : ServiceKey := ⟨"default", "web"⟩

private def busy : Error := .tryAgain "busy"

private def stopping : Engine where
  queue := { processing := [web], shuttingDown := true }
  phase := .draining
  synced := true
  stopped := true
  posts := [.syncing web (.done (.error busy))]

private theorem Steps.only {p' : Post} {d : Post.Deed} {queue : WorkQueue ServiceKey} (hp : s.posts = [p])
    (h : p.Works settings s.queue d queue p') : Steps settings s (.worker 0 d) { s with queue, posts := [p'] } := by
  have hstep : Steps settings s (.worker 0 d) { s with queue, posts := s.posts.set 0 p' } := .worker (by simp [hp]) h
  rwa [hp] at hstep

private theorem reaches_stopping (hone : settings.workers = 1) :
    ∃ later, Play settings {} later ∧ after {} later later.length = stopping := by
  have hhired : ([] : List Post) ++ List.replicate settings.workers .asking = [.asking] := by simp [hone]
  refine ⟨_, .cons (.resolve _) <| .cons (.add _ web) <|
    .cons (@Steps.run _ _ ⟨true, false, false, false, false⟩ _ _ ⟨fun _ => rfl, nofun, nofun⟩ rfl) <|
    .cons (.only hhired (.get rfl)) <|
    .cons (.only rfl (.exchange (none : Option CacheEntry))) <|
    .cons (.only rfl (.exchange (.error busy : Except Error (Option Service)))) <|
    .cons (.only rfl (.exchange ())) <| .cons (.only rfl (.exchange ())) <| .cons (.stop _) <|
    .cons (@Steps.run _ _ ⟨true, true, false, false, false⟩ _ _ ⟨fun _ => rfl, fun _ => rfl, nofun⟩ rfl) <| .nil _, ?_⟩
  rfl

private def ending : List (Act × Engine) :=
  [(.worker 0 .conclude, { stopping with posts := [.synced web (some (.error busy))] }),
    (.worker 0 (.putBack .zero .zero { settings := {} }), { stopping with posts := [.releasing web] }),
    (.worker 0 .release, { stopping with queue := stopping.queue.release web, posts := [.asking] }),
    (.worker 0 .leave, { stopping with queue := stopping.queue.release web, posts := [.gone] }),
    (.run .finish, { stopping with queue := stopping.queue.release web, posts := [.gone], phase := .ended })]

private theorem play_ending : Play { workers := 1 } stopping ending :=
  .cons (.only rfl .conclude) <| .cons (.only rfl (@Post.Works.putBack _ _ _ _ _ _ _ ⟨"error", .ofSeconds 5⟩ rfl nofun)) <|
  .cons (.only rfl .release) <| .cons (.only rfl (.leave rfl)) <|
  .cons (@Steps.run _ _ ⟨true, true, false, false, true⟩ _ _
    ⟨fun _ => rfl, fun _ => rfl, fun _ _ hp => .inl (List.mem_singleton.mp hp)⟩ rfl) <| .nil _

/-- A sync that fails while the run drains is followed by the release of its key, and then the run returns. -/
theorem released_while_draining : ∃ (r : EndlessRun { workers := 1 }) (n : Nat), r.Lifecycle ∧ r.Fair ∧
    r.state n = stopping ∧ r.Releases (n + 2) 0 web ∧ (r.state (n + 5)).Returned ∧
    (r.state (n + 5)).queue.processing = [] := by
  have hone : ({ workers := 1 } : Settings).workers = 1 := rfl
  obtain ⟨later, hplay, hlast⟩ := reaches_stopping hone
  have hall := hplay.append (hlast ▸ play_ending)
  have hstate (k : Nat) : hall.endless.state (later.length + k) = after stopping ending k :=
    (after_append {} later ending k).trans (by rw [hlast])
  have hact : hall.endless.act (later.length + 2) = some (.worker 0 .release) := by
    simp [Play.endless, ending]
  refine ⟨hall.endless, later.length, hall.endless.lifecycle, hall.fair ?_, hstate 0, ⟨?_, hact⟩, ?_, ?_⟩
  · rw [List.length_append, after_append, hlast]
    simp [ending, after, Post.key?]
  · rw [hstate]
    rfl
  · rw [hstate]
    exact ⟨rfl, rfl⟩
  · rw [hstate]
    decide

private def downfall : List (Act × Engine) :=
  [(.worker 0 .conclude, { stopping with posts := [.synced web (some (.error busy))] }),
    (.worker 0 (.putBack .zero .zero { settings := {} }), { stopping with posts := [.lost web] }),
    (.run .finish, { stopping with posts := [.lost web], phase := .ended })]

private def farOff : Settings := { workers := 1, errorRequeueSecs := Nat.pow 2 63 - 1 }

private theorem play_downfall : Play farOff stopping downfall :=
  .cons (.only rfl .conclude) <| .cons (.only rfl (@Post.Works.lose _ _ _ _ _ _ _ ⟨"error", .ofSeconds (Nat.pow 2 63 - 1)⟩ rfl
    (WorkQueue.addAfter_eq_overflow.mpr ⟨by decide, by decide⟩))) <|
  .cons (@Steps.run _ _ ⟨true, true, false, false, true⟩ _ _
    ⟨fun _ => rfl, fun _ => rfl, fun _ _ hp => .inr ⟨web, List.mem_singleton.mp hp⟩⟩ rfl) <| .nil _

/-- A key that was handed out before the queue was shut down is not released, and the run returns. -/
theorem unreleased_far_off : ∃ (r : EndlessRun farOff) (n : Nat), r.Fair ∧ r.state n = stopping ∧
    (r.state (n + 3)).Returned ∧ ∀ k, web ∈ (r.state (n + k)).queue.processing ∧ ¬ r.Releases (n + k) 0 web := by
  have hone : farOff.workers = 1 := rfl
  obtain ⟨later, hplay, hlast⟩ := reaches_stopping hone
  have hall := hplay.append (hlast ▸ play_downfall)
  have hstate (k : Nat) : hall.endless.state (later.length + k) = after stopping downfall k :=
    (after_append {} later downfall k).trans (by rw [hlast])
  refine ⟨hall.endless, later.length, hall.fair ?_, hstate 0, ?_, fun k => ?_⟩
  · rw [List.length_append, after_append, hlast]
    simp [downfall, after, Post.key?]
  · rw [hstate]
    exact ⟨rfl, rfl⟩
  · have hmem : after stopping downfall k ∈ stopping :: downfall.map (·.2) := after_mem stopping downfall k
    rw [EndlessRun.Releases, hstate]
    generalize after stopping downfall k = s at hmem ⊢
    simp only [downfall, List.map_cons, List.map_nil, List.mem_cons, List.not_mem_nil, or_false] at hmem
    rcases hmem with rfl | rfl | rfl | rfl <;> exact ⟨.head _, nofun⟩

end Example

end Simulation.Engine
end ServiceBalancer
