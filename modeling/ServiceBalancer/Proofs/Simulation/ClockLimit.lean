import ServiceBalancer.Proofs.Backoff.Floor
import ServiceBalancer.Proofs.Interleaving.Lifecycle
import ServiceBalancer.Proofs.Queue.Timers
import ServiceBalancer.Proofs.Simulation.Backoffs

/-! What the controller adds to the time on the clock: the delays of keys that are put back, and the first ends of its
intervals. What is past what the clock can show takes a worker with its key, or the run with all its workers. -/
namespace ServiceBalancer

/-- Whether the clock can show the moment after a span. -/
def Fits (now delay : Duration) : Prop := now + delay < clockLimit

theorem fits_zero_iff {now : Duration} : Fits now .zero ↔ now < clockLimit := by
  have hsum : now + Duration.zero = now := rfl
  rw [Fits, hsum]

theorem Fits.mono {now short long : Duration} (hle : short ≤ long) (h : Fits now long) : Fits now short :=
  Nat.lt_of_le_of_lt (Nat.add_le_add_left hle now.nanos) h

theorem Worker.handBack_eq_overflow_iff {α : Type} [DecidableEq α] {q : WorkQueue α} {a : α} {now : Duration}
    {r : Requeue} : handBack q now a (some r) = .overflow ↔ r.delay ≠ .zero ∧ ¬ Fits now r.delay := by
  have hfits : ¬ Fits now r.delay ↔ clockLimit ≤ (⟨now.nanos + r.delay.nanos⟩ : Duration) := Nat.not_lt
  rw [hfits, ← WorkQueue.addAfter_eq_overflow (q := q) (a := a), handBack]
  cases q.addAfter now a r.delay <;> simp

namespace Simulation.Site
variable {s : Site}

theorem startInterval?_eq_none_iff {interval : Duration} :
    s.startInterval? interval = none ↔ ¬ Fits s.timed.agenda.clock interval := by
  have hfits : ¬ Fits s.timed.agenda.clock interval ↔
      clockLimit ≤ (⟨s.timed.agenda.clock.nanos + interval.nanos⟩ : Duration) := Nat.not_lt
  rw [hfits, startInterval?]
  by_cases hover : clockLimit ≤ (⟨s.timed.agenda.clock.nanos + interval.nanos⟩ : Duration)
  · simp [hover]
  · simp [hover]

private theorem startInterval?_clock {interval : Duration} {moment : Nat} {t : Site}
    (h : s.startInterval? interval = some (moment, t)) :
    t.settings = s.settings ∧ t.timed.agenda.clock = s.timed.agenda.clock := by
  unfold startInterval? at h
  dsimp only at h
  split_ifs at h
  cases h
  exact ⟨rfl, rfl⟩

private theorem hire_all_clock (s : Site) (count : Nat) :
    ((List.range count).foldl (fun s _ => s.hire) s).settings = s.settings ∧
      ((List.range count).foldl (fun s _ => s.hire) s).timed.agenda.clock = s.timed.agenda.clock := by
  induction count with
  | zero => exact ⟨rfl, rfl⟩
  | succ count ih =>
    rw [List.range_succ, List.foldl_append]
    exact ih

/-- A run that starts its workers breaks down exactly if the first end of one of its intervals is out of reach. -/
theorem startWorkers_unbroken_iff (s : Site) {run : RunState} (hrun : run.broken = false) :
    (s.startWorkers run).run.any (·.broken) = false ↔ Fits s.timed.agenda.clock s.decayInterval ∧
      ∀ period, s.settings.resyncPeriod? = some period → Fits s.timed.agenda.clock period := by
  -- The intervals are kept shut: opened, they compute with what the clock can show.
  obtain ⟨interval?, hinterval⟩ : ∃ f, f = startInterval? := ⟨_, rfl⟩
  have hnone := @startInterval?_eq_none_iff
  have hsome := @startInterval?_clock
  generalize hstart : startWorkers = start
  delta startWorkers at hstart
  rw [← hinterval] at hstart hnone hsome
  subst hstart
  obtain ⟨hsettings, hclock⟩ := hire_all_clock s s.settings.workers
  dsimp only
  generalize (List.range s.settings.workers).foldl (fun s _ => s.hire) s = hired at hsettings hclock
  have hdecay : hired.decayInterval = s.decayInterval := by rw [decayInterval, hsettings, decayInterval]
  rw [hdecay, ← hclock]
  cases hfirst : interval? hired s.decayInterval with
  | none => exact iff_of_false nofun fun h => hnone.mp hfirst h.1
  | some first =>
    obtain ⟨decayAt, hired'⟩ := first
    obtain ⟨hsettings', hclock'⟩ := hsome hfirst
    have hfits : Fits hired.timed.agenda.clock s.decayInterval := by
      by_contra h
      cases hfirst.symm.trans (hnone.mpr h)
    dsimp only
    rw [hsettings', hsettings]
    cases s.settings.resyncPeriod? with
    | none => exact iff_of_true hrun ⟨hfits, nofun⟩
    | some period =>
      dsimp only
      cases hsecond : interval? hired' period with
      | none =>
        refine iff_of_false nofun fun h => hnone.mp hsecond ?_
        rw [hclock']
        exact h.2 period rfl
      | some second =>
        refine iff_of_true hrun ⟨hfits, fun period' h => ?_⟩
        cases h
        rw [← hclock']
        by_contra hover
        cases hsecond.symm.trans (hnone.mpr hover)

/-! ### All that is added to the clock -/

/-- Whether nothing that the controller adds to the time on its clock is out of reach: no delay after which a worker may
put a key back, whatever its backoff has been through and its sync has come to, and no interval of the run. -/
def InReach (s : Site) : Prop :=
  (∀ log b, Backoff.History s.settings.backoff log b → ∀ (outcome : SyncOutcome) (clock : Duration)
      (q : WorkQueue ServiceKey) (key : ServiceKey),
    Worker.handBack q s.timed.agenda.clock key (Worker.requeue? s.settings.errorRequeue clock b outcome).1 ≠
      .overflow) ∧
  ∀ run : RunState, run.broken = false → (s.startWorkers run).run.any (·.broken) = false

theorem inReach_iff (hclock : s.timed.agenda.clock < clockLimit) :
    s.InReach ↔ Fits s.timed.agenda.clock s.settings.errorRequeue ∧
      (∀ n, Fits s.timed.agenda.clock (Backoff.course s.settings.backoff n)) ∧
      Fits s.timed.agenda.clock s.decayInterval ∧
      ∀ period, s.settings.resyncPeriod? = some period → Fits s.timed.agenda.clock period := by
  have hfits : ∀ {delay}, Fits s.timed.agenda.clock delay ↔ ¬ (delay ≠ .zero ∧ ¬ Fits s.timed.agenda.clock delay) := by
    intro delay
    by_cases hz : delay = .zero
    · subst hz
      exact iff_of_true (fits_zero_iff.mpr hclock) fun h => h.1 rfl
    · exact ⟨fun h h' => h'.2 h, fun h => by_contra fun h' => h ⟨hz, h'⟩⟩
  rw [← Backoff.forall_next_iff (P := fun delay => Fits s.timed.agenda.clock delay)]
  constructor
  · rintro ⟨hback, hrun⟩
    have hrun' := (s.startWorkers_unbroken_iff rfl).mp (hrun {} rfl)
    refine ⟨?_, fun log b h now => ?_, hrun'⟩
    · have h := hback [] _ .new none .zero {} ⟨"", ""⟩
      rwa [ne_eq, show (Worker.requeue? s.settings.errorRequeue .zero _ none).1 = some ⟨"panic", _⟩ from rfl,
        Worker.handBack_eq_overflow_iff, ← hfits] at h
    · have hnext := hback log b h (some (.error (.cloud ⟨.throttled, ""⟩))) now {} ⟨"", ""⟩
      rwa [ne_eq, show (Worker.requeue? s.settings.errorRequeue now b _).1 = some ⟨"throttled", (b.next now).1⟩ from rfl,
        Worker.handBack_eq_overflow_iff, ← hfits] at hnext
  · rintro ⟨herror, hcourse, hrun⟩
    refine ⟨fun log b h outcome clock q key => ?_, fun run hbroken => (s.startWorkers_unbroken_iff hbroken).mpr hrun⟩
    rcases Worker.requeue?_cases s.settings.errorRequeue clock b outcome with ⟨-, he⟩ | ⟨-, he⟩ | ⟨-, -, reason, he⟩ <;>
      rw [he]
    · nofun
    · rw [ne_eq, Worker.handBack_eq_overflow_iff, ← hfits]
      exact hcourse log b h clock
    · rw [ne_eq, Worker.handBack_eq_overflow_iff, ← hfits]
      exact herror

/-- Within reach a worker that ends a sync goes on. -/
theorem InReach.finishSync (h : s.InReach) (hgrown : s.Grown) {index : Nat} {w : WorkerState}
    (hw : s.workers[index]? = some w) (key : ServiceKey) (outcome : SyncOutcome) :
    (s.finishSync index w key outcome).1 = true := by
  obtain ⟨log, hlog⟩ := hgrown.charted w (List.mem_of_getElem? hw)
  have hfits := h.1 log w.backoff hlog outcome quietClock s.timed.queue key
  obtain ⟨timed, he, -, -⟩ := s.timed.delayed?_eq_some key hfits
  simp only [Site.finishSync, he]

/-- A worker that cannot put its key back is gone, and nothing has changed in the queue. -/
theorem finishSync_of_overflow {index : Nat} {w : WorkerState} {key : ServiceKey} {outcome : SyncOutcome}
    (hindex : index < s.workers.length)
    (hover : Worker.handBack s.timed.queue s.timed.agenda.clock key
      (Worker.requeue? s.settings.errorRequeue quietClock w.backoff outcome).1 = .overflow) :
    (s.finishSync index w key outcome).1 = false ∧ (s.finishSync index w key outcome).2.timed.queue = s.timed.queue ∧
      ((s.finishSync index w key outcome).2.workers[index]?).any WorkerState.isGone = true := by
  have hlost : ∃ world b, s.finishSync index w key outcome =
      (false, { s with world }.setWorker index { backoff := b, activity := .gone }) := by
    simp only [finishSync, hover, TimedQueue.delayed?]
    exact ⟨_, _, rfl⟩
  obtain ⟨world, b, hlost⟩ := hlost
  obtain ⟨timed, he, hqueue⟩ := setWorker_eq { s with world } index { backoff := b, activity := .gone }
  rw [hlost, he]
  exact ⟨rfl, hqueue, by simp [hindex, WorkerState.isGone]⟩

/-- With accepted settings nothing is out of reach at a moment if and only if the clock can show what comes of the fixed
delay, of every delay of the course of throttling and of both intervals; and so it is if the clock can show what comes of
the four settings. Then no worker is lost as it ends a sync. Else one that puts a key back too late is lost, and the key
stays in hand. -/
theorem in_reach_iff (hs : s.settings.validate = .ok ()) (hclock : s.timed.agenda.clock < clockLimit) :
    (s.InReach ↔ Fits s.timed.agenda.clock s.settings.errorRequeue ∧
      (∀ n, Fits s.timed.agenda.clock (Backoff.course s.settings.backoff n)) ∧
      Fits s.timed.agenda.clock s.decayInterval ∧
      ∀ period, s.settings.resyncPeriod? = some period → Fits s.timed.agenda.clock period) ∧
    ((∀ secs ∈ [s.settings.errorRequeueSecs, s.settings.backoff.ceilingSecs, s.settings.backoff.decayCheckSecs,
        s.settings.resyncSecs], Fits s.timed.agenda.clock (.ofSeconds secs)) → s.InReach) ∧
    (s.InReach → s.Grown → ∀ index w key outcome, s.workers[index]? = some w →
      (s.finishSync index w key outcome).1 = true) ∧
    ∀ index w key outcome, index < s.workers.length → key ∈ s.timed.queue.processing →
      Worker.handBack s.timed.queue s.timed.agenda.clock key
        (Worker.requeue? s.settings.errorRequeue quietClock w.backoff outcome).1 = .overflow →
      key ∈ (s.finishSync index w key outcome).2.timed.queue.processing ∧
        ((s.finishSync index w key outcome).2.workers[index]?).any WorkerState.isGone = true := by
  have hiff := s.inReach_iff hclock
  refine ⟨hiff, fun hfits => hiff.mpr ⟨?_, fun n => ?_, ?_, fun period hperiod => ?_⟩,
    fun h hgrown index w key outcome hw => h.finishSync hgrown hw key outcome, ?_⟩
  · exact hfits _ (by simp)
  · exact (hfits _ (by simp)).mono (Backoff.course_le_ceiling (s.settings.accepted_of_validate hs) n)
  · exact hfits _ (by simp)
  · unfold Settings.resyncPeriod? at hperiod
    split_ifs at hperiod
    cases hperiod
    exact hfits _ (by simp)
  · intro index w key outcome hindex hheld hover
    obtain ⟨-, hqueue, hgone⟩ := finishSync_of_overflow hindex hover
    rw [hqueue]
    exact ⟨hheld, hgone⟩

private def started (settings : Settings) : Site := { settings, world := {} }

private theorem clock_started (settings : Settings) : (started settings).timed.agenda.clock = .zero := by
  simp [started, Agenda.clock, Duration.ofMillis, Duration.zero]

private theorem started_clock (settings : Settings) : (started settings).timed.agenda.clock < clockLimit := by
  rw [clock_started]
  decide

/-- The defaults are within reach. -/
theorem in_reach_default : ({} : Settings).validate = .ok () ∧
    (started {}).timed.agenda.clock < clockLimit ∧ (started {}).InReach := by
  have hs : ({} : Settings).validate = .ok () := by rfl
  refine ⟨hs, started_clock {}, (in_reach_iff (s := started {}) hs (started_clock {})).2.1 fun secs hsecs => ?_⟩
  have hle : secs ≤ 600 := by
    simp [started] at hsecs
    omega
  have hfits : Fits (started {}).timed.agenda.clock (.ofSeconds 600) := by
    rw [clock_started, Fits]
    decide
  exact hfits.mono (Duration.ofSeconds_mono hle)

private def farOff : Nat := Nat.pow 2 63 - 1

private theorem not_fits_farOff (settings : Settings) :
    ¬ Fits (started settings).timed.agenda.clock (.ofSeconds farOff) := by
  rw [clock_started, Fits]
  decide

private def AcceptedOutOfReach (settings : Settings) : Prop :=
  settings.validate = .ok () ∧ (started settings).timed.agenda.clock < clockLimit ∧ ¬ (started settings).InReach

/-- Each of the four settings may be out of reach. -/
theorem not_in_reach_farOff :
    AcceptedOutOfReach { errorRequeueSecs := farOff } ∧
    AcceptedOutOfReach { backoff := { floorSecs := farOff, ceilingSecs := farOff } } ∧
    AcceptedOutOfReach { backoff := { decayCheckSecs := farOff } } ∧
    AcceptedOutOfReach { resyncSecs := farOff } := by
  refine ⟨⟨by rfl, started_clock _, fun h => ?_⟩, ⟨by rfl, started_clock _, fun h => ?_⟩,
    ⟨by rfl, started_clock _, fun h => ?_⟩, ⟨by rfl, started_clock _, fun h => ?_⟩⟩ <;>
    obtain ⟨herror, hcourse, hdecay, hresync⟩ := (inReach_iff (started_clock _)).mp h
  · exact not_fits_farOff _ herror
  · exact not_fits_farOff _ (hcourse 0)
  · exact not_fits_farOff _ hdecay
  · exact not_fits_farOff _ (hresync _ rfl)

end Simulation.Site
end ServiceBalancer
