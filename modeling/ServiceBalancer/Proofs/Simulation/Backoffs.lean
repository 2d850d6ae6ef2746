import ServiceBalancer.Proofs.Backoff.History
import ServiceBalancer.Proofs.Interleaving.Operation

/-! The backoffs of workers at work. Whatever is done on a site, each of them has only been asked for delays and let relax
since its worker was hired. -/
namespace ServiceBalancer.Simulation.Site
variable {s t u : Site}

def Charted (s : Site) : Prop := ∀ w ∈ s.workers, ∃ log, Backoff.History s.settings.backoff log w.backoff

structure Charts (s t : Site) : Prop where
  settings_eq : t.settings = s.settings
  charted : s.Charted → t.Charted

theorem Charts.trans (h : Charts s t) (h' : Charts t u) : Charts s u :=
  ⟨h'.settings_eq.trans h.settings_eq, fun hs => h'.charted (h.charted hs)⟩

/-- Everything but the settings and the workers is no matter. -/
theorem Charts.aside (hsettings : t.settings = s.settings) (hworkers : t.workers = s.workers) : Charts s t := by
  refine ⟨hsettings, fun hs w hw => ?_⟩
  rw [hsettings]
  exact hs w (hworkers ▸ hw)

theorem Charts.refl (s : Site) : Charts s s := .aside rfl rfl

/-! ### Workers -/

/-- A worker may be set to anything with a backoff that has a history. -/
theorem charts_setWorker (s : Site) {timed : TimedQueue ServiceKey Actor} {world : World} (index : Nat) {b : Backoff}
    {activity : Activity} (hb : s.Charted → ∃ log, Backoff.History s.settings.backoff log b) :
    Charts s ({ s with timed, world }.setWorker index { backoff := b, activity }) := by
  obtain ⟨timed', he, -⟩ := setWorker_eq { s with timed, world } index { backoff := b, activity }
  rw [he]
  refine ⟨rfl, fun hs w hw => ?_⟩
  rcases List.mem_or_eq_of_mem_set hw with hold | rfl
  · exact hs w hold
  · exact hb hs

theorem charts_finishSync (s : Site) (index : Nat) {w : WorkerState} (hw : w ∈ s.workers) (key : ServiceKey)
    (outcome : SyncOutcome) : Charts s (s.finishSync index w key outcome).2 := by
  have hbackoff : s.Charted → ∃ log, Backoff.History s.settings.backoff log
      (Worker.requeue? s.settings.errorRequeue quietClock w.backoff outcome).2 := by
    intro hs
    obtain ⟨log, h⟩ := hs w hw
    rcases Worker.requeue?_cases s.settings.errorRequeue quietClock w.backoff outcome with
      ⟨-, he⟩ | ⟨-, he⟩ | ⟨-, -, reason, he⟩ <;> rw [he]
    · exact ⟨log, h⟩
    · exact ⟨_, .next quietClock h⟩
    · exact ⟨log, h⟩
  simp only [finishSync]
  split
  · dsimp only
    exact s.charts_setWorker index hbackoff
  · dsimp only
    exact s.charts_setWorker index hbackoff

theorem charts_stage (s : Site) (index : Nat) : Charts s (s.stage index).2 := by
  cases hw : s.workers[index]? with
  | none =>
    simp only [stage, hw]
    exact .refl s
  | some w =>
    have hmem : w ∈ s.workers := List.mem_of_getElem? hw
    cases hact : w.activity with
    | gone =>
      simp only [stage, hw, hact]
      exact .refl s
    | asking =>
      simp only [stage, hw, hact]
      generalize s.timed.poll (.worker index) = polled
      obtain ⟨handout, timed⟩ := polled
      cases handout with
      | item key =>
        dsimp only
        exact s.charts_setWorker index fun hs => hs w hmem
      | closed =>
        dsimp only
        exact s.charts_setWorker index fun hs => hs w hmem
      | blocked => exact .aside rfl rfl
    | syncing key rest =>
      simp only [stage, hw, hact]
      generalize rest.advance (World.reply s.now) s.world = advance
      obtain ⟨progress, world⟩ := advance
      have haside : Charts s { s with world } := .aside rfl rfl
      have hends : ∀ outcome, Charts s (({ s with world } : Site).finishSync index w key outcome).2 :=
        fun outcome => haside.trans (charts_finishSync { s with world } index hmem key outcome)
      cases progress with
      | finished result => exact hends (some result)
      | broken => exact hends none
      | paused pause rest =>
        dsimp only
        exact s.charts_setWorker index fun hs => hs w hmem
      | stuck => exact haside

theorem charts_work (s : Site) (index fuel : Nat) : Charts s (s.work index fuel) := by
  induction fuel generalizing s with
  | zero => exact .refl s
  | succ fuel ih =>
    have hstage := s.charts_stage index
    rw [work]
    generalize s.stage index = next at hstage ⊢
    rcases next with ⟨_ | _, t⟩
    · exact hstage
    · exact hstage.trans (ih t)

/-! ### The run -/

theorem charts_addAll (s : Site) (keys : List ServiceKey) :
    Charts s (keys.foldl (fun s key => s.react (.enqueue key)) s) := by
  induction keys generalizing s with
  | nil => exact .refl s
  | cons key keys ih =>
    have hadded : Charts s (s.react (.enqueue key)) := .aside rfl rfl
    exact hadded.trans (ih _)

theorem charts_move (s : Site) (run : RunState) (next : Controller.Move) : Charts s (s.move run next) := by
  cases next with
  | startWorkers =>
    obtain ⟨timed, workers, decayAt, resyncAt, hworkers, -, ht⟩ := s.move_startWorkers run
    have hhired : s.Charted → ∀ w ∈ workers, ∃ log, Backoff.History s.settings.backoff log w.backoff := by
      intro hs w hw
      rw [hworkers] at hw
      rcases List.mem_append.mp hw with hold | hnew
      · exact hs w hold
      · obtain rfl := List.eq_of_mem_replicate hnew
        exact ⟨[], .new⟩
    rcases ht with ht | ht <;> rw [ht]
    · exact ⟨rfl, hhired⟩
    · refine ⟨rfl, fun hs w hw => ?_⟩
      obtain ⟨w', hw', rfl⟩ := List.mem_map.mp hw
      exact hhired hs w' hw'
  | shutDown => exact .aside rfl rfl
  | relaxBackoffs =>
    obtain ⟨timed, world, decayAt, ht, -, -⟩ := s.move_relaxBackoffs run
    rw [ht]
    refine ⟨rfl, fun hs w hw => ?_⟩
    obtain ⟨w', hw', rfl⟩ := List.mem_map.mp hw
    obtain ⟨log, h⟩ := hs w' hw'
    exact ⟨_, .relax quietClock h⟩
  | resync =>
    obtain ⟨timed, world, resyncAt, keys, ht, -, -⟩ := s.move_resync run
    rw [ht]
    have haside : Charts s { s with run := some { run with resyncAt }, timed, world } := .aside rfl rfl
    exact haside.trans (charts_addAll _ keys)
  | finish => exact .aside rfl rfl

theorem charts_attend (s : Site) (fuel : Nat) : Charts s (s.attend fuel) := by
  induction fuel generalizing s with
  | zero => exact .refl s
  | succ fuel ih =>
    rw [attend]
    cases s.run with
    | none => exact .refl s
    | some run =>
      dsimp only
      cases run.phase.move? (s.sight run) with
      | none => exact .refl s
      | some next => exact (s.charts_move _ next.1).trans (ih _)

theorem charts_serve (s : Site) (actor : Actor) : Charts s (s.serve actor) := by
  cases actor with
  | worker index =>
    rw [serve]
    exact s.charts_work index _
  | run =>
    rw [serve]
    exact s.charts_attend _

theorem charts_step (hstep : s.step? = some t) : Charts s t := by
  obtain ⟨⟨actor, timed⟩, -, rfl⟩ := Option.map_eq_some_iff.mp hstep
  have haside : Charts s { s with timed } := .aside rfl rfl
  cases actor with
  | none => exact haside
  | some actor => exact haside.trans (charts_serve _ actor)

/-! ### Whole runs -/

/-- Sites that have come of one in which nobody was hired yet: by the turns of those at work, by hiring, and by whatever
leaves the settings and the workers alone, as the passing of time and all changes from outside do. -/
inductive Grown : Site → Prop
  | opened {s : Site} (hnobody : s.workers = []) : Grown s
  | turn {s t : Site} (h : Grown s) (hstep : s.step? = some t) : Grown t
  | hired {s : Site} (h : Grown s) : Grown s.hire
  | aside {s t : Site} (h : Grown s) (hsettings : t.settings = s.settings) (hworkers : t.workers = s.workers) : Grown t

theorem Grown.charted (h : s.Grown) : s.Charted := by
  induction h with
  | opened hnobody =>
    intro w hw
    rw [hnobody] at hw
    cases hw
  | turn h hstep ih => exact (charts_step hstep).charted ih
  | hired h ih =>
    intro w hw
    rcases List.mem_append.mp hw with hold | hnew
    · exact ih w hold
    · obtain rfl := List.mem_singleton.mp hnew
      exact ⟨[], .new⟩
  | aside h hsettings hworkers ih => exact (Charts.aside hsettings hworkers).charted ih

theorem Grown.settleWithin (h : s.Grown) (fuel : Nat) : (line.settleWithin fuel s).Grown := by
  induction fuel generalizing s with
  | zero => exact h
  | succ fuel ih =>
    rw [Timeline.settleWithin]
    cases hstep : line.step? s with
    | none => exact h
    | some t => exact ih (h.turn hstep)

theorem Grown.passWithin (h : s.Grown) (time fuel : Nat) : (line.passWithin time fuel s).Grown := by
  have hmoved : ∀ {s : Site} (t : Nat), s.Grown →
      (line.setAgenda (line.settle s) ((line.agenda (line.settle s)).moveTo t)).Grown :=
    fun t hs => (hs.settleWithin Timeline.patience).aside rfl rfl
  induction fuel generalizing s with
  | zero => exact h
  | succ fuel ih =>
    rw [Timeline.passWithin]
    dsimp only
    split
    · split_ifs
      · exact ih (hmoved _ h)
      · exact hmoved time h
    · exact hmoved time h

/-- Time passes on a site without leaving the sites that have come of an empty one. -/
theorem Grown.pass (h : s.Grown) (millis : Nat) : (s.pass millis).Grown := by
  rw [Site.pass, Timeline.passTo]
  split_ifs
  · exact h
  · exact h.passWithin _ _

end ServiceBalancer.Simulation.Site
