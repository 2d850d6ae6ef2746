import ServiceBalancer.Controller
import ServiceBalancer.Simulation.RemoteSite
import Mathlib.Logic.Relation

/-! How far the stores of a remote cluster come towards their first complete listings. The informers go on in any
order, and any of them may be given up at any time. A store that is complete stays so, one that was abandoned before
its first listing never becomes complete, and waiting for all stores is over in both cases. -/
namespace ServiceBalancer.Simulation
open Relation StorePhase

/-! ### One informer -/

namespace WatchTask
variable {α : Type} [Resource α]

inductive Step : WatchTask α → WatchTask α → Prop
  | start (t : WatchTask α) : Step t t.start
  | stop (t : WatchTask α) : Step t t.stop
  | wake (t : WatchTask α) (now : Nat) : Step t (t.wake now)
  /-- A step of the watch, after which the informer runs on or pauses. -/
  | take (t : WatchTask α) (s : Watch.Outcome α × Watch α) (activity : WatchActivity) :
      t.activity = .running → activity ≠ .resting → activity ≠ .stopped →
      Step t { t with informer := (t.informer.take s).2, activity }
  /-- What it asked for is never answered. -/
  | hang (t : WatchTask α) : t.activity = .running → Step t { t with activity := .silent }
  /-- The rest of a stream comes in, or what was told is read. -/
  | exchange (t : WatchTask α) (stream : List Json × Bool) (deltas : List (Delta α)) :
      Step t { t with stream, deltas }

variable {t u : WatchTask α}

omit [Resource α] in
@[simp] theorem start_informer (t : WatchTask α) : t.start.informer = t.informer := by
  rw [WatchTask.start]; split <;> rfl

omit [Resource α] in
@[simp] theorem stop_informer (t : WatchTask α) : t.stop.informer = t.informer := by
  rw [WatchTask.stop]; split <;> rfl

omit [Resource α] in
@[simp] theorem wake_informer (t : WatchTask α) (now : Nat) : (t.wake now).informer = t.informer := by
  unfold wake
  split
  · split <;> rfl
  · rfl

/-- A first listing is never taken back. -/
theorem ready_step (e : WatchEvent α) (r : Reflector α) (h : r.ready = true) : (r.step e).2.ready = true := by
  cases e <;> first | exact h | rfl

theorem ready_take (i : Informer α) (s : Watch.Outcome α × Watch α) (h : i.reflector.ready = true) :
    (i.take s).2.reflector.ready = true := by
  rcases s with ⟨_ | e | _, w⟩
  · exact h
  · exact ready_step e _ h
  · exact h

omit [Resource α] in
theorem phase_eq_complete : t.phase = .complete ↔ t.informer.reflector.ready = true := by
  unfold phase
  split
  · simp_all
  · split <;> simp_all

omit [Resource α] in
theorem phase_eq_abandoned :
    t.phase = .abandoned ↔ t.informer.reflector.ready = false ∧ t.activity = .stopped := by
  unfold phase
  split
  · simp_all
  · split <;> simp_all

/-- A store that is complete or abandoned is so for good. -/
theorem Step.phase_eq (h : Step t u) (hp : t.phase ≠ .waiting) : u.phase = t.phase := by
  rcases hc : t.phase with _ | _ | _
  · exact absurd hc hp
  · have hr := phase_eq_complete.mp hc
    refine phase_eq_complete.mpr ?_
    cases h with
    | start => rwa [start_informer]
    | stop => rwa [stop_informer]
    | wake => rwa [wake_informer]
    | take s activity => exact ready_take _ s hr
    | hang | exchange => exact hr
  · have ha := phase_eq_abandoned.mp hc
    refine phase_eq_abandoned.mpr ?_
    cases h with
    | start | stop | wake => simpa [WatchTask.start, WatchTask.stop, WatchTask.wake, ha.2] using ha
    | take _ _ hr | hang hr => exact absurd (hr.symm.trans ha.2) nofun
    | exchange => exact ha

/-- An answer changes at most the stream of the informer that asked for it. -/
theorem reply_step (collection : String) (q : Watch.Request) (w : WatchTask α × ScriptedServer) :
    ∃ stream, (reply collection q w).2.1 = { w.1 with stream } := by
  obtain ⟨t, server⟩ := w
  cases q with
  | list start =>
    refine ⟨t.stream, ?_⟩
    simp only [reply]
    split <;> rfl
  | stream version =>
    simp only [reply]
    split
    · exact ⟨_, rfl⟩
    · split
      · exact ⟨_, rfl⟩
      · exact ⟨t.stream, rfl⟩
    · exact ⟨t.stream, rfl⟩
  | line =>
    simp only [reply]
    split
    · exact ⟨_, rfl⟩
    · exact ⟨t.stream, rfl⟩
    · exact ⟨t.stream, rfl⟩

theorem advance_step {β : Type} (collection : String) (p : Program (Watch.Answer α) β)
    (w : WatchTask α × ScriptedServer) :
    ∃ stream, (p.advance (reply collection) w).2.1 = { w.1 with stream } := by
  induction p generalizing w with
  | done a => exact ⟨w.1.stream, rfl⟩
  | ask q next ih =>
    obtain ⟨stream, h⟩ := reply_step collection q w
    simp only [Program.advance]
    rcases hr : reply collection q w with ⟨_ | _ | _ | _, w'⟩
    all_goals rw [hr] at h
    · obtain ⟨stream', h'⟩ := ih _ w'
      exact ⟨stream', by rw [h', h]⟩
    all_goals exact ⟨stream, h⟩

/-- Running an informer until it waits is nothing but steps of it. -/
theorem settleWithin_steps (collection : String) (now fuel : Nat) (w : WatchTask α × ScriptedServer) :
    ReflTransGen Step w.1 (settleWithin collection now fuel w).1 := by
  induction fuel generalizing w with
  | zero => exact .refl
  | succ fuel ih =>
    obtain ⟨t, server⟩ := w
    simp only [settleWithin]
    split
    · exact .refl
    next hr =>
    obtain ⟨stream, ha⟩ := advance_step collection t.informer.watch.step (t, server)
    have hx : Step t { t with stream } := .exchange t stream t.deltas
    have hrun : t.activity = .running := Decidable.not_not.mp hr
    rcases hp : t.informer.watch.step.advance (reply collection) (t, server) with ⟨progress, t', server'⟩
    rw [hp] at ha
    obtain rfl : t' = { t with stream } := ha
    cases progress with
    | finished s =>
      refine .head hx (.head (.take _ s _ hrun ?_ ?_) (.head (.exchange _ stream _) (ih (_, server'))))
      all_goals split <;> nofun
    | paused | stuck | broken => exact .head hx (.single (.hang _ hrun))

theorem steps_of_settleWithin {collection : String} {now fuel : Nat} {server server' : ScriptedServer}
    (h : settleWithin collection now fuel (t, server) = (u, server')) : ReflTransGen Step t u := by
  have hs := settleWithin_steps collection now fuel (t, server)
  rwa [h] at hs

end WatchTask

/-! ### Three informers -/

namespace RemoteSite

/-- A moment of a remote cluster: one of its informers makes a step, or nothing but the server and the time change. -/
inductive Step : RemoteSite → RemoteSite → Prop
  | services (s : RemoteSite) {t : WatchTask Service} : WatchTask.Step s.services t → Step s { s with services := t }
  | nodes (s : RemoteSite) {t : WatchTask Node} : WatchTask.Step s.nodes t → Step s { s with nodes := t }
  | endpoints (s : RemoteSite) {t : WatchTask Endpoints} :
      WatchTask.Step s.endpoints t → Step s { s with endpoints := t }
  | surroundings (s : RemoteSite) (server : ScriptedServer) (now : Nat) : Step s { s with server, now }

/-- What may become of a remote cluster in any time. -/
abbrev Run : RemoteSite → RemoteSite → Prop := ReflTransGen Step

variable {s t : RemoteSite}

theorem run_of_steps {services : WatchTask Service} {nodes : WatchTask Node} {endpoints : WatchTask Endpoints}
    (server : ScriptedServer) (now : Nat) (hs : ReflTransGen WatchTask.Step s.services services)
    (hn : ReflTransGen WatchTask.Step s.nodes nodes) (he : ReflTransGen WatchTask.Step s.endpoints endpoints) :
    Run s { server, services, nodes, endpoints, now } := by
  have first : Run s { s with services } :=
    hs.lift (fun t => { s with services := t }) fun t _ => Step.services { s with services := t }
  have second : Run { s with services } { s with services, nodes } :=
    hn.lift (fun t => { s with services, nodes := t }) fun t _ => Step.nodes { s with services, nodes := t }
  have third : Run { s with services, nodes } { s with services, nodes, endpoints } :=
    he.lift (fun t => { s with services, nodes, endpoints := t })
      fun t _ => Step.endpoints { s with services, nodes, endpoints := t }
  exact ((first.trans second).trans third).tail (.surroundings _ server now)

theorem settle_run (s : RemoteSite) : Run s s.settle := by
  rw [settle]
  split
  next services server hs =>
  split
  next nodes server' hn =>
  split
  next endpoints server'' he =>
  exact run_of_steps _ _ (WatchTask.steps_of_settleWithin hs) (WatchTask.steps_of_settleWithin hn)
    (WatchTask.steps_of_settleWithin he)

theorem moveTo_run (s : RemoteSite) (time : Nat) : Run s (s.moveTo time) :=
  run_of_steps _ _ (.single (.wake _ _)) (.single (.wake _ _)) (.single (.wake _ _))

theorem start_run (s : RemoteSite) : Run s s.start :=
  (run_of_steps s.server s.now (.single (.start _)) (.single (.start _)) (.single (.start _))).trans (settle_run _)

theorem abort_run (s : RemoteSite) : Run s s.abort :=
  run_of_steps _ _ (.single (.stop _)) (.single (.stop _)) (.single (.stop _))

theorem passWithin_run (enough : RemoteSite → Bool) (time fuel : Nat) (s : RemoteSite) :
    Run s (passWithin enough time fuel s) := by
  induction fuel generalizing s with
  | zero => exact .refl
  | succ fuel ih =>
    have last : Run s (s.settle.moveTo time).settle :=
      ((settle_run s).trans (moveTo_run _ time)).trans (settle_run _)
    simp only [passWithin]
    split
    · exact settle_run s
    · split
      · split
        · exact ((settle_run s).trans (moveTo_run _ _)).trans (ih _)
        · exact last
      · exact last

theorem waitForSync_run (s : RemoteSite) : Run s s.waitForSync.2 := passWithin_run _ _ _ s

/-! ### Waiting for all stores -/

private theorem phase_kept {α : Type} [Resource α] {t u : WatchTask α} {phase : StorePhase}
    (h : WatchTask.Step t u) (hp : phase ≠ .waiting) (ht : t.phase = phase) : u.phase = phase :=
  (h.phase_eq (ht ▸ hp)).trans ht

/-- What one store has come to stays as it is while any of the three goes on. -/
theorem Step.phase_kept (h : Step s t) (i : Nat) {phase : StorePhase} (hp : phase ≠ .waiting)
    (hi : s.phases[i]? = some phase) : t.phases[i]? = some phase := by
  rcases i with _ | _ | _ | i
  all_goals simp only [phases, List.getElem?_cons_zero, List.getElem?_cons_succ, Option.some.injEq] at hi ⊢
  · cases h with
    | services h => exact RemoteSite.phase_kept h hp hi
    | nodes | endpoints | surroundings => exact hi
  · cases h with
    | nodes h => exact RemoteSite.phase_kept h hp hi
    | services | endpoints | surroundings => exact hi
  · cases h with
    | endpoints h => exact RemoteSite.phase_kept h hp hi
    | services | nodes | surroundings => exact hi
  · simp at hi

theorem Run.phase_kept (h : Run s t) (i : Nat) {phase : StorePhase} (hp : phase ≠ .waiting)
    (hi : s.phases[i]? = some phase) : t.phases[i]? = some phase := by
  induction h with
  | refl => exact hi
  | tail _ hstep ih => exact hstep.phase_kept i hp ih

theorem Run.abandoned (h : Run s t) (hs : .abandoned ∈ s.phases) : .abandoned ∈ t.phases := by
  obtain ⟨i, hi⟩ := List.mem_iff_getElem?.mp hs
  exact List.mem_iff_getElem?.mpr ⟨i, h.phase_kept i nofun hi⟩

theorem Run.areSynced (h : Run s t) (hs : areSynced s.phases = true) : areSynced t.phases = true := by
  have hall : ∀ i < 3, t.phases[i]? = some .complete := by
    intro i hi
    refine h.phase_kept i nofun ?_
    have hl : i < s.phases.length := hi
    rw [List.getElem?_eq_getElem hl]
    exact congrArg some (of_decide_eq_true (List.all_eq_true.mp hs _ (List.getElem_mem hl)))
  refine List.all_eq_true.mpr fun phase hm => decide_eq_true ?_
  obtain ⟨i, hi⟩ := List.mem_iff_getElem?.mp hm
  have hl : i < 3 := (List.getElem?_eq_some_iff.mp hi).1
  exact Option.some.inj (hi.symm.trans (hall i hl))

private theorem waitIsOver_iff (phases : List StorePhase) :
    waitIsOver phases = true ↔ areSynced phases = true ∨ .abandoned ∈ phases := by
  simp [waitIsOver]

private theorem not_areSynced {phases : List StorePhase} (h : .abandoned ∈ phases) : areSynced phases ≠ true :=
  fun hs => absurd (of_decide_eq_true (List.all_eq_true.mp hs _ h)) nofun

/-- Once waiting is over it stays over. -/
theorem Run.waitIsOver (h : Run s t) (hs : waitIsOver s.phases = true) : waitIsOver t.phases = true :=
  (waitIsOver_iff _).mpr (((waitIsOver_iff _).mp hs).imp h.areSynced h.abandoned)

/-- In whatever order the informers went on: at the moment when waiting is over, and ever after, the stores are complete
unless one of them was abandoned before its first listing, and then they never are. The same holds of the stores that
a call has waited for, and of those over which a controller starts its workers because waiting is over. -/
theorem areSynced_iff_none_abandoned (later : Run s t) :
    (waitIsOver s.phases = true → (areSynced t.phases = true ↔ .abandoned ∉ s.phases)) ∧
      (∀ u : RemoteSite, u.waitForSync = (true, s) →
        (areSynced t.phases = true ↔ .abandoned ∉ s.phases)) ∧
      ∀ (sight : Controller.Sight) (next : Controller.Phase), sight.synced = waitIsOver s.phases →
        Controller.Phase.awaitingSync.move? sight = some (.startWorkers, next) →
        (areSynced t.phases = true ↔ .abandoned ∉ s.phases) := by
  have synced (ended : waitIsOver s.phases = true) :
      areSynced t.phases = true ↔ .abandoned ∉ s.phases := by
    constructor
    · exact fun ht ha => not_areSynced (later.abandoned ha) ht
    · intro ha
      rcases (waitIsOver_iff _).mp ended with h | h
      · exact later.areSynced h
      · exact absurd h ha
  refine ⟨synced, fun u hu => synced ?_, fun sight next hsight hmove => synced ?_⟩
  · obtain ⟨h, hs⟩ := Prod.mk.inj hu
    exact hs ▸ h
  · rw [← hsight]
    simp only [Controller.Phase.move?] at hmove
    split at hmove
    · cases hmove
    · split at hmove
      · assumption
      · cases hmove

def bare : RemoteSite :=
  let listing : ScriptedAnswer :=
    .response ⟨200, .obj [("items", .arr []), ("metadata", .obj [("resourceVersion", .str "1")])]⟩
  { server := { script := ["services", "nodes", "endpoints"].map fun plural => ("GET /api/v1/" ++ plural, [listing]) } }

/-- Informers that are given up after their first listings leave the stores complete. -/
theorem areSynced_after_abort :
    waitIsOver bare.start.waitForSync.2.phases = true ∧
      .abandoned ∉ bare.start.waitForSync.2.phases ∧
      areSynced bare.start.waitForSync.2.abort.phases = true :=
  ⟨rfl, by decide +kernel, ((areSynced_iff_none_abandoned (abort_run bare.start.waitForSync.2)).1 rfl).mpr
    (by decide +kernel)⟩

/-- Informers that are given up before their first listings end the wait, and workers start over stores that are not
complete. -/
theorem workers_started_unsynced :
    let (resolved, s) := ({} : RemoteSite).start.abort.waitForSync
    resolved = true ∧ areSynced s.phases = false ∧
      Controller.Phase.awaitingSync.move? ⟨waitIsOver s.phases, false, false, false, false⟩ =
        some (.startWorkers, .serving) :=
  ⟨rfl, rfl, rfl⟩

end RemoteSite
end ServiceBalancer.Simulation
