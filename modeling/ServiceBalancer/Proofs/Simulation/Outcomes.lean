import ServiceBalancer.Proofs.Program.Protocol
import ServiceBalancer.Proofs.Simulation.Execution

/-! Syncs that run by themselves in a world, to any end. What is to hold when a part ends well, and when it fails or
breaks off, is taken back to its start, by one rule for each way in which a sync is put together. -/
namespace ServiceBalancer

theorem Program.talk_bind {Q : Type} {A : Q → Type} {α β σ : Type} (answer : (q : Q) → σ → Option (A q) × σ)
    (p : Program A α) (f : α → Program A β) (log : List (Exchange A)) (s : σ) :
    (p >>= f).talk answer log s = match p.talk answer log s with
      | (some a, log, s) => (f a).talk answer log s
      | (none, log, s) => (none, log, s) := by
  induction p generalizing log s with
  | done a => rfl
  | ask q next ih =>
    simp only [ask_bind, talk]
    rcases answer q s with ⟨_ | a, s⟩
    · rfl
    · exact ih a _ s

namespace Simulation
open Sync

/-- The exchanges of a sync, newest first. -/
abbrev Log := List (Program.Exchange Sync.Answer)

/-- What a talk has come to: the outcome, the exchanges, and the world that is left. -/
abbrev Upshot (α : Type) := Option (Except Error α) × Log × World

variable {time : Nat} {α β : Type} {log log' log'' : Log} {w w' w'' : World} {post : α → Log → World → Prop}
  {fail : Log → World → Prop}

/-- Whether an upshot is as it should be if the outcome is good, and as it may be if it is not. -/
def Upshot.Satisfies (post : α → Log → World → Prop) (fail : Log → World → Prop) : Upshot α → Prop
  | (some (.ok a), log, w) => post a log w
  | (some (.error _), log, w) => fail log w
  | (none, log, w) => fail log w

/-- Whether a part of a sync, run by itself in a world, comes to `post` if it ends well, and to `fail` if it fails or
breaks off. Its exchanges are added to those before. -/
def Comes (time : Nat) (part : Sync α) (log : Log) (w : World) (post : α → Log → World → Prop)
    (fail : Log → World → Prop) : Prop :=
  Upshot.Satisfies post fail (part.run.talk (World.answer time) log w)

theorem comes_pure {a : α} (h : post a log w) : Comes time (pure a) log w post fail := h

theorem comes_throw {e : Error} (h : fail log w) : Comes time (throw e : Sync α) log w post fail := h

theorem Comes.bind {part : Sync α} {next : α → Sync β} {post : β → Log → World → Prop}
    (h : Comes time part log w (fun a log w => Comes time (next a) log w post fail) fail) :
    Comes time (part >>= next) log w post fail := by
  have hbind := Program.talk_bind (World.answer time) part.run (ExceptT.bindCont next) log w
  change Upshot.Satisfies post fail (Program.talk _ (part.run >>= ExceptT.bindCont next) log w)
  rw [hbind]
  unfold Comes at h
  rcases hpart : part.run.talk (World.answer time) log w with ⟨_ | e | a, log', w'⟩
  all_goals
    rw [hpart] at h
    exact h

theorem Comes.mono {part : Sync α} {post' : α → Log → World → Prop} {fail' : Log → World → Prop}
    (h : Comes time part log w post fail) (hp : ∀ a log w, post a log w → post' a log w)
    (hf : ∀ log w, fail log w → fail' log w) : Comes time part log w post' fail' := by
  unfold Comes at h ⊢
  rcases hpart : part.run.talk (World.answer time) log w with ⟨_ | e | a, log', w'⟩
  all_goals rw [hpart] at h
  · exact hf _ _ h
  · exact hf _ _ h
  · exact hp _ _ _ h

/-- What a part comes to in any case holds when it is over. -/
theorem Comes.always {part : Sync α} {post : Log → World → Prop} (h : Comes time part log w (fun _ => post) post) :
    post (part.run.talk (World.answer time) log w).2.1 (part.run.talk (World.answer time) log w).2.2 := by
  unfold Comes at h
  rcases hpart : part.run.talk (World.answer time) log w with ⟨_ | e | a, log', w'⟩
  all_goals
    rw [hpart] at h
    exact h

theorem Comes.ok {part : Sync α} {a : α} (h : Comes time part log w post fail)
    (htalk : part.run.talk (World.answer time) log w = (some (.ok a), log', w')) : post a log' w' := by
  unfold Comes at h
  rwa [htalk] at h

theorem Comes.failed {part : Sync α} {outcome : Option (Except Error α)} (h : Comes time part log w post fail)
    (htalk : part.run.talk (World.answer time) log w = (outcome, log', w')) (hne : ∀ a, outcome ≠ some (.ok a)) :
    fail log' w' := by
  unfold Comes at h
  rw [htalk] at h
  rcases outcome with _ | e | a
  · exact h
  · exact h
  · exact absurd rfl (hne a)

/-- A part that ends well by itself does so in a talk. -/
theorem Succeeds.comes {part : Sync α} {post : α → World → Prop} (h : Succeeds time part w post) :
    Comes time part log w (fun a _ => post a) fail := by
  obtain ⟨a, w', hrun, hpost⟩ := h
  rw [Program.talk_run _ _ log] at hrun
  unfold Comes
  rcases htalk : part.run.talk (World.answer time) log w with ⟨outcome, log', w''⟩
  rw [htalk] at hrun
  cases hrun
  exact hpost

private theorem Comes.followed {part : Sync α} {next : Except Error α → Program Answer (Except Error β)}
    {post' : β → Log → World → Prop} {fail' : Log → World → Prop} (h : Comes time part log w post fail)
    (hok : ∀ a log w, post a log w → Upshot.Satisfies post' fail' ((next (.ok a)).talk (World.answer time) log w))
    (herror : ∀ e log w, fail log w → Upshot.Satisfies post' fail' ((next (.error e)).talk (World.answer time) log w))
    (hbroken : ∀ log w, fail log w → fail' log w) :
    Upshot.Satisfies post' fail' ((part.run >>= next).talk (World.answer time) log w) := by
  unfold Comes at h
  rw [Program.talk_bind]
  rcases hpart : part.run.talk (World.answer time) log w with ⟨_ | e | a, log', w'⟩
  all_goals rw [hpart] at h
  · exact hbroken _ _ h
  · exact herror _ _ _ h
  · exact hok _ _ _ h

theorem comes_ask {q : Request} {post : Answer q → Log → World → Prop}
    (hp : ∀ a, (w.answer time q).1 = some a → post a (⟨q, a⟩ :: log) (w.answer time q).2)
    (hf : (w.answer time q).1 = none → fail log (w.answer time q).2) : Comes time (ask q) log w post fail := by
  change Upshot.Satisfies post fail
    (Program.talk (World.answer time) (Program.request q >>= fun a => Program.done (Except.ok a)) log w)
  rw [Program.talk_bind]
  simp only [Program.request, Program.talk]
  rcases hq : w.answer time q with ⟨_ | a, w'⟩
  all_goals rw [hq] at hp hf
  · exact hf rfl
  · exact hp a rfl

/-- A read of the service fails if a failure waits. -/
theorem comes_service {key : ServiceKey} {post : Option Service → Log → World → Prop}
    (hp : w.faults.service = [] →
      post (w.cluster.service? key.ns key.name) (⟨.service key, .ok (w.cluster.service? key.ns key.name)⟩ :: log) w)
    (hf : w.faults.service ≠ [] → ∀ e faults, fail (⟨.service key, .error e⟩ :: log) { w with faults }) :
    Comes time (ExceptT.mk (.request (Request.service key))) log w post fail := by
  cases hfaults : w.faults.service with
  | nil =>
    simp only [Comes, ExceptT.run_mk, Program.request, Program.talk, World.answer_service_calm time hfaults key]
    exact hp hfaults
  | cons e rest =>
    have hq : w.answer time (.service key) = (some (.error e), { w with faults := { w.faults with service := rest } }) := by
      simp [World.answer, World.reply, World.atOnce, World.service, World.takeFault, hfaults, answerOf]
    simp only [Comes, ExceptT.run_mk, Program.request, Program.talk, hq]
    exact hf (by simp [hfaults]) e _

theorem comes_nodes {post : List Node → Log → World → Prop}
    (hp : w.faults.nodes = [] →
      post w.cluster.nodes.values (⟨.nodes, .ok w.cluster.nodes.values⟩ :: log) w)
    (hf : w.faults.nodes ≠ [] → ∀ e faults, fail (⟨.nodes, .error e⟩ :: log) { w with faults }) :
    Comes time (ExceptT.mk (.request Request.nodes)) log w post fail := by
  cases hfaults : w.faults.nodes with
  | nil =>
    simp only [Comes, ExceptT.run_mk, Program.request, Program.talk, World.answer_nodes_calm time hfaults]
    exact hp hfaults
  | cons e rest =>
    have hq : w.answer time .nodes = (some (.error e), { w with faults := { w.faults with nodes := rest } }) := by
      simp [World.answer, World.reply, World.atOnce, World.nodes, World.takeFault, hfaults, answerOf]
    simp only [Comes, ExceptT.run_mk, Program.request, Program.talk, hq]
    exact hf (by simp [hfaults]) e _

/-! ### Exchanges beside the matter -/

def calls : Request → List CloudCall
  | .lookup svc => [.lookup (svc.info.uid.getD "")]
  | .ensure svc nodes => [.ensure (svc.info.uid.getD "") (nodes.map Node.name)]
  | .delete svc => [.delete (svc.info.uid.getD "")]
  | _ => []

structure Quiet (log : Log) (w : World) (log' : Log) (w' : World) : Prop where
  log : ∃ newer, log' = newer ++ log ∧ ∀ x ∈ newer, calls x.request = []
  cloud : w'.cloud = w.cloud
  cache : w'.cache = w.cache

structure Aside (log : Log) (w : World) (log' : Log) (w' : World) : Prop extends Quiet log w log' w' where
  cluster : w'.cluster = w.cluster
  faults : w'.faults = w.faults

theorem Quiet.refl (log : Log) (w : World) : Quiet log w log w := ⟨⟨[], rfl, by simp⟩, rfl, rfl⟩

theorem Quiet.trans (h : Quiet log w log' w') (h' : Quiet log' w' log'' w'') : Quiet log w log'' w'' := by
  obtain ⟨newer, hlog, hquiet⟩ := h.log
  obtain ⟨newer', hlog', hquiet'⟩ := h'.log
  refine ⟨⟨newer' ++ newer, ?_, ?_⟩, h'.cloud.trans h.cloud, h'.cache.trans h.cache⟩
  · rw [hlog', hlog, List.append_assoc]
  · intro x hx
    exact (List.mem_append.mp hx).elim (hquiet' x) (hquiet x)

theorem Aside.trans (h : Aside log w log' w') (h' : Aside log' w' log'' w'') : Aside log w log'' w'' :=
  ⟨h.toQuiet.trans h'.toQuiet, h'.cluster.trans h.cluster, h'.faults.trans h.faults⟩

/-- What was told by a call is told by none of the exchanges in between. -/
theorem Quiet.mem_log (h : Quiet log w log' w') {x : Program.Exchange Answer} (hx : calls x.request ≠ []) :
    x ∈ log' ↔ x ∈ log := by
  obtain ⟨newer, hlog, hquiet⟩ := h.log
  rw [hlog, List.mem_append]
  exact ⟨fun hm => hm.resolve_left fun hn => hx (hquiet x hn), .inr⟩

theorem quiet_ask (time : Nat) (log : Log) (w : World) (q : Request) (hq : calls q = [])
    (hc : ∀ cache, World.cacheAfter cache q = cache) (a : Answer q) :
    Quiet log w (⟨q, a⟩ :: log) (w.answer time q).2 where
  log := ⟨[⟨q, a⟩], rfl, by simpa using hq⟩
  cloud := by
    rw [w.answer_cloud time q]
    cases q with
    | lookup | ensure | delete => cases hq
    | _ => rfl
  cache := by rw [w.answer_cache time q, hc]

def notes : Request → Bool
  | .record _ | .observe _ | .countError _ => true
  | _ => false

theorem aside_ask (time : Nat) (log : Log) (w : World) (q : Request) (hq : notes q = true) (a : Answer q) :
    Aside log w (⟨q, a⟩ :: log) (w.answer time q).2 := by
  cases q with
  | record | observe | countError => exact ⟨quiet_ask time log w _ rfl (fun _ => rfl) a, rfl, rfl⟩
  | _ => cases hq

theorem comes_note {q : Request} {post : Answer q → Log → World → Prop} (hq : notes q = true)
    (hp : ∀ a log' w', Aside log w log' w' → post a log' w') : Comes time (ask q) log w post fail := by
  refine comes_ask (fun a _ => hp a _ _ (aside_ask time log w q hq a)) fun hn => ?_
  cases q with
  | record | observe | countError => cases hn
  | _ => cases hq

/-! ### Repetition -/

theorem answer_sleep (time : Nat) (d : Duration) (w : World) : w.answer time (.sleep d) = (some (), w) := by
  simp only [World.answer, World.reply]
  split <;> rfl

private theorem talk_pause (time : Nat) (delay : Duration) (jitter : Float) (log : Log) (w : World) :
    ∃ log', Aside log w log' w ∧ (Retry.pause pausing delay jitter).talk (World.answer time) log w = (some (), log', w) := by
  unfold Retry.pause
  split
  · refine ⟨⟨.sleep (delay.addSaturating (delay.scale (0.0 * jitter))), ()⟩ :: ⟨.draw, (0.0 : Float)⟩ :: log, ?_, ?_⟩
    · exact ⟨⟨⟨[_, _], rfl, by simp [calls]⟩, rfl, rfl⟩, rfl, rfl⟩
    · rw [Program.talk_bind]
      simp only [pausing, Program.request, Program.talk, answer_sleep]
      rfl
  · refine ⟨⟨.sleep delay, ()⟩ :: log, ?_, ?_⟩
    · exact ⟨⟨⟨[_], rfl, by simp [calls]⟩, rfl, rfl⟩, rfl, rfl⟩
    · simp only [pausing, Program.request, Program.talk, answer_sleep]

/-- A part that may be repeated whenever it has failed, where pauses do not matter. -/
theorem Comes.retrying {policy : RetryPolicy} {part : Sync Unit} {post : Unit → Log → World → Prop}
    (again : Log → World → Prop) (hagain : ∀ log w, fail log w → again log w)
    (hpause : ∀ log w log', Aside log w log' w → again log w → again log' w)
    (hpart : ∀ log w, again log w → Comes time part log w post fail) (h : again log w) :
    Comes time (retrying policy part) log w post fail := by
  have tries : ∀ left attempt delay log w, again log w → Upshot.Satisfies post fail
      ((Retry.tryFrom pausing policy part.run left attempt delay).talk (World.answer time) log w) := by
    intro left
    induction left with
    | zero =>
      intro attempt delay log w h
      refine (hpart log w h).followed (fun _ _ _ h => h) (fun e log w hf => ?_) fun _ _ h => h
      dsimp only
      split <;> exact hf
    | succ left ih =>
      intro attempt delay log w h
      refine (hpart log w h).followed (fun _ _ _ h => h) (fun e log w hf => ?_) fun _ _ h => h
      dsimp only
      split
      · obtain ⟨log', haside, hpaused⟩ := talk_pause time delay policy.jitter log w
        rw [Program.talk_bind, hpaused]
        exact ih _ _ _ _ (hpause _ _ _ haside (hagain _ _ hf))
      · exact hf
  exact tries _ _ _ _ _ h

/-! ### Whole syncs -/

/-- A sync goes by what it has read, unless the service cannot be read. -/
theorem comes_reading {settings : SyncSettings} {key : ServiceKey} {post : Unit → Log → World → Prop}
    (hunread : w.faults.service ≠ [] → ∀ e faults,
      fail [⟨.service key, .error e⟩, ⟨.recall key, w.cache.get? key⟩] { w with faults })
    (hlive : ∀ svc, w.faults.service = [] → w.cluster.service? key.ns key.name = some svc →
      Comes time (update settings key (w.cache.get? key) svc)
        [⟨.service key, .ok (some svc)⟩, ⟨.recall key, w.cache.get? key⟩] w post fail)
    (hgone : ∀ entry, w.faults.service = [] → w.cluster.service? key.ns key.name = none →
      w.cache.get? key = some entry → Comes time (delete settings entry.service)
        [⟨.service key, .ok none⟩, ⟨.recall key, some entry⟩] w post fail)
    (hnone : w.faults.service = [] → w.cluster.service? key.ns key.name = none → w.cache.get? key = none →
      post () [⟨.service key, .ok none⟩, ⟨.recall key, none⟩] w) :
    Comes time (reconcile settings key) [] w post fail := by
  refine .bind (comes_ask (fun cached hc => ?_) fun hn => by cases hn)
  obtain rfl := Option.some.inj hc
  change Comes time _ [⟨.recall key, w.cache.get? key⟩] w _ _
  refine .bind (comes_service (fun hcalm => ?_) hunread)
  cases hs : w.cluster.service? key.ns key.name with
  | some svc => exact hlive svc hcalm hs
  | none =>
    cases he : w.cache.get? key with
    | some entry => exact hgone entry hcalm hs he
    | none => exact hnone hcalm hs he

/-- A whole sync comes to what it was about, but for the metrics. -/
theorem comes_program {settings : SyncSettings} {key : ServiceKey} {post : Unit → Log → World → Prop}
    (h : Comes time (reconcile settings key) log w post fail)
    (hp : ∀ log w log' w', Aside log w log' w' → post () log w → post () log' w')
    (hf : ∀ log w log' w', Aside log w log' w' → fail log w → fail log' w') :
    Comes time (ExceptT.mk (program settings key)) log w post fail := by
  refine h.followed (fun _ log w h => ?_) (fun e log w h => ?_) fun _ _ h => h
  · have hobserve := aside_ask time log w (.observe "reconcile") rfl ()
    exact hp _ _ _ _ hobserve h
  · have hobserve := aside_ask time log w (.observe "reconcile") rfl ()
    have hcount := aside_ask time (⟨.observe "reconcile", ()⟩ :: log) (w.answer time (.observe "reconcile")).2
      (.countError e.label) rfl ()
    exact hf _ _ _ _ (hobserve.trans hcount) h

end Simulation
end ServiceBalancer
