import ServiceBalancer.Controller
import ServiceBalancer.Proofs.Queue.Demand
import ServiceBalancer.Sync

/-! A run of the controller and its workers, with nothing said about the order. Each worker is suspended at any point,
keys come in at any time, and the run makes its next move when it gets to see a reason for it. -/
namespace ServiceBalancer.Simulation
open Sync

inductive Post where
  /-- It asks for a key or waits for one. -/
  | asking
  | syncing (key : ServiceKey) (rest : Program Answer (Except Error Unit))
  /-- The sync has ended, and the key is to be put back if it has to be. -/
  | synced (key : ServiceKey) (outcome : SyncOutcome)
  /-- The key is to be released. -/
  | releasing (key : ServiceKey)
  | gone
  /-- The worker has gone with a key in hand. -/
  | lost (key : ServiceKey)

namespace Post

def key? : Post → Option ServiceKey
  | syncing key _ | synced key _ | releasing key => some key
  | asking | gone | lost _ => none

def held? : Post → Option ServiceKey
  | syncing key _ | synced key _ | releasing key | lost key => some key
  | asking | gone => none

def IsOver (p : Post) : Prop := p = gone ∨ ∃ key, p = lost key

inductive Deed where
  /-- It gets a key, and begins to sync it. -/
  | get (key : ServiceKey)
  | leave
  | exchange
  /-- The sync ends, or breaks down. -/
  | conclude
  /-- The key is put back if it has to be. -/
  | putBack (now clock : Duration) (backoff : Backoff)
  | release

def syncSettings (settings : Settings) : SyncSettings :=
  { deleteRetry := settings.deleteRetry, statusRetry := settings.statusRetry }

variable {settings : Settings}

inductive Works (settings : Settings) :
    WorkQueue ServiceKey → Post → Deed → WorkQueue ServiceKey → Post → Prop
  | get {q q' : WorkQueue ServiceKey} {key : ServiceKey} : q.take? = some (key, q') →
      Works settings q asking (.get key) q' (syncing key (program (syncSettings settings) key))
  | leave {q : WorkQueue ServiceKey} : q.shuttingDown = true → Works settings q asking .leave q gone
  | exchange {q : WorkQueue ServiceKey} {key : ServiceKey} {request : Request}
      {next : Answer request → Program Answer (Except Error Unit)} (answer : Answer request) :
      Works settings q (syncing key (.ask request next)) .exchange q (syncing key (next answer))
  | collapse {q : WorkQueue ServiceKey} {key : ServiceKey} {request : Request}
      {next : Answer request → Program Answer (Except Error Unit)} :
      Works settings q (syncing key (.ask request next)) .conclude q (synced key none)
  | conclude {q : WorkQueue ServiceKey} {key : ServiceKey} {result : Except Error Unit} :
      Works settings q (syncing key (.done result)) .conclude q (synced key (some result))
  | keep {q : WorkQueue ServiceKey} {key : ServiceKey} {outcome : SyncOutcome} {now clock : Duration} {b : Backoff} :
      (Worker.requeue? settings.errorRequeue clock b outcome).1 = none →
      Works settings q (synced key outcome) (.putBack now clock b) q (releasing key)
  | putBack {q : WorkQueue ServiceKey} {key : ServiceKey} {outcome : SyncOutcome} {now clock : Duration} {b : Backoff}
      {r : Requeue} : (Worker.requeue? settings.errorRequeue clock b outcome).1 = some r →
      q.addAfter now key r.delay ≠ .overflow → Works settings q (synced key outcome) (.putBack now clock b)
        (q.afterDelayed (q.addAfter now key r.delay)) (releasing key)
  | lose {q : WorkQueue ServiceKey} {key : ServiceKey} {outcome : SyncOutcome} {now clock : Duration} {b : Backoff}
      {r : Requeue} : (Worker.requeue? settings.errorRequeue clock b outcome).1 = some r →
      q.addAfter now key r.delay = .overflow →
      Works settings q (synced key outcome) (.putBack now clock b) q (lost key)
  | release {q : WorkQueue ServiceKey} {key : ServiceKey} :
      Works settings q (releasing key) .release (q.release key) asking

variable {q q' : WorkQueue ServiceKey} {p p' : Post} {d : Deed}

theorem Works.not_isOver (h : Works settings q p d q' p') : ¬ p.IsOver := by
  rintro (rfl | ⟨key, rfl⟩) <;> cases h

theorem Works.shuttingDown (h : Works settings q p d q' p') : q'.shuttingDown = q.shuttingDown := by
  cases h with
  | get htake =>
    obtain ⟨_, rest, _, rfl⟩ := WorkQueue.take?_eq_some.mp htake
    rfl
  | @putBack key _ now _ _ r =>
    rcases q.addAfter_cases now key r.delay with ⟨_, he⟩ | ⟨_, _, he⟩ <;> simp [he]
  | release => simp
  | leave | exchange | collapse | conclude | keep | lose => rfl

theorem Works.not_get_of_shuttingDown (h : Works settings q p d q' p') (hs : q.shuttingDown = true) (key : ServiceKey) :
    d ≠ .get key := by
  rintro rfl
  cases h with
  | get htake =>
    obtain ⟨hopen, _⟩ := WorkQueue.take?_eq_some.mp htake
    simp [hs] at hopen

/-- A worker gets a key, releases the one that it has, or does not change what is held. -/
theorem Works.custody (h : Works settings q p d q' p') :
    (∃ key, p.held? = none ∧ p'.held? = some key ∧ q.take? = some (key, q')) ∨
    (∃ key, p.held? = some key ∧ p'.held? = none ∧ q' = q.release key) ∨
    p'.held? = p.held? ∧ q'.processing = q.processing ∧ (q.Orderly → q'.Orderly) := by
  cases h with
  | get htake => exact .inl ⟨_, rfl, rfl, htake⟩
  | release => exact .inr (.inl ⟨_, rfl, rfl, rfl⟩)
  | @putBack key _ now _ _ r =>
    refine .inr (.inr ⟨rfl, ?_, fun ho => ho.addAfter now key r.delay⟩)
    rcases q.addAfter_cases now key r.delay with ⟨_, he⟩ | ⟨_, _, he⟩ <;> simp [he]
  | leave | exchange | collapse | conclude | keep | lose => exact .inr (.inr ⟨rfl, rfl, id⟩)

end Post

/-- A run of the controller: how it stands, its queue, and what its workers are at. -/
structure Engine where
  queue : WorkQueue ServiceKey := {}
  phase : Controller.Phase := .awaitingSync
  /-- Whether waiting for the caches is over. -/
  synced : Bool := false
  /-- Whether the run was told to stop. -/
  stopped : Bool := false
  /-- Whether the run broke down. -/
  broken : Bool := false
  posts : List Post := []

namespace Engine

inductive Act where
  | resolve
  | stop
  | add (key : ServiceKey)
  | addAfter (key : ServiceKey) (now delay : Duration)
  | fire (key : ServiceKey) (deadline : Duration)
  | run (move : Controller.Move)
  /-- The run breaks down, and its workers with it. -/
  | breakDown
  | worker (who : Nat) (deed : Post.Deed)

/-- Whether the run may see something. It need not see what has only just come about. -/
structure Sees (s : Engine) (sight : Controller.Sight) : Prop where
  synced : sight.synced = true → s.synced = true
  stopped : sight.stopped = true → s.stopped = true
  workersDone : sight.workersDone = true → ∀ p ∈ s.posts, p.IsOver

def move (settings : Settings) (s : Engine) (phase : Controller.Phase) : Controller.Move → Engine
  | .startWorkers => { s with phase, posts := s.posts ++ List.replicate settings.workers .asking }
  | .shutDown => { s with phase, queue := s.queue.shutDown }
  | .relaxBackoffs | .resync | .finish => { s with phase }

inductive Steps (settings : Settings) : Engine → Act → Engine → Prop
  | resolve (s : Engine) : Steps settings s .resolve { s with synced := true }
  | stop (s : Engine) : Steps settings s .stop { s with stopped := true }
  | add (s : Engine) (key : ServiceKey) : Steps settings s (.add key) { s with queue := s.queue.add key }
  | addAfter (s : Engine) (key : ServiceKey) (now delay : Duration) : Steps settings s (.addAfter key now delay)
      { s with queue := s.queue.afterDelayed (s.queue.addAfter now key delay) }
  | fire (s : Engine) (key : ServiceKey) (deadline : Duration) :
      Steps settings s (.fire key deadline) { s with queue := s.queue.fire key deadline }
  | run {s : Engine} {sight : Controller.Sight} {next : Controller.Move} {phase : Controller.Phase} :
      s.Sees sight → s.phase.move? sight = some (next, phase) →
      Steps settings s (.run next) (s.move settings phase next)
  | breakDown {s : Engine} : s.phase = .serving → Steps settings s .breakDown
      { s with phase := .ended, broken := true, posts := s.posts.map (fun _ => .gone) }
  | worker {s : Engine} {who : Nat} {p p' : Post} {d : Post.Deed} {queue : WorkQueue ServiceKey} :
      s.posts[who]? = some p → p.Works settings s.queue d queue p' →
      Steps settings s (.worker who d) { s with queue, posts := s.posts.set who p' }

variable {settings : Settings} {s t : Engine} {a : Act}

theorem Steps.shuttingDown (h : Steps settings s a t) (hs : s.queue.shuttingDown = true) :
    t.queue.shuttingDown = true := by
  cases h with
  | add key => simpa using hs
  | addAfter key now delay =>
    rcases s.queue.addAfter_cases now key delay with ⟨_, he⟩ | ⟨_, _, he⟩ <;> simpa [he] using hs
  | fire key deadline =>
    rcases s.queue.fire_cases key deadline with ⟨_, _, he⟩ | ⟨_, he⟩ <;> simpa [he] using hs
  | @run _ next _ _ _ => cases next <;> first | exact hs | rfl
  | worker _ hworks => exact hworks.shuttingDown.trans hs
  | resolve | stop | breakDown => exact hs

theorem Steps.not_get_of_shuttingDown (h : Steps settings s a t) (hs : s.queue.shuttingDown = true) (who : Nat)
    (key : ServiceKey) : a ≠ .worker who (.get key) := by
  rintro rfl
  cases h with
  | worker _ hworks => exact hworks.not_get_of_shuttingDown hs key rfl

/-! ### How a run stands -/

def Returned (s : Engine) : Prop := s.phase = .ended ∧ s.broken = false

/-- What holds throughout a run: it has no workers at first, and shuts down its queue and waits for them in the end. -/
structure Sound (s : Engine) : Prop where
  idle : s.phase = .awaitingSync → s.posts = []
  shut : s.phase = .draining ∨ s.Returned → s.queue.shuttingDown = true
  gone : s.phase = .ended → ∀ p ∈ s.posts, p.IsOver
  whole : s.broken = true → s.phase = .ended

/-- An act that is not the run's leaves the phase, and brings no new workers. -/
theorem Sound.of_phase (h : s.Sound) (hphase : t.phase = s.phase) (hbroken : t.broken = s.broken)
    (hq : s.queue.shuttingDown = true → t.queue.shuttingDown = true) (hidle : s.posts = [] → t.posts = [])
    (hover : (∀ p ∈ s.posts, p.IsOver) → ∀ p ∈ t.posts, p.IsOver) : t.Sound where
  idle hp := hidle (h.idle (hphase ▸ hp))
  shut hp := hq (h.shut (by rwa [Returned, hphase, hbroken] at hp))
  gone hp := hover (h.gone (hphase ▸ hp))
  whole hb := hphase.trans (h.whole (hbroken ▸ hb))

theorem Sound.run (h : s.Sound) {sight : Controller.Sight} {next : Controller.Move} {phase : Controller.Phase}
    (hsees : s.Sees sight) (hmove : s.phase.move? sight = some (next, phase)) : (s.move settings phase next).Sound := by
  have hwhole : s.phase ≠ .ended → s.broken = false := fun hp => by
    cases hb : s.broken with
    | false => rfl
    | true => exact absurd (h.whole hb) hp
  cases hphase : s.phase with
  | awaitingSync =>
    have hposts := h.idle hphase
    have hbroken := hwhole (by simp [hphase])
    simp only [hphase, Controller.Phase.move?] at hmove
    split_ifs at hmove
    · cases hmove
      exact ⟨nofun, fun _ => rfl, by simp [move, hposts], fun _ => rfl⟩
    · cases hmove
      exact ⟨nofun, by simp [move, Returned], nofun, fun hb => absurd (hbroken.symm.trans hb) nofun⟩
  | serving =>
    have hbroken := hwhole (by simp [hphase])
    simp only [hphase, Controller.Phase.move?] at hmove
    split_ifs at hmove <;> cases hmove
    · exact ⟨nofun, fun _ => rfl, nofun, fun hb => absurd (hbroken.symm.trans hb) nofun⟩
    · exact ⟨nofun, by simp [move, Returned], nofun, fun hb => absurd (hbroken.symm.trans hb) nofun⟩
    · exact ⟨nofun, by simp [move, Returned], nofun, fun hb => absurd (hbroken.symm.trans hb) nofun⟩
  | draining =>
    simp only [hphase, Controller.Phase.move?] at hmove
    split_ifs at hmove with hdone
    cases hmove
    exact ⟨nofun, fun _ => h.shut (.inl hphase), fun _ => hsees.workersDone hdone, fun _ => rfl⟩
  | ended =>
    rw [hphase] at hmove
    cases hmove

theorem Steps.sound (h : Steps settings s a t) (hs : s.Sound) : t.Sound := by
  have hshut := h.shuttingDown
  cases h with
  | resolve | stop | add | addAfter | fire => exact hs.of_phase rfl rfl hshut id id
  | run hsees hmove => exact hs.run hsees hmove
  | breakDown =>
    refine ⟨nofun, by simp [Returned], fun _ p hp => ?_, fun _ => rfl⟩
    obtain ⟨_, _, rfl⟩ := List.mem_map.mp hp
    exact .inl rfl
  | worker hpost hworks =>
    refine hs.of_phase rfl rfl hshut (fun hnil => ?_) fun hover => ?_
    · simp [hnil] at hpost
    · exact absurd (hover _ (List.mem_of_getElem? hpost)) hworks.not_isOver

/-! ### Who has which key -/

def Holds (s : Engine) (who : Nat) (key : ServiceKey) : Prop := ∃ p, s.posts[who]? = some p ∧ p.held? = some key

/-- A queue in order, whose keys in flight are those that the workers have in hand, no two the same. -/
structure Kept (s : Engine) : Prop where
  orderly : s.queue.Orderly
  single : ∀ who other key, s.Holds who key → s.Holds other key → who = other
  held : ∀ key, key ∈ s.queue.processing ↔ ∃ who, s.Holds who key

theorem Kept.of_holds (h : s.Kept) (ho : t.queue.Orderly) (hp : t.queue.processing = s.queue.processing)
    (hh : ∀ who key, t.Holds who key ↔ s.Holds who key) : t.Kept where
  orderly := ho
  single who other key ha hb := h.single who other key ((hh who key).mp ha) ((hh other key).mp hb)
  held key := by
    rw [hp, h.held key]
    exact exists_congr fun who => (hh who key).symm

theorem holds_set {who other : Nat} {p p' : Post} {queue : WorkQueue ServiceKey} {key : ServiceKey}
    (hpost : s.posts[who]? = some p) : ({ s with queue, posts := s.posts.set who p' } : Engine).Holds other key ↔
      other = who ∧ p'.held? = some key ∨ other ≠ who ∧ s.Holds other key := by
  have hlt : who < s.posts.length := (List.getElem?_eq_some_iff.mp hpost).1
  by_cases he : other = who
  · subst he
    simp [Holds, hlt]
  · simp [Holds, he, Ne.symm he]

theorem Kept.worker (h : s.Kept) {who : Nat} {p p' : Post} {d : Post.Deed} {queue : WorkQueue ServiceKey}
    (hpost : s.posts[who]? = some p) (hworks : p.Works settings s.queue d queue p') :
    ({ s with queue, posts := s.posts.set who p' } : Engine).Kept := by
  rcases hworks.custody with ⟨key, hold, hnew, htake⟩ | ⟨key, hold, hnew, rfl⟩ | ⟨hsame, hproc, horderly⟩
  · -- Nobody has the new key, as it was ready.
    have hfree : ∀ other, ¬ s.Holds other key := fun other hh =>
      h.orderly.take_free htake ((h.held key).mpr ⟨other, hh⟩)
    refine ⟨h.orderly.take htake, fun a b k ha hb => ?_, fun k => ?_⟩
    · rcases (holds_set hpost).mp ha with ⟨ha', hk⟩ | ⟨_, hx⟩ <;>
        rcases (holds_set hpost).mp hb with ⟨hb', hk'⟩ | ⟨_, hy⟩
      · exact ha'.trans hb'.symm
      · obtain rfl := Option.some.inj (hnew.symm.trans hk)
        exact absurd hy (hfree b)
      · obtain rfl := Option.some.inj (hnew.symm.trans hk')
        exact absurd hx (hfree a)
      · exact h.single a b k hx hy
    · rw [WorkQueue.mem_processing_take htake, h.held k]
      constructor
      · rintro (rfl | ⟨other, hh⟩)
        · exact ⟨who, (holds_set hpost).mpr (.inl ⟨rfl, hnew⟩)⟩
        · refine ⟨other, (holds_set hpost).mpr (.inr ⟨?_, hh⟩)⟩
          rintro rfl
          obtain ⟨_, hp, hk⟩ := hh
          rw [Option.some.inj (hp.symm.trans hpost), hold] at hk
          cases hk
      · rintro ⟨other, hh⟩
        rcases (holds_set hpost).mp hh with ⟨_, hk⟩ | ⟨_, hh⟩
        · exact .inl (Option.some.inj (hk.symm.trans hnew))
        · exact .inr ⟨other, hh⟩
  · have hmine : s.Holds who key := ⟨p, hpost, hold⟩
    have hother {other : Nat} {k : ServiceKey} :
        ({ s with queue := s.queue.release key, posts := s.posts.set who p' } : Engine).Holds other k ↔
          other ≠ who ∧ s.Holds other k := by
      rw [holds_set hpost, hnew]
      simp
    refine ⟨h.orderly.release ((h.held key).mpr ⟨who, hmine⟩),
      fun a b k ha hb => h.single a b k (hother.mp ha).2 (hother.mp hb).2, fun k => ?_⟩
    simp only [WorkQueue.release_processing, List.mem_filter, decide_eq_true_eq, h.held k, hother]
    constructor
    · rintro ⟨⟨other, hh⟩, hk⟩
      refine ⟨other, ?_, hh⟩
      rintro rfl
      obtain ⟨_, hp, hk'⟩ := hh
      rw [Option.some.inj (hp.symm.trans hpost), hold] at hk'
      exact hk (Option.some.inj hk').symm
    · rintro ⟨other, hne, hh⟩
      refine ⟨⟨other, hh⟩, ?_⟩
      rintro rfl
      exact hne (h.single other who k hh hmine)
  · refine h.of_holds (horderly h.orderly) hproc fun other k => ?_
    rw [holds_set hpost]
    by_cases he : other = who
    · subst he
      simp [Holds, hpost, hsame]
    · simp [he]

theorem holds_append_asking (posts : List Post) (count : Nat) (who : Nat) (key : ServiceKey) :
    (∃ p, (posts ++ List.replicate count .asking)[who]? = some p ∧ p.held? = some key) ↔
      ∃ p, posts[who]? = some p ∧ p.held? = some key := by
  by_cases hlt : who < posts.length
  · rw [List.getElem?_append_left hlt]
  · have hnone : posts[who]? = none := List.getElem?_eq_none (Nat.le_of_not_lt hlt)
    rw [List.getElem?_append_right (Nat.le_of_not_lt hlt), hnone, List.getElem?_replicate]
    constructor
    · rintro ⟨p, hp, hk⟩
      split at hp <;> cases hp
      cases hk
    · rintro ⟨p, hp, _⟩
      cases hp

/-- Unless the run breaks down, a key in flight is in hand until it is released. -/
theorem Steps.kept (h : Steps settings s a t) (hs : s.Kept) (ht : t.broken = false) : t.Kept := by
  cases h with
  | resolve | stop => exact hs.of_holds hs.orderly rfl fun _ _ => Iff.rfl
  | add key => exact hs.of_holds (hs.orderly.add key) (by simp) fun _ _ => Iff.rfl
  | addAfter key now delay =>
    refine hs.of_holds (hs.orderly.addAfter now key delay) ?_ fun _ _ => Iff.rfl
    rcases s.queue.addAfter_cases now key delay with ⟨_, he⟩ | ⟨_, _, he⟩ <;> simp [he]
  | fire key deadline =>
    refine hs.of_holds (hs.orderly.fire key deadline) ?_ fun _ _ => Iff.rfl
    rcases s.queue.fire_cases key deadline with ⟨_, _, he⟩ | ⟨_, he⟩ <;> simp [he]
  | @run _ next _ _ _ =>
    cases next with
    | startWorkers => exact hs.of_holds hs.orderly rfl fun who key => holds_append_asking s.posts _ who key
    | shutDown => exact hs.of_holds hs.orderly.shutDown rfl fun _ _ => Iff.rfl
    | relaxBackoffs | resync | finish => exact hs.of_holds hs.orderly rfl fun _ _ => Iff.rfl
  | breakDown => cases ht
  | worker hpost hworks => exact hs.worker hpost hworks

end Engine
end ServiceBalancer.Simulation
