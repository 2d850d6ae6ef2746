import ServiceBalancer.Proofs.Interleaving.Live
import ServiceBalancer.Proofs.Interleaving.Staffing
import ServiceBalancer.Proofs.Routing

/-! A scene in which services stay what they were created as. Whatever the controller has to do with is then
a service that the cluster has, and no two workers are at the same one. -/
namespace ServiceBalancer.Simulation
open Sync

namespace Scene

/-- Whether a move is one of a quiet run: services are created and keep their cores, nodes that are not
excluded are added and removed, and the controller is at work while calls may fail. -/
def Move.Keeps (s : Scene) : Move → Prop
  | .putService svc => (ServiceKey.ofService svc).Proper ∧
    ∀ old ∈ s.world.cluster.core? svc.info.key, old = svc.core
  | .putNode node => s.world.cluster.nodes.get? node.name = none ∧ node.isExcluded = false
  | .dropNode name => ∀ node ∈ s.world.cluster.nodes.get? name, node.isExcluded = false
  | .removeService _ | .putEndpoints _ | .resync => False
  | _ => True

instance (s : Scene) (move : Move) : Decidable (move.Keeps s) := by
  unfold Move.Keeps
  split <;> infer_instance

abbrev Live (s : Scene) : Service → Prop := Simulation.Live s.world.cluster

structure Ordered (settings : SyncSettings) (s : Scene) : Prop where
  stored : Stored s.world.cluster
  sound : s.world.cloud.Sound
  orderly : s.queue.Orderly
  isOpen : s.queue.shuttingDown = false
  known : ∀ key, s.queue.Knows key → Announced s.Live key
  todo : ∀ r ∈ s.todo, Sensible s.Live r
  news : ∀ item ∈ s.news, Credible s.Live item
  cached : Remembered s.Live s.world.cache
  held : ∀ who job, s.jobs who = some job → job.key ∈ s.queue.processing
  single : ∀ who other job job', s.jobs who = some job → s.jobs other = some job' → job.key = job'.key → who = other
  jobs : ∀ who job, s.jobs who = some job → Conducted settings s.Live job
  past : ∀ key, s.past key ≠ [] → Announced s.Live key

/-- A scene before its first move: any nodes, and nothing else yet. -/
structure Start (s : Scene) : Prop where
  services : s.world.cluster.services = ∅
  sound : s.world.cloud.Sound
  cache : s.world.cache = ∅
  queue : ∃ name, s.queue = { name }
  jobs : ∀ who, s.jobs who = none
  news : s.news = []
  todo : s.todo = []
  past : ∀ key, s.past key = []

variable {settings : SyncSettings} {s t : Scene}

theorem Start.ordered (h : s.Start) : s.Ordered settings where
  stored slot svc hc := by simp [MemoryCluster.core?, h.services] at hc
  sound := h.sound
  orderly := by
    obtain ⟨name, hq⟩ := h.queue
    exact hq ▸ WorkQueue.orderly_new name
  isOpen := by
    obtain ⟨name, hq⟩ := h.queue
    rw [hq]
  known key hk := by
    obtain ⟨name, hq⟩ := h.queue
    simp [hq, WorkQueue.Knows, WorkQueue.Due] at hk
  todo := by simp [h.todo]
  news := by simp [h.news]
  cached key entry he := by simp [h.cache] at he
  held who job hj := by cases (h.jobs who).symm.trans hj
  single who _ job _ hj := by cases (h.jobs who).symm.trans hj
  jobs who job hj := by cases (h.jobs who).symm.trans hj
  past key hp := absurd (h.past key) hp

theorem Start.regular (h : s.Start) : s.Regular settings := fun who job hj => by cases (h.jobs who).symm.trans hj

/-! ### One component changes -/

/-- A world in which the live services stay so. -/
theorem Ordered.withWorld (h : s.Ordered settings) {w : World}
    (hl : ∀ svc, s.Live svc → Simulation.Live w.cluster svc) (hs : Stored w.cluster) (hc : w.cloud.Sound)
    (hr : Remembered (Simulation.Live w.cluster) w.cache) : ({ s with world := w } : Scene).Ordered settings where
  stored := hs
  sound := hc
  orderly := h.orderly
  isOpen := h.isOpen
  known key hk := (h.known key hk).mono hl
  todo r hr := (h.todo r hr).mono hl
  news item hi := (h.news item hi).mono hl
  cached := hr
  held := h.held
  single := h.single
  jobs who job hj := (h.jobs who job hj).mono hl
  past key hp := (h.past key hp).mono hl

theorem Ordered.withNews (h : s.Ordered settings) {news : List News} (hn : ∀ item ∈ news, Credible s.Live item) :
    ({ s with news } : Scene).Ordered settings := { h with news := hn }

theorem Ordered.withTodo (h : s.Ordered settings) {todo : List Reaction} (ht : ∀ r ∈ todo, Sensible s.Live r) :
    ({ s with todo } : Scene).Ordered settings := { h with todo := ht }

theorem Ordered.withQueue (h : s.Ordered settings) {queue : WorkQueue ServiceKey} (ho : queue.Orderly)
    (hs : queue.shuttingDown = false) (hk : ∀ key, queue.Knows key → Announced s.Live key)
    (hp : queue.processing = s.queue.processing) : ({ s with queue } : Scene).Ordered settings :=
  { h with orderly := ho, isOpen := hs, known := hk, held := fun who job hj => hp ▸ h.held who job hj }

/-! ### One move -/

/-- A service that is live stays so when another version of it is stored. -/
theorem live_putService {svc x : Service} (hk : (Move.putService svc).Keeps s) (hx : s.Live x) :
    Simulation.Live (s.world.cluster.upsertService svc).2 x := by
  refine ⟨hx.proper, ?_⟩
  rw [MemoryCluster.core?_upsertService]
  split
  · next he => rw [← hk.2 _ (by rw [he]; exact hx.stored)]
  · exact hx.stored

theorem Ordered.putService (h : s.Ordered settings) {svc : Service} (hk : (Move.putService svc).Keeps s) :
    (s.putService svc).Ordered settings := by
  have hl := fun x => live_putService (x := x) hk
  have hcore (k : String) := s.world.cluster.core?_upsertService svc k
  have hnew : Simulation.Live (s.world.cluster.upsertService svc).2 svc :=
    ⟨hk.1, by rw [hcore, if_pos hk.1.slot_eq]⟩
  have hstored : Stored (s.world.cluster.upsertService svc).2 := by
    intro slot x hx
    rw [hcore] at hx
    split at hx
    · next he =>
      obtain rfl := Option.some.inj hx
      exact ⟨hnew.of_core rfl, he.symm.trans hk.1.slot_eq⟩
    · obtain ⟨hx, he⟩ := h.stored slot x hx
      exact ⟨hl x hx, he⟩
  have hw := h.withWorld (w := { s.world with cluster := (s.world.cluster.upsertService svc).2 }) hl hstored h.sound
    fun key entry he => (h.cached key entry he).mono hl
  refine hw.withNews fun item hi => ?_
  rcases List.mem_append.mp hi with hi | hi
  · exact hw.news item hi
  · obtain rfl := List.mem_singleton.mp hi
    have hst : Simulation.Live (s.world.cluster.upsertService svc).2 (s.world.cluster.upsertService svc).1 :=
      hnew.of_core rfl
    cases s.world.cluster.service? (svc.info.ns.getD "") svc.info.displayName <;> exact hst

theorem Ordered.putNode (h : s.Ordered settings) (node : Node) : (s.putNode node).Ordered settings := by
  have hw : ({ s with world.cluster := s.world.cluster.upsertNode node } : Scene).Ordered settings :=
    h.withWorld (fun _ hl => hl) h.stored h.sound h.cached
  refine hw.withNews fun item hi => ?_
  rcases List.mem_append.mp hi with hi | hi
  · exact hw.news item hi
  · obtain rfl := List.mem_singleton.mp hi
    trivial

theorem Ordered.dropNode (h : s.Ordered settings) {name : String} (ht : s.dropNode name = some t) :
    t.Ordered settings := by
  obtain ⟨node, _, rfl⟩ := Option.map_eq_some_iff.mp ht
  have hw : ({ s with world.cluster := s.world.cluster.deleteNode name } : Scene).Ordered settings :=
    h.withWorld (fun _ hl => hl) h.stored h.sound h.cached
  refine hw.withNews fun item hi => ?_
  rcases List.mem_append.mp hi with hi | hi
  · exact hw.news item hi
  · obtain rfl := List.mem_singleton.mp hi
    trivial

/-- What is decided upon a change of a live service or of a node is about live services. -/
theorem Ordered.decide (h : s.Ordered settings) {item : News} (hi : Credible s.Live item) :
    (s.decide item).Ordered settings := by
  have hservice {svc : Service} (hs : s.Live svc) {δ : Delta Service}
      (hδ : δ = .added svc ∨ ∃ old, δ = .updated old svc) :
      ({ s with todo := s.todo ++ Routing.onService δ } : Scene).Ordered settings := by
    refine h.withTodo fun r hr => ?_
    rcases List.mem_append.mp hr with hr | hr
    · exact h.todo r hr
    · rcases Routing.mem_onService hδ hr with rfl | ⟨e, rfl⟩
      · exact ⟨svc, hs, rfl⟩
      · trivial
  cases item with
  | service δ =>
    cases δ with
    | added svc => exact hservice hi (.inl rfl)
    | updated old svc => exact hservice hi (.inr ⟨old, rfl⟩)
    | deleted svc => cases hi
  | node δ =>
    refine h.withTodo fun r hr => ?_
    rcases List.mem_append.mp hr with hr | hr
    · exact h.todo r hr
    · obtain ⟨key, entry, rfl, he, _⟩ := Routing.mem_onNode hr
      have ht := h.cached key entry he
      exact ⟨entry.service, ht.live, ht.key⟩
  | endpoints δ => cases hi

theorem Ordered.react (h : s.Ordered settings) {r : Reaction} (hr : Sensible s.Live r) :
    (s.react r).Ordered settings := by
  cases r with
  | enqueue key =>
    refine h.withQueue (h.orderly.add key) (by simpa using h.isOpen) (fun k hk => ?_) (by simp)
    rcases hk.of_add with hk | rfl
    · exact h.known k hk
    · exact hr
  | record e => exact h.withWorld (fun _ hl => hl) h.stored h.sound h.cached
  | keepDeleted svc => cases hr
  | markStale key => cases hr

theorem Ordered.fire (h : s.Ordered settings) (key : ServiceKey) (deadline : Duration) :
    ({ s with queue := s.queue.fire key deadline } : Scene).Ordered settings := by
  have hsame : (s.queue.fire key deadline).shuttingDown = s.queue.shuttingDown ∧
      (s.queue.fire key deadline).processing = s.queue.processing := by
    rcases s.queue.fire_cases key deadline with ⟨_, waiting, he⟩ | ⟨_, he⟩ <;> simp [he]
  exact h.withQueue (h.orderly.fire key deadline) (hsame.1.trans h.isOpen) (fun k hk => h.known k hk.of_fire) hsame.2

/-! ### Workers -/

theorem Ordered.staffed (h : s.Ordered settings) : s.Staffed := ⟨h.orderly, h.isOpen, h.held, h.single⟩

/-- With those who are at work, and what they are at, as they are now. -/
theorem Ordered.withStaff (h : s.Ordered settings) (ht : t.Staffed) (hw : t.world = s.world) (hn : t.news = s.news)
    (hd : t.todo = s.todo) (hk : ∀ key, t.queue.Knows key → Announced s.Live key)
    (hj : ∀ who job, t.jobs who = some job → Conducted settings s.Live job)
    (hp : ∀ key, t.past key ≠ [] → Announced s.Live key) : t.Ordered settings where
  stored := hw ▸ h.stored
  sound := hw ▸ h.sound
  orderly := ht.orderly
  isOpen := ht.isOpen
  known := by rw [Live, hw]; exact hk
  todo := by rw [Live, hw, hd]; exact h.todo
  news := by rw [Live, hw, hn]; exact h.news
  cached := by rw [Live, hw]; exact h.cached
  held := ht.held
  single := ht.single
  jobs := by rw [Live, hw]; exact hj
  past := by rw [Live, hw]; exact hp

theorem Ordered.get (h : s.Ordered settings) {who : Nat} (ht : s.get settings who = some t) : t.Ordered settings := by
  have hstaff := h.staffed.get ht
  obtain ⟨key, queue, _, hq, rfl⟩ := get_eq_some ht
  refine h.withStaff hstaff rfl rfl rfl (fun k hk => h.known k (h.orderly.knows_take hq hk)) ?_ h.past
  intro other job hj
  rcases setJob_eq_some hj with ⟨_, he⟩ | ⟨_, hj⟩
  · obtain rfl := Option.some.inj he
    exact ⟨obeys_program settings key, traced_new⟩
  · exact h.jobs other job hj

/-- The job of a worker goes on. -/
theorem Ordered.withJob (h : s.Ordered settings) {who : Nat} {old new : Job} (hj : s.jobs who = some old)
    (hk : new.key = old.key) (hc : Conducted settings s.Live new) : (s.setJob who (some new)).Ordered settings := by
  refine h.withStaff (h.staffed.withJob hj hk) rfl rfl rfl h.known ?_ h.past
  intro other job hj'
  rcases setJob_eq_some hj' with ⟨_, he⟩ | ⟨_, hj'⟩
  · obtain rfl := Option.some.inj he
    exact hc
  · exact h.jobs other job hj'

theorem Ordered.exchange (h : s.Ordered settings) {who time : Nat} (ht : s.exchange who time = some t) :
    t.Ordered settings := by
  obtain ⟨key, q, next, course, hj, hcase⟩ := exchange_eq_some ht
  have hjob := h.jobs who _ hj
  obtain ⟨hq, hnext⟩ : course.Allows settings key q ∧ ∀ a, Program.Obeys (protocol settings key)
      (Course.Ends settings) (course.note q a) (next a) := hjob.obeys
  have hsame := s.world.answer_cluster time q
  have hlive : ∀ svc, s.Live svc → Simulation.Live (s.world.answer time q).2.cluster svc :=
    fun svc hs => (Live.same hsame).mpr hs
  have hw : ({ s with world := (s.world.answer time q).2 } : Scene).Ordered settings := by
    refine h.withWorld hlive (h.stored.same hsame) ?_ fun k entry he => ?_
    · rw [s.world.answer_cloud time q]
      exact World.sound_cloudAfter h.sound q
    · rw [s.world.answer_cache time q] at he
      exact (h.cached.exchange hjob.traced hq k entry he).mono hlive
  rcases hcase with ⟨a, ha, rfl⟩ | ⟨ha, rfl⟩
  · have htraced := hjob.traced.exchange h.stored (h.known key (.inr (h.held who _ hj))) h.cached hq ha
    exact hw.withJob hj rfl ⟨hnext a, htraced.mono hlive⟩
  · exact hw.withJob hj rfl ⟨owed_of_broken hq ha, hjob.traced.mono hlive⟩

theorem Ordered.finish (h : s.Ordered settings) {who : Nat} {now clock errorDelay : Duration} {backoff : Backoff}
    (ht : s.finish who now clock errorDelay backoff = some t) : t.Ordered settings := by
  have hstaff := h.staffed.finish ht
  obtain ⟨job, outcome, added, past, hj, _, hadd, rfl, rfl⟩ := finish_eq_some ht
  have hknown := h.known job.key (.inr (h.held who job hj))
  refine h.withStaff hstaff rfl rfl rfl (fun key hk => ?_) (fun other j hj' => ?_) fun key hp => ?_
  · rcases hadd with rfl | ⟨delay, rfl⟩
    · exact h.known key hk.of_release
    · rcases hk.of_release.of_addAfter with hk | rfl
      · exact h.known key hk
      · exact hknown
  · rcases setJob_eq_some hj' with ⟨_, he⟩ | ⟨_, hj'⟩
    · cases he
    · exact h.jobs other j hj'
  · dsimp only [setJob] at hp
    split at hp
    · next he => exact he ▸ hknown
    · exact h.past key hp

/-- Every move of a quiet run keeps the scene about live services. -/
theorem Ordered.act (h : s.Ordered settings) {move : Move} (hk : move.Keeps s) (ht : s.act? settings move = some t) :
    t.Ordered settings := by
  cases move with
  | putService svc =>
    obtain rfl := Option.some.inj ht
    exact h.putService hk
  | putNode node =>
    obtain rfl := Option.some.inj ht
    exact h.putNode node
  | dropNode name => exact h.dropNode ht
  | tell index =>
    obtain ⟨item, hi, rfl⟩ := Option.map_eq_some_iff.mp ht
    have hs : ({ s with news := s.news.eraseIdx index } : Scene).Ordered settings :=
      h.withNews fun x hx => h.news x (List.mem_of_mem_eraseIdx hx)
    exact hs.decide (h.news item (List.mem_of_getElem? hi))
  | react index =>
    obtain ⟨r, hr, rfl⟩ := Option.map_eq_some_iff.mp ht
    have hs : ({ s with todo := s.todo.eraseIdx index } : Scene).Ordered settings :=
      h.withTodo fun x hx => h.todo x (List.mem_of_mem_eraseIdx hx)
    exact hs.react (h.todo r (List.mem_of_getElem? hr))
  | failCloud message =>
    obtain rfl := Option.some.inj ht
    exact h.withWorld (fun _ hl => hl) h.stored (h.sound.inject message) h.cached
  | failStatus e =>
    obtain rfl := Option.some.inj ht
    exact h.withWorld (fun _ hl => hl) h.stored h.sound h.cached
  | failCluster call e =>
    obtain rfl := Option.some.inj ht
    exact h.withWorld (fun _ hl => hl) h.stored h.sound h.cached
  | fire key deadline =>
    obtain rfl := Option.some.inj ht
    exact h.fire key deadline
  | get who => exact h.get ht
  | exchange who time => exact h.exchange ht
  | finish who now clock errorDelay backoff => exact h.finish ht
  | removeService key => cases hk
  | putEndpoints δ => cases hk
  | resync => cases hk

end Scene
end ServiceBalancer.Simulation
