import ServiceBalancer.Proofs.Interleaving.Staffing

/-! What a scene comes to for one key, move by move, and what a run of moves leaves when the key is at rest. -/
namespace ServiceBalancer
namespace Sync

def Request.Pushes : Request → Prop
  | .ensure _ _ => True
  | _ => False

def Request.Makes (name : String) : Request → Prop
  | .ensure svc _ => svc.givenBalancerId? = none ∧ svc.balancerName? = some name
  | _ => False

def Request.Forgets (key : ServiceKey) : Request → Prop
  | .forget k => k = key
  | _ => False

instance (q : Request) : Decidable q.Pushes := by
  cases q <;> unfold Request.Pushes <;> infer_instance

instance (name : String) (q : Request) : Decidable (q.Makes name) := by
  cases q <;> unfold Request.Makes <;> infer_instance

instance (key : ServiceKey) (q : Request) : Decidable (q.Forgets key) := by
  cases q <;> unfold Request.Forgets <;> infer_instance

end Sync

namespace Simulation
open Sync

namespace Scene
variable {settings : SyncSettings} {s t u : Scene} {key : ServiceKey} {move : Move} {job : Job}

/-- Whether some worker is at a job of a key. -/
def At (s : Scene) (key : ServiceKey) (job : Job) : Prop := ∃ who, s.jobs who = some job ∧ job.key = key

/-- Whether a key is at rest: it is not ready, held or delayed, and the router is not to enqueue it. -/
def AtRest (s : Scene) (key : ServiceKey) : Prop :=
  key ∉ s.queue.ready ∧ key ∉ s.queue.processing ∧ (∀ w ∈ s.queue.waiting, w.1 ≠ key) ∧ .enqueue key ∉ s.todo

instance (s : Scene) (key : ServiceKey) : Decidable (s.AtRest key) := inferInstanceAs (Decidable (_ ∧ _ ∧ _ ∧ _))

theorem AtRest.not_called (h : s.AtRest key) (hs : s.Staffed) : ¬s.Called key := by
  obtain ⟨hready, hheld, hdelayed, htodo⟩ := h
  rintro ((hd | ⟨_, hd⟩) | hd)
  · rcases hs.orderly.kept hs.isOpen key hd with hd | hd
    · exact hready hd
    · exact hheld hd
  · exact hdelayed _ hd rfl
  · exact htodo hd

theorem Staffed.nobody (h : s.Staffed) (hk : key ∉ s.queue.processing) : ¬s.At key job := by
  rintro ⟨who, hj, rfl⟩
  exact hk (h.held who job hj)

theorem AtRest.nobody (h : s.AtRest key) (hs : s.Staffed) : ¬s.At key job := hs.nobody h.2.1

/-! ### One move -/

/-- What a move comes to for a key: nothing that its syncs have to do with, or a sync of it starts, puts a request,
or ends. A key is called for until a sync of it starts, and again when a sync ends on a failure. -/
inductive Turn (settings : SyncSettings) (key : ServiceKey) (s : Scene) (move : Move) (t : Scene) : Prop where
  | aside (foreign : ∀ who time job, move = .exchange who time → s.jobs who = some job → job.key ≠ key)
      (jobs : ∀ job, t.At key job ↔ s.At key job) (past : t.past key = s.past key)
      (called : s.Called key → t.Called key)
  | starts (nobody : ∀ job, ¬s.At key job)
      (jobs : ∀ job, t.At key job ↔ job = { key, rest := some (program settings key) })
      (world : t.world = s.world) (past : t.past = s.past)
  | exchange (who time : Nat) (q : Request) (next : Answer q → Program Answer (Except Error Unit)) (course : Course)
      (job : Job) (made : move = .exchange who time ∧ s.jobs who = some ⟨key, some (.ask q next), course⟩)
      (before : ∀ job, s.At key job ↔ job = ⟨key, some (.ask q next), course⟩)
      (answered : (∃ a, (s.world.answer time q).1 = some a ∧ job = ⟨key, some (next a), course.note q a⟩) ∨
        (s.world.answer time q).1 = none ∧ job = ⟨key, none, course⟩)
      (after : ∀ j, t.At key j ↔ j = job) (world : t.world = (s.world.answer time q).2) (past : t.past = s.past)
      (called : s.Called key → t.Called key)
  | ends (job : Job) (outcome : SyncOutcome) (before : ∀ j, s.At key j ↔ j = job)
      (ended : job.outcome? = some outcome) (nobody : ∀ j, ¬t.At key j) (world : t.world = s.world)
      (past : t.past key = ⟨job.course, outcome⟩ :: s.past key) (called : s.Called key → t.Called key)
      (failed : outcome ≠ some (.ok ()) → t.Called key)

/-- Whoever is at a key is the only one. -/
theorem Staffed.at_iff (h : s.Staffed) {who : Nat} (hj : s.jobs who = some job) (hk : job.key = key) (j : Job) :
    s.At key j ↔ j = job := by
  constructor
  · rintro ⟨other, hj', hk'⟩
    obtain rfl := h.single other who j job hj' hj (hk'.trans hk.symm)
    exact Option.some.inj (hj'.symm.trans hj)
  · rintro rfl
    exact ⟨who, hj, hk⟩

theorem at_of_jobs (hj : ∀ who j, j.key = key → (t.jobs who = some j ↔ s.jobs who = some j)) (job : Job) :
    t.At key job ↔ s.At key job := by
  constructor
  · rintro ⟨who, h, hk⟩
    exact ⟨who, (hj who job hk).mp h, hk⟩
  · rintro ⟨who, h, hk⟩
    exact ⟨who, (hj who job hk).mpr h, hk⟩

theorem turn_get (hs : s.Staffed) {who : Nat} (ht : s.get settings who = some t) :
    Turn settings key s (.get who) t := by
  have hstaff := hs.get ht
  obtain ⟨k, queue, hnone, hq, rfl⟩ := get_eq_some ht
  by_cases hk : k = key
  · subst hk
    have hnew : (setJob { s with queue } who (some { key := k, rest := some (program settings k) })).jobs who = some _ :=
      if_pos rfl
    refine .starts ?_ (hstaff.at_iff hnew rfl) rfl rfl
    rintro job ⟨other, hj, he⟩
    exact hs.orderly.take_free hq (he ▸ hs.held other job hj)
  · refine .aside (by simp) (at_of_jobs ?_) rfl ?_
    · refine setJob_other (s := { s with queue }) (fun j hj => ?_) fun j hj => ?_
      · cases hnone.symm.trans hj
      · exact Option.some.inj hj ▸ hk
    · exact fun hc => hc.imp_left fun hd => hd.take hq (Ne.symm hk)

theorem turn_exchange (hs : s.Staffed) {who time : Nat} (ht : s.exchange who time = some t) :
    Turn settings key s (.exchange who time) t := by
  have hstaff := hs.exchange ht
  obtain ⟨k, q, next, course, hj, hcase⟩ := exchange_eq_some ht
  -- What becomes of the job does not matter to the others.
  obtain ⟨job, hkey, rfl, hans⟩ : ∃ job : Job, job.key = k ∧
      t = { s with world := (s.world.answer time q).2 }.setJob who (some job) ∧
      ((∃ a, (s.world.answer time q).1 = some a ∧ job = ⟨k, some (next a), course.note q a⟩) ∨
        (s.world.answer time q).1 = none ∧ job = ⟨k, none, course⟩) := by
    rcases hcase with ⟨a, ha, rfl⟩ | ⟨ha, rfl⟩
    · exact ⟨_, rfl, rfl, .inl ⟨a, ha, rfl⟩⟩
    · exact ⟨_, rfl, rfl, .inr ⟨ha, rfl⟩⟩
  by_cases hk : k = key
  · subst hk
    have hnew : ({ s with world := (s.world.answer time q).2 }.setJob who (some job)).jobs who = some job := if_pos rfl
    exact .exchange who time q next course job ⟨rfl, hj⟩ (hs.at_iff hj rfl) hans (hstaff.at_iff hnew hkey) rfl rfl id
  · refine .aside ?_ (at_of_jobs ?_) rfl id
    · rintro _ _ job' ⟨⟩ hj'
      exact Option.some.inj (hj.symm.trans hj') ▸ hk
    · refine setJob_other (s := { s with world := (s.world.answer time q).2 }) (fun j hj' => ?_) fun j hj' => ?_
      · exact Option.some.inj (hj.symm.trans hj') ▸ hk
      · exact Option.some.inj hj' ▸ hkey ▸ hk

theorem turn_finish (hs : s.Staffed) {who : Nat} {now clock errorDelay : Duration} {backoff : Backoff}
    (ht : s.finish who now clock errorDelay backoff = some t) :
    Turn settings key s (.finish who now clock errorDelay backoff) t := by
  obtain ⟨job, outcome, added, past, hj, hout, hadd, hpast, he⟩ := finish_eq_some ht
  have hdue := due_finish hs.isOpen ht hj hout
  subst hpast he
  have hcalled {k : ServiceKey} (hc : s.Called k) :
      Scene.Called (setJob { s with queue := added.release job.key } who none) k := by
    refine hc.imp_left fun hd => WorkQueue.due_release.mpr ?_
    rcases hadd with rfl | ⟨delay, rfl⟩
    · exact hd
    · exact hd.addAfter
  by_cases hk : job.key = key
  · subst hk
    refine .ends job outcome (hs.at_iff hj rfl) hout ?_ rfl (if_pos rfl) hcalled fun hbad => .inl (hdue hbad)
    rintro j ⟨other, hj', hkey⟩
    rcases setJob_eq_some hj' with ⟨_, he⟩ | ⟨hne, hj'⟩
    · cases he
    · exact hne (hs.single other who j job hj' hj hkey)
  · refine .aside (by simp) (at_of_jobs ?_) (if_neg (Ne.symm hk)) hcalled
    exact setJob_other (fun j hj' => Option.some.inj (hj.symm.trans hj') ▸ hk) (fun _ h => by cases h)

/-- Every move is one of these turns. -/
theorem turn (hs : s.Staffed) (ht : s.act? settings move = some t) (key : ServiceKey) :
    Turn settings key s move t := by
  rcases act_cases ht with ⟨ho, hne⟩ | ⟨who, ht, rfl⟩ | ⟨who, time, ht, rfl⟩ | ⟨_, _, _, _, _, ht, rfl⟩
  · refine .aside ?_ (at_of_jobs fun who j _ => by rw [ho.jobs]) (by rw [ho.past]) (ho.called hs.isOpen key)
    exact fun who time _ he _ => absurd he (hne who time)
  · exact turn_get hs ht
  · exact turn_exchange hs ht
  · exact turn_finish hs ht

theorem Regular.of_at (h : s.Regular settings) (hj : s.At key job) : job.Regular settings := by
  obtain ⟨who, hj, _⟩ := hj
  exact h who job hj

/-- What others do to what is remembered under a key: they leave it, make it stale, keep a deleted service
there, or forget it. -/
theorem cache_aside (hr : s.Regular settings) (ht : s.act? settings move = some t)
    (hf : ∀ who time job, move = .exchange who time → s.jobs who = some job → job.key ≠ key) :
    t.world.cache.get? key = s.world.cache.get? key ∨
    t.world.cache.get? key = (s.world.cache.get? key).map (fun entry => { entry with fingerprint := none }) ∨
    (∃ index svc, move = .react index ∧ s.todo[index]? = some (.keepDeleted svc) ∧ .ofService svc = key ∧
      t.world.cache.get? key = some (.ofDeleted svc)) ∨
    ∃ who time k next course, move = .exchange who time ∧ s.jobs who = some ⟨k, some (.ask (.forget key) next), course⟩ ∧
      t.world.cache.get? key = none := by
  cases move with
  | removeService k =>
    obtain ⟨svc, _, rfl⟩ := Option.map_eq_some_iff.mp ht
    exact .inl rfl
  | dropNode name =>
    obtain ⟨node, _, rfl⟩ := Option.map_eq_some_iff.mp ht
    exact .inl rfl
  | tell index =>
    obtain ⟨item, _, rfl⟩ := Option.map_eq_some_iff.mp ht
    obtain ⟨world, todo, he, _, _, hcache, _⟩ := decide_frame { s with news := s.news.eraseIdx index } item
    rw [he]
    exact .inl (congrArg (·.get? key) hcache)
  | react index =>
    obtain ⟨r, hi, rfl⟩ := Option.map_eq_some_iff.mp ht
    cases r with
    | enqueue k => exact .inl rfl
    | record e => exact .inl rfl
    | keepDeleted svc =>
      by_cases hk : ServiceKey.ofService svc = key
      · exact .inr (.inr (.inl ⟨index, svc, rfl, hi, hk, by simp [Scene.react, hk]⟩))
      · exact .inl (by simp [Scene.react, hk])
    | markStale k =>
      have hget : (s.world.cache.markStale k).get? key = _ := SortedMap.get?_modify s.world.cache k key _
      by_cases hk : key = k
      · simp only [hk, if_true] at hget
        exact .inr (.inl (hk ▸ hget))
      · simp only [hk, if_false, Option.map_id_fun', id] at hget
        exact .inl hget
  | resync =>
    obtain rfl := Option.some.inj ht
    exact .inr (.inl (SortedMap.get?_mapValues s.world.cache _ key))
  | get who =>
    obtain ⟨_, _, _, _, rfl⟩ := get_eq_some ht
    exact .inl rfl
  | exchange who time =>
    obtain ⟨k, q, next, course, hj, hcase⟩ := exchange_eq_some ht
    have hne : k ≠ key := hf who time _ rfl hj
    have hcache : t.world.cache = World.cacheAfter s.world.cache q := by
      rcases hcase with ⟨_, _, rfl⟩ | ⟨_, rfl⟩ <;> exact s.world.answer_cache time q
    rw [hcache]
    obtain ⟨hq, _⟩ : course.Allows settings k q ∧ _ := hr who _ hj
    cases q with
    | remember other entry =>
      obtain rfl : other = k := hq.1
      exact .inl (by simp [World.cacheAfter, hne])
    | forget other =>
      by_cases ho : other = key
      · subst ho
        exact .inr (.inr (.inr ⟨who, time, k, next, course, rfl, hj, by simp [World.cacheAfter]⟩))
      · exact .inl (by simp [World.cacheAfter, ho])
    | _ => exact .inl rfl
  | finish who now clock errorDelay backoff =>
    obtain ⟨_, _, _, _, _, _, _, _, rfl⟩ := finish_eq_some ht
    exact .inl rfl
  | _ =>
    obtain rfl := Option.some.inj ht
    exact .inl rfl

/-! ### Requests -/

/-- Whether a move is a request of some kind that the sync of a key puts. -/
def Move.Asks (s : Scene) (kind : ServiceKey → Request → Prop) : Move → Prop
  | .exchange who _ =>
    match s.jobs who with
    | some ⟨k, some (.ask q _), _⟩ => kind k q
    | _ => False
  | _ => False

instance (s : Scene) (kind : ServiceKey → Request → Prop) [∀ k q, Decidable (kind k q)] (move : Move) :
    Decidable (move.Asks s kind) := by
  unfold Move.Asks
  split
  · split <;> infer_instance
  · infer_instance

theorem asks_exchange {kind : ServiceKey → Request → Prop} {who time : Nat} {q : Request}
    {next : Answer q → Program Answer (Except Error Unit)} {course : Course}
    (hj : s.jobs who = some ⟨key, some (.ask q next), course⟩) :
    (Move.exchange who time).Asks s kind ↔ kind key q := by
  simp only [Move.Asks, hj]

/-! ### Runs -/

/-- A run of moves, each with the scene in which it is made, oldest first. -/
inductive Run (settings : SyncSettings) : Scene → List (Scene × Move) → Scene → Prop where
  | rest (a : Scene) : Run settings a [] a
  | move {a b c : Scene} {m : Move} {log : List (Scene × Move)} : a.act? settings m = some b → Run settings b log c →
    Run settings a ((a, m) :: log) c

theorem Run.staffed {log : List (Scene × Move)} (h : Run settings s log u) (hs : s.Staffed) : u.Staffed := by
  induction h with
  | rest => exact hs
  | move ht _ ih => exact ih (hs.act ht)

theorem Run.regular {log : List (Scene × Move)} (h : Run settings s log u) (hs : s.Regular settings) :
    u.Regular settings := by
  induction h with
  | rest => exact hs
  | move ht _ ih => exact ih (hs.act ht)

def play (settings : SyncSettings) (s : Scene) : List Move → Option (List (Scene × Move) × Scene)
  | [] => some ([], s)
  | move :: moves => do
    let t ← s.act? settings move
    let (log, u) ← t.play settings moves
    return ((s, move) :: log, u)

theorem run_of_play {moves : List Move} {log : List (Scene × Move)} (h : s.play settings moves = some (log, u)) :
    Run settings s log u := by
  induction moves generalizing s log with
  | nil =>
    cases Option.some.inj h
    exact .rest _
  | cons move moves ih =>
    obtain ⟨t, ht, h⟩ := Option.bind_eq_some_iff.mp h
    obtain ⟨⟨rest, end_⟩, hrest, h⟩ := Option.bind_eq_some_iff.mp h
    cases Option.some.inj h
    exact .move ht (ih hrest)

end Scene
end Simulation
end ServiceBalancer
