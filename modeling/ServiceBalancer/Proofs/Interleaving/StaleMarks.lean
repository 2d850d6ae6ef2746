import ServiceBalancer.Proofs.Interleaving.NodeChanges
import ServiceBalancer.Proofs.Interleaving.Turns

/-! Marks that a service is stale. A mark clears the fingerprint that is remembered, and the next sync calls the cloud.
A sync that is under way may remember a fingerprint of its own after the mark, which then is lost on it. -/
namespace ServiceBalancer
namespace Sync.Course

structure Bare (c : Course) : Prop where
  pushed : c.pushed = none
  kept : c.kept = none
  memory : ∀ entry, c.memory = some entry → entry.fingerprint = none

def Wanted (c : Course) : Prop := ∀ found, c.found = some found → ∃ svc, found = some svc ∧ svc.needsBalancer = true

variable {settings : SyncSettings} {key : ServiceKey} {c : Course} {q : Request} {svc : Service} {nodes : List Node}

theorem bare_new : Bare {} := ⟨rfl, rfl, fun _ h => by cases h⟩

/-- A sync has pushed, or has a fingerprint in memory, when its balancer is made sure of. -/
theorem Bare.not_ensured {status : BalancerStatus} (h : c.Bare) : ¬c.Ensured settings svc nodes status := by
  intro he
  rcases he.made with hp | ⟨_, entry, hm, hcur, _⟩
  · cases h.pushed.symm.trans hp
  · cases (h.memory entry hm).symm.trans hcur.2

/-- A bare sync of a service that wants a balancer does not go well. -/
theorem Bare.not_ends (h : c.Bare) (hw : c.Wanted) : ¬c.Ends settings (.ok ()) := by
  intro he
  obtain ⟨found, hf⟩ := Option.isSome_iff_exists.mp (he.asked rfl).2
  obtain ⟨svc, rfl, hn⟩ := hw found hf
  obtain ⟨nodes, status, hens, _⟩ := he.vouched rfl svc hf hn
  exact h.not_ensured hens

/-- A sync that does not push stays bare, if what it recalls is without a fingerprint. -/
theorem Bare.note {a : Answer q} (h : c.Bare) (hq : c.Allows settings key q) (hne : ∀ svc nodes, q ≠ .ensure svc nodes)
    (hr : ∀ k, q = .recall k → ∀ entry, (c.note q a).recalled = some (some entry) → entry.fingerprint = none) :
    (c.note q a).Bare := by
  cases q with
  | «recall» k =>
    refine ⟨h.pushed, h.kept, fun entry he => ?_⟩
    refine hr k rfl entry ?_
    obtain rfl : c = {} := hq.2
    exact congrArg some he
  | service k => cases a <;> exact ⟨h.pushed, h.kept, h.memory⟩
  | nodes => cases a <;> exact ⟨h.pushed, h.kept, h.memory⟩
  | ensure svc nodes => exact absurd rfl (hne svc nodes)
  | delete svc => cases a <;> exact ⟨h.pushed, h.kept, h.memory⟩
  | forget k => exact ⟨h.pushed, h.kept, fun _ he => by cases he⟩
  | remember k entry =>
    obtain ⟨_, _, _, _, _, hens, _⟩ := hq
    exact absurd hens h.not_ensured
  | _ => exact h

end Sync.Course

namespace Simulation
open Sync

namespace Scene
variable {settings : SyncSettings} {s t u : Scene} {key : ServiceKey} {move : Move} {log : List (Scene × Move)}

def Stale (s : Scene) (key : ServiceKey) : Prop :=
  ∀ entry, s.world.cache.get? key = some entry → entry.fingerprint = none

/-- Whether a key is that of a service that wants a balancer. -/
def Wants (s : Scene) (key : ServiceKey) : Prop :=
  (s.world.cluster.service? key.ns key.name).any Service.needsBalancer = true

instance (s : Scene) (key : ServiceKey) : Decidable (s.Wants key) := inferInstanceAs (Decidable (_ = _))

/-- Whether a move marks a key as stale: upon changed endpoints, or with all the others. -/
def Move.Marks (s : Scene) (key : ServiceKey) : Move → Prop
  | .react index => s.todo[index]? = some (.markStale key)
  | .resync => True
  | _ => False

/-- Whether a move is the start of a call that is to create or update the balancer of a key. -/
def Move.Pushes (s : Scene) (key : ServiceKey) (move : Move) : Prop := move.Asks s fun k q => k = key ∧ q.Pushes

instance (s : Scene) (key : ServiceKey) (move : Move) : Decidable (move.Pushes s key) :=
  inferInstanceAs (Decidable (move.Asks s _))

/-- Whether the sync of a key that was under way at a mark has overwritten it: it had pushed before, or recalled
a fingerprint, went well, and remembered that after the mark. -/
def Overwritten (t : Scene) (key : ServiceKey) (past : List Report) : Prop :=
  ∃ job, t.At key job ∧ job.course.kept = none ∧
    (job.course.pushed.isSome ∨ ∃ entry, job.course.memory = some entry ∧ entry.fingerprint.isSome) ∧
    ∃ r newer, past = newer ++ r :: t.past key ∧ r.isOk = true ∧ r.course.kept.isSome ∧
      r.course.pushed = job.course.pushed

/-- Whether a key is yet to be pushed: its next sync is to start, or is under way and has nothing to go by but a push. -/
structure Unserved (s : Scene) (key : ServiceKey) : Prop where
  stale : s.Stale key
  jobs : ∀ job, s.At key job → job.course.kept.isSome ∨ job.course.Bare
  next : s.Called key ∨ ∃ job, s.At key job ∧ job.course.Bare ∧ job.course.Wanted

/-- Whether the sync that was under way at a mark still is. Until it remembers anything, the key stays stale and
another sync is to follow. -/
def Astride (t : Scene) (key : ServiceKey) (first : Job) (s : Scene) : Prop :=
  ∃ job, s.At key job ∧ job.course.pushed = first.course.pushed ∧ s.past key = t.past key ∧
    (job.course.kept.isSome ∨ job.course.kept = none ∧ s.Stale key ∧ s.Called key)

/-! ### Requests -/

theorem ne_ensure_of_not_pushes {who time : Nat} {q : Request} {next : Answer q → Program Answer (Except Error Unit)}
    {c : Course} (hj : s.jobs who = some ⟨key, some (.ask q next), c⟩) (hp : ¬(Move.exchange who time).Pushes s key)
    (svc : Service) (nodes : List Node) : q ≠ .ensure svc nodes := by
  rintro rfl
  exact hp ((asks_exchange hj).mpr ⟨rfl, trivial⟩)

theorem Stale.exchange {time : Nat} {q : Request} (h : s.Stale key) (hne : ∀ k entry, q ≠ .remember k entry)
    (hw : t.world = (s.world.answer time q).2) : t.Stale key := by
  intro entry he
  rw [hw, World.answer_cache] at he
  cases q with
  | remember k new => exact absurd rfl (hne k new)
  | forget k =>
    simp only [World.cacheAfter, SortedMap.get?_erase] at he
    split at he
    · cases he
    · exact h entry he
  | _ => exact h entry he

theorem Stale.aside (h : s.Stale key) (hr : s.Regular settings) (ht : s.act? settings move = some t)
    (hf : ∀ who time job, move = .exchange who time → s.jobs who = some job → job.key ≠ key) : t.Stale key := by
  intro entry he
  rcases cache_aside hr ht hf with hc | hc | ⟨_, svc, _, _, _, hc⟩ | ⟨_, _, _, _, _, _, _, hc⟩
  · exact h entry (hc ▸ he)
  · rw [hc] at he
    obtain ⟨old, _, rfl⟩ := Option.map_eq_some_iff.mp he
    rfl
  · obtain rfl := Option.some.inj (hc.symm.trans he)
    rfl
  · cases hc.symm.trans he

theorem bare_answer {time : Nat} {q : Request} {a : Answer q} {c : Course} (h : c.Bare) (hs : s.Stale key)
    (hq : c.Allows settings key q) (hne : ∀ svc nodes, q ≠ .ensure svc nodes)
    (ha : (s.world.answer time q).1 = some a) : (c.note q a).Bare := by
  refine h.note hq hne ?_
  rintro k rfl entry he
  obtain rfl := hq.1
  obtain rfl := Option.some.inj ha
  exact hs entry (Option.some.inj he)

/-- A sync finds the service as it is. -/
theorem wanted_answer {time : Nat} {q : Request} {a : Answer q} {c : Course} (h : c.Wanted) (hw : s.Wants key)
    (hq : c.Allows settings key q) (ha : (s.world.answer time q).1 = some a) : (c.note q a).Wanted := by
  cases q with
  | service k =>
    obtain ⟨rfl, _⟩ := hq
    rcases a with e | found
    · exact h
    · obtain rfl := World.answer_service ha
      rintro _ ⟨⟩
      exact (Option.any_eq_true _ _).mp hw
  | nodes => cases a <;> exact h
  | ensure svc nodes => cases a <;> exact h
  | delete svc => cases a <;> exact h
  | _ => exact h

/-! ### Moves -/

theorem Regular.allows {q : Request} {next : Answer q → Program Answer (Except Error Unit)} {c : Course}
    (h : s.Regular settings) (hj : s.At key ⟨key, some (.ask q next), c⟩) : c.Allows settings key q :=
  (h.of_at hj).1

theorem Regular.ends {job : Job} {result : Except Error Unit} (h : s.Regular settings) (hj : s.At key job)
    (ho : job.outcome? = some (some result)) : job.course.Ends settings result := by
  have hjob := h.of_at hj
  obtain ⟨k, rest, c⟩ := job
  match rest with
  | none => cases ho
  | some (.done r) => exact Option.some.inj (Option.some.inj ho) ▸ hjob
  | some (.ask q next) => cases ho

theorem Regular.clear {job : Job} (h : s.Regular settings) (hj : s.At key job) (ho : job.outcome? = some none) :
    job.course.Clear := by
  have hjob := h.of_at hj
  obtain ⟨k, rest, c⟩ := job
  match rest with
  | none => exact hjob
  | some (.done r) => cases ho
  | some (.ask q next) => cases ho

/-- A key that is yet to be pushed stays so as long as no push begins. -/
theorem Unserved.act (h : s.Unserved key) (hs : s.Staffed) (hr : s.Regular settings) (hw : s.Wants key)
    (ht : s.act? settings move = some t) (hp : ¬move.Pushes s key) : t.Unserved key := by
  cases turn hs ht key with
  | aside foreign jobs past called =>
    refine ⟨h.stale.aside hr ht foreign, fun job hj => h.jobs job ((jobs job).mp hj), ?_⟩
    exact h.next.imp called fun ⟨job, hj, hb⟩ => ⟨job, (jobs job).mpr hj, hb⟩
  | starts nobody jobs world past =>
    refine ⟨fun entry he => h.stale entry (world ▸ he), fun job hj => .inr ?_, .inr ⟨_, (jobs _).mpr rfl, ?_⟩⟩
    · exact (jobs job).mp hj ▸ Course.bare_new
    · exact ⟨Course.bare_new, fun _ hf => by cases hf⟩
  | exchange who time q next c job made before answered after world past called =>
    obtain ⟨rfl, hj⟩ := made
    have hat := (before _).mpr rfl
    have hq := hr.allows hat
    have hne := ne_ensure_of_not_pushes hj hp
    have hnot : ∀ k entry, q ≠ .remember k entry := by
      rintro k entry rfl
      obtain ⟨_, hkept, _, _, _, hens, _⟩ := hq
      rcases h.jobs _ hat with hk | hb
      · simp [hkept] at hk
      · exact hb.not_ensured hens
    refine ⟨h.stale.exchange hnot world, fun j hj' => ?_, h.next.imp called fun ⟨old, hold, hb, hf⟩ => ?_⟩
    · obtain rfl := (after j).mp hj'
      have hold : c.kept.isSome ∨ c.Bare := h.jobs _ hat
      rcases answered with ⟨a, ha, rfl⟩ | ⟨_, rfl⟩
      · exact hold.imp Course.kept_note_isSome fun hb => bare_answer hb h.stale hq hne ha
      · exact hold
    · obtain rfl := (before old).mp hold
      refine ⟨job, (after job).mpr rfl, ?_⟩
      rcases answered with ⟨a, ha, rfl⟩ | ⟨_, rfl⟩
      · exact ⟨bare_answer hb h.stale hq hne ha, wanted_answer hf hw hq ha⟩
      · exact ⟨hb, hf⟩
  | ends job outcome before ended nobody world past called failed =>
    refine ⟨fun entry he => h.stale entry (world ▸ he), fun j hj => absurd hj (nobody j), .inl ?_⟩
    rcases h.next with hc | ⟨j, hj, hb, hf⟩
    · exact called hc
    · obtain rfl := (before j).mp hj
      refine failed ?_
      rintro rfl
      exact hb.not_ends hf (hr.ends hj ended)

/-- The sync that was under way at a mark goes on, or ends without a word, or overwrites the mark. -/
theorem Astride.act {first : Job} (h : Astride u key first s) (hfirst : u.At key first)
    (hkept : first.course.kept = none) (hahead : ¬first.course.Bare) (hs : s.Staffed) (hr : s.Regular settings)
    (ht : s.act? settings move = some t) (hp : ¬move.Pushes s key) :
    Astride u key first t ∨ t.Unserved key ∨ Overwritten u key (t.past key) := by
  obtain ⟨job, hat, hpushed, hpast, hphase⟩ := h
  cases turn hs ht key with
  | aside foreign jobs past called =>
    refine .inl ⟨job, (jobs job).mpr hat, hpushed, past.trans hpast, hphase.imp_right ?_⟩
    exact fun ⟨hk, hst, hc⟩ => ⟨hk, hst.aside hr ht foreign, called hc⟩
  | starts nobody jobs world past => exact absurd hat (nobody job)
  | exchange who time q next c job' made before answered after world past called =>
    obtain ⟨rfl, hj⟩ := made
    obtain rfl := (before job).mp hat
    have hne := ne_ensure_of_not_pushes hj hp
    refine .inl ⟨job', (after job').mpr rfl, ?_, (congrFun past key).trans hpast, ?_⟩
    · rcases answered with ⟨a, _, rfl⟩ | ⟨_, rfl⟩
      · exact (Course.pushed_note hne).trans hpushed
      · exact hpushed
    · rcases answered with ⟨a, _, rfl⟩ | ⟨ha, rfl⟩
      · rcases hphase with hk | ⟨hk, hst, hc⟩
        · exact .inl (Course.kept_note_isSome hk)
        · by_cases hq : ∃ k entry, q = .remember k entry
          · obtain ⟨k, entry, rfl⟩ := hq
            exact .inl rfl
          · have hnot : ∀ k entry, q ≠ .remember k entry := fun k entry he => hq ⟨k, entry, he⟩
            exact .inr ⟨(Course.kept_note hnot).trans hk, hst.exchange hnot world, called hc⟩
      · rcases hphase with hk | ⟨hk, hst, hc⟩
        · exact .inl hk
        · refine .inr ⟨hk, hst.exchange ?_ world, called hc⟩
          rintro k entry rfl
          cases ha
  | ends job' outcome before ended nobody world past called failed =>
    obtain rfl := (before job).mp hat
    rcases hphase with hk | ⟨_, hst, hc⟩
    · -- What was remembered is so by a sync that went well.
      have hok : outcome = some (.ok ()) := by
        rcases outcome with _ | result
        · simp [(hr.clear hat ended).2] at hk
        · rw [(hr.ends hat ended).kept hk]
      refine .inr (.inr ⟨first, hfirst, hkept, ?_, ⟨job.course, outcome⟩, [], by simp [past, hpast], ?_, hk, hpushed⟩)
      · by_contra hno
        simp only [not_or, not_exists, not_and, Option.not_isSome_iff_eq_none] at hno
        exact hahead ⟨hno.1, hkept, hno.2⟩
      · simp [Report.isOk, hok]
    · exact .inr (.inl ⟨fun entry he => hst entry (world ▸ he), fun j hj => absurd hj (nobody j), .inl (called hc)⟩)

theorem Overwritten.act (h : Overwritten u key (s.past key)) (hs : s.Staffed) (ht : s.act? settings move = some t) :
    Overwritten u key (t.past key) := by
  cases turn hs ht key with
  | aside foreign jobs past called => exact past ▸ h
  | starts nobody jobs world past => exact past ▸ h
  | exchange who time q next c job made before answered after world past called => exact past ▸ h
  | ends job outcome before ended nobody world past called failed =>
    obtain ⟨first, hat, hk, hahead, r, newer, hp, hrest⟩ := h
    exact ⟨first, hat, hk, hahead, r, ⟨job.course, outcome⟩ :: newer, by rw [past, hp]; rfl, hrest⟩

/-! ### Runs -/

/-- A mark leaves no fingerprint under its key, and the workers where they are. -/
theorem Move.Marks.stale (hm : move.Marks s key) (ht : s.act? settings move = some t) : t.Stale key := by
  intro entry he
  cases move with
  | react index =>
    obtain ⟨r, hi, rfl⟩ := Option.map_eq_some_iff.mp ht
    obtain rfl := Option.some.inj (hi.symm.trans hm)
    rw [Scene.react, Cache.markStale, SortedMap.get?_modify] at he
    obtain ⟨old, _, rfl⟩ := Option.map_eq_some_iff.mp he
    simp
  | resync =>
    obtain rfl := Option.some.inj ht
    have hget : s.resync.world.cache.get? key = _ := SortedMap.get?_mapValues s.world.cache _ key
    obtain ⟨old, _, rfl⟩ := Option.map_eq_some_iff.mp (hget.symm.trans he)
    rfl
  | _ => cases hm

/-- From a mark on, as long as no push begins, the key is yet to be pushed or the mark is overwritten. -/
theorem unserved_or_overwritten (hrun : Run settings s log t) (hs : s.Staffed) (hr : s.Regular settings)
    (hw : ∀ x ∈ log, x.1.Wants key) (hp : ∀ x ∈ log, ¬x.2.Pushes x.1 key)
    (h : s.Unserved key ∨ Overwritten u key (s.past key) ∨ ∃ first, u.At key first ∧ first.course.kept = none ∧
      ¬first.course.Bare ∧ Astride u key first s) :
    t.Unserved key ∨ Overwritten u key (t.past key) ∨ ∃ first, u.At key first ∧ first.course.kept = none ∧
      ¬first.course.Bare ∧ Astride u key first t := by
  induction hrun with
  | rest => exact h
  | move ha _ ih =>
    have hpush := hp _ (.head _)
    refine ih (hs.act ha) (hr.act ha) (fun x hx => hw x (.tail _ hx)) (fun x hx => hp x (.tail _ hx)) ?_
    rcases h with h | h | ⟨first, hat, hk, hb, h⟩
    · exact .inl (h.act hs hr (hw _ (.head _)) ha hpush)
    · exact .inr (.inl (h.act hs ha))
    · rcases h.act hat hk hb hs hr ha hpush with h | h | h
      · exact .inr (.inr ⟨first, hat, hk, hb, h⟩)
      · exact .inl h
      · exact .inr (.inl h)

/-- After a key was marked stale and called for, a push for it begins before it comes to rest, unless the sync that was
under way at the mark has overwritten the mark: that sync had pushed before, or recalled a fingerprint, and
remembered it again afterwards. -/
theorem pushed_or_overwritten (hs : s.Staffed) (hr : s.Regular settings) (ht : s.act? settings move = some t)
    (hm : move.Marks s key) (hc : t.Called key) (hrun : Run settings t log u) (hw : ∀ x ∈ log, x.1.Wants key)
    (hrest : u.AtRest key) : (∃ x ∈ log, x.2.Pushes x.1 key) ∨ Overwritten t key (u.past key) := by
  by_cases hp : ∃ x ∈ log, x.2.Pushes x.1 key
  · exact .inl hp
  have hst := hs.act ht
  have hrt := hr.act ht
  have hnone : ∀ x ∈ log, ¬x.2.Pushes x.1 key := fun x hx hpush => hp ⟨x, hx, hpush⟩
  have hstale := hm.stale ht
  have hstart : t.Unserved key ∨ Overwritten t key (t.past key) ∨ ∃ first, t.At key first ∧
      first.course.kept = none ∧ ¬first.course.Bare ∧ Astride t key first t := by
    by_cases hahead : ∃ first, t.At key first ∧ first.course.kept = none ∧ ¬first.course.Bare
    · obtain ⟨first, hat, hk, hb⟩ := hahead
      exact .inr (.inr ⟨first, hat, hk, hb, first, hat, rfl, rfl, .inr ⟨hk, hstale, hc⟩⟩)
    · refine .inl ⟨hstale, fun job hj => ?_, .inl hc⟩
      by_contra hno
      simp only [not_or, Bool.not_eq_true, Option.isSome_eq_false_iff, Option.isNone_iff_eq_none] at hno
      exact hahead ⟨job, hj, hno⟩
  have husers := hrun.staffed hst
  rcases unserved_or_overwritten hrun hst hrt hw hnone hstart with h | h | ⟨first, _, _, _, job, hat, _⟩
  · rcases h.next with hcalled | ⟨job, hat, _⟩
    · exact absurd hcalled (hrest.not_called husers)
    · exact absurd hat (hrest.nobody husers)
  · exact .inr h
  · exact absurd hat (hrest.nobody husers)

/-! ### A mark during the second sync -/

def shopSecure : Service :=
  { shop with spec := some { type := some WellKnown.typeLoadBalancer, ports := some [{ port := 443, nodePort := some 30443 }] } }

/-- A service is synced, and synced again with another port, up to where the second sync has pushed. -/
def secondPush : List Move :=
  [Move.putNode (member "n1"), .tell 0, .putService shop, .tell 0, .react 0, .get 0] ++
  List.replicate 10 (Move.exchange 0 0) ++
  [Move.finish 0 .zero .zero .zero ⟨{}, none, none⟩, .putService shopSecure, .tell 0, .react 0, .get 0] ++
  List.replicate 4 (Move.exchange 0 0)

def thirdSync : List Move :=
  [Move.react 0] ++ List.replicate 6 (Move.exchange 0 0) ++ [Move.finish 0 .zero .zero .zero ⟨{}, none, none⟩, .get 0] ++
  List.replicate 5 (Move.exchange 0 0) ++ [Move.finish 0 .zero .zero .zero ⟨{}, none, none⟩]

private theorem thirdSync_ends : ∃ before s t log u, Run {} { world := {} } before s ∧ s.act? {} .resync = some t ∧
    t.Called (.ofService shop) ∧ Run {} t log u ∧ (∀ x ∈ log, x.1.Wants (.ofService shop)) ∧ u.AtRest (.ofService shop) ∧
      (∀ x ∈ log, ¬x.2.Pushes x.1 (.ofService shop)) ∧ (u.past (.ofService shop)).head?.any Report.isOk = true := by
  have h : ((({ world := {} } : Scene).play {} secondPush).any fun y => (y.2.act? {} .resync).any fun t =>
      (t.play {} thirdSync).any fun z => Decidable.decide (.enqueue (.ofService shop) ∈ t.todo ∧
        (∀ x ∈ z.1, x.1.Wants (.ofService shop)) ∧ z.2.AtRest (.ofService shop) ∧
        (∀ x ∈ z.1, ¬x.2.Pushes x.1 (.ofService shop)) ∧
        (z.2.past (.ofService shop)).head?.any Report.isOk = true)) = true := by
    decide +kernel
  obtain ⟨⟨before, s⟩, hs, h⟩ := (Option.any_eq_true _ _).mp h
  obtain ⟨t, ht, h⟩ := (Option.any_eq_true _ _).mp h
  obtain ⟨⟨log, u⟩, hu, h⟩ := (Option.any_eq_true _ _).mp h
  obtain ⟨hcalled, hend⟩ := of_decide_eq_true h
  exact ⟨before, s, t, log, u, run_of_play hs, ht, .inr hcalled, run_of_play hu, hend⟩

/-- The key is marked stale and comes to rest after a sync that went well, and no push has begun. -/
theorem not_pushed_resync : ∃ before s t log u r past, Run {} { world := {} } before s ∧ s.act? {} .resync = some t ∧
    Move.Marks s (.ofService shop) .resync ∧ t.Called (.ofService shop) ∧ Run {} t log u ∧
      (∀ x ∈ log, x.1.Wants (.ofService shop)) ∧ u.AtRest (.ofService shop) ∧
      u.past (.ofService shop) = r :: past ∧ r.isOk = true ∧ ¬∃ x ∈ log, x.2.Pushes x.1 (.ofService shop) := by
  obtain ⟨before, s, t, log, u, hs, ht, hc, hu, hw, hrest, hp, hok⟩ := thirdSync_ends
  obtain ⟨r, hr, hok⟩ := (Option.any_eq_true _ _).mp hok
  obtain ⟨past, hpast⟩ := List.head?_eq_some_iff.mp hr
  exact ⟨before, s, t, log, u, r, past, hs, ht, trivial, hc, hu, hw, hrest, hpast, hok, fun ⟨x, hx, hx'⟩ => hp x hx hx'⟩

/-- The second sync has overwritten the mark. -/
theorem overwritten_resync : ∃ (s t : Scene) (log : _) (u : Scene), s.Staffed ∧ s.Regular {} ∧ s.act? {} .resync = some t ∧
    t.Called (.ofService shop) ∧ Run {} t log u ∧ (∀ x ∈ log, x.1.Wants (.ofService shop)) ∧
      u.AtRest (.ofService shop) ∧ Overwritten t (.ofService shop) (u.past (.ofService shop)) := by
  obtain ⟨before, s, t, log, u, hs, ht, hc, hu, hw, hrest, hp, _⟩ := thirdSync_ends
  have hstart : ({ world := {} } : Scene).Ordered {} := start_empty.ordered
  have hstaff := hs.staffed hstart.staffed
  have hreg := hs.regular start_empty.regular
  have hm : Move.Marks s (.ofService shop) .resync := trivial
  have hmark := pushed_or_overwritten hstaff hreg ht hm hc hu hw hrest
  exact ⟨s, t, log, u, hstaff, hreg, ht, hc, hu, hw, hrest, hmark.resolve_left fun ⟨x, hx, hx'⟩ => hp x hx hx'⟩

end Scene
end Simulation
end ServiceBalancer
