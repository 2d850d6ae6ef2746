import ServiceBalancer.Proofs.Interleaving.StaleMarks

/-! Services that another controller has claimed. The class of a service is looked at before its key is enqueued, never
by a sync: what is called for already, or through a version that is remembered from before, is synced as ever. From when
a key is at rest and no unclaimed version of its service is known any more, the service is left alone. -/
namespace ServiceBalancer

def Delta.subject {α : Type} : Delta α → α
  | .added o | .updated _ o | .deleted o => o

namespace Routing
variable {svc : Service} {key : ServiceKey} {r : Reaction}

/-- What is decided upon a change of a service is about the version that is told, if no one else has claimed that. -/
theorem unclaimed_of_onService {δ : Delta Service} (h : r ∈ onService δ) : (∃ e, r = .record e) ∨
    δ.subject.isUnclaimed = true ∧ (r = .enqueue (.ofService δ.subject) ∨ r = .keepDeleted δ.subject) := by
  have henqueue {svc : Service} (h : r ∈ enqueue svc) : svc.isUnclaimed = true ∧ r = .enqueue (.ofService svc) := by
    unfold enqueue at h
    split at h
    · next hu => exact ⟨hu, List.mem_singleton.mp h⟩
    · cases h
  cases δ with
  | added svc =>
    simp only [onService] at h
    split at h
    · exact .inr ((henqueue h).imp_right .inl)
    · cases h
  | updated old new =>
    simp only [onService] at h
    split at h
    · cases h
    · exact .inr ((henqueue h).imp_right .inl)
    · rcases List.mem_append.mp h with h | h
      · split at h
        · exact .inl ⟨_, List.mem_singleton.mp h⟩
        · cases h
      · exact .inr ((henqueue h).imp_right .inl)
  | deleted svc =>
    simp only [onService] at h
    split at h
    · next hc =>
      have hu : svc.isUnclaimed = true := (Bool.and_eq_true_iff.mp hc).2
      rcases List.mem_cons.mp h with rfl | h
      · exact .inr ⟨hu, .inr rfl⟩
      · exact .inr ⟨hu, .inl (List.mem_singleton.mp h)⟩
    · cases h

/-- Changed endpoints concern a service that is served. -/
theorem mem_onEndpoints (h : r ∈ onEndpoints key svc) :
    isServed svc = true ∧ (r = .markStale key ∨ r = .enqueue key) := by
  unfold onEndpoints at h
  split at h
  · next hs => exact ⟨hs, by simpa using h⟩
  · cases h

theorem not_isServed (h : svc.isUnclaimed = false) : isServed svc = false := by simp [isServed, h]

end Routing

/-- Whether a request changes the balancer of a service, its status or its label. -/
def Sync.Request.touches : Sync.Request → Bool
  | .ensure _ _ | .delete _ | .writeStatus _ _ | .setHash _ _ | .removeHash _ => true
  | _ => false

namespace Simulation
open Sync

/-- Whether a change that the router is to be told is not that of an unclaimed service with a key. -/
def Disclaims (key : ServiceKey) : News → Prop
  | .service δ => ServiceKey.ofService δ.subject = key → δ.subject.isUnclaimed = false
  | _ => True

namespace Scene
variable {settings : SyncSettings} {s t u : Scene} {key : ServiceKey} {move : Move} {log : List (Scene × Move)}

/-- Whether all versions of the service of a key that are stored, or to be told or kept by the router, are claimed by
another controller. -/
structure Withdrawn (s : Scene) (key : ServiceKey) : Prop where
  stored : ∀ slot svc, s.world.cluster.core? slot = some svc → slot = key.slot ∨ ServiceKey.ofService svc = key →
    svc.isUnclaimed = false
  news : ∀ item ∈ s.news, Disclaims key item
  todo : ∀ svc, .keepDeleted svc ∈ s.todo → ServiceKey.ofService svc ≠ key

/-- Whether a scene has nothing more to do with a key whose service is withdrawn. -/
structure Released (s : Scene) (key : ServiceKey) : Prop where
  withdrawn : s.Withdrawn key
  unknown : ¬s.queue.Knows key
  uncalled : .enqueue key ∉ s.todo
  cached : ∀ entry, s.world.cache.get? key = some entry → Routing.isServed entry.service = false

/-- Whether every version of the service of a key that a move stores is claimed by another controller. -/
def Move.Claims (key : ServiceKey) : Move → Prop
  | .putService svc => svc.info.key = key.slot ∨ ServiceKey.ofService svc = key → svc.isUnclaimed = false
  | _ => True

/-! ### What is decided -/

/-- Whether something that the router decides to do is called for by an unclaimed version of a service: by the one it is
told of, the one it remembers, or the one it reads. -/
def Warranted (s : Scene) (item : News) : Reaction → Prop
  | .enqueue key =>
    (∃ δ, item = .service δ ∧ ServiceKey.ofService δ.subject = key ∧ δ.subject.isUnclaimed = true) ∨
      (∃ entry, s.world.cache.get? key = some entry ∧ Routing.isServed entry.service = true) ∨
      ∃ svc, s.world.cluster.services.get? key.slot = some svc ∧ Routing.isServed svc = true
  | .keepDeleted svc => ∃ δ, item = .service δ ∧ δ.subject = svc ∧ svc.isUnclaimed = true
  | _ => True

private theorem fetch_cases (w : World) (key : ServiceKey) : ((w.fetch 0 key).2.cluster = w.cluster ∧
    (w.fetch 0 key).2.cache = w.cache) ∧
      ∀ svc, (w.fetch 0 key).1 = .ok (some svc) → w.cluster.services.get? key.slot = some svc := by
  unfold World.fetch
  cases World.takeFault w.faults.fetch with
  | none => exact ⟨⟨rfl, rfl⟩, fun _ h => Except.ok.inj h⟩
  | some fault => exact ⟨⟨rfl, rfl⟩, fun _ h => by cases h⟩

theorem warranted_of_decide {item : News} {r : Reaction} (h : r ∈ (s.decide item).todo) :
    r ∈ s.todo ∨ s.Warranted item r := by
  cases item with
  | service δ =>
    refine (List.mem_append.mp h).imp_right fun h => ?_
    rcases Routing.unclaimed_of_onService h with ⟨e, rfl⟩ | ⟨hu, rfl | rfl⟩
    · trivial
    · exact .inl ⟨δ, rfl, rfl, hu⟩
    · exact ⟨δ, rfl, rfl, hu⟩
  | node δ =>
    refine (List.mem_append.mp h).imp_right fun h => ?_
    obtain ⟨k, entry, rfl, hentry⟩ := Routing.mem_onNode h
    exact .inr (.inl ⟨entry, hentry⟩)
  | endpoints δ =>
    simp only [Scene.decide, decideEndpoints] at h
    split at h
    · exact .inl h
    · next k _ =>
      split at h
      · next entry he =>
        refine (List.mem_append.mp h).imp_right fun h => ?_
        obtain ⟨hserved, rfl | rfl⟩ := Routing.mem_onEndpoints h
        · trivial
        · exact .inr (.inl ⟨entry, he, hserved⟩)
      · split at h
        · next svc hok =>
          refine (List.mem_append.mp h).imp_right fun h => ?_
          obtain ⟨hserved, rfl | rfl⟩ := Routing.mem_onEndpoints h
          · trivial
          · exact .inr (.inr ⟨svc, (fetch_cases s.world k).2 svc hok, hserved⟩)
        · exact .inl h

/-! ### A service that is withdrawn -/

theorem Withdrawn.same (h : s.Withdrawn key)
    (hs : ∀ slot svc, t.world.cluster.core? slot = some svc → s.world.cluster.core? slot = some svc)
    (hn : ∀ item ∈ t.news, item ∈ s.news) (ht : ∀ r ∈ t.todo, r ∈ s.todo) : t.Withdrawn key :=
  ⟨fun slot svc hx => h.stored slot svc (hs slot svc hx), fun item hi => h.news item (hn item hi),
    fun svc hr => h.todo svc (ht _ hr)⟩

/-- With one more change to be told. -/
theorem Withdrawn.announce (h : s.Withdrawn key) {item : News} (hi : Disclaims key item) :
    ({ s with news := s.news ++ [item] } : Scene).Withdrawn key := by
  refine ⟨h.stored, fun x hx => ?_, h.todo⟩
  rcases List.mem_append.mp hx with hx | hx
  · exact h.news x hx
  · exact List.mem_singleton.mp hx ▸ hi

theorem Withdrawn.putService (h : s.Withdrawn key) {svc : Service} (hc : (Move.putService svc).Claims key) :
    (s.putService svc).Withdrawn key := by
  have hw : ({ s with world.cluster := (s.world.cluster.upsertService svc).2 } : Scene).Withdrawn key := by
    refine ⟨fun slot x hx => ?_, h.news, h.todo⟩
    dsimp only at hx
    rw [MemoryCluster.core?_upsertService] at hx
    split at hx
    · next he =>
      obtain rfl := Option.some.inj hx
      exact fun hkey => hc (hkey.imp_left he.trans)
    · exact h.stored slot x hx
  have hnew : Disclaims key (.service (.added (s.world.cluster.upsertService svc).1)) := fun hkey => hc (.inr hkey)
  apply hw.announce
  cases s.world.cluster.service? (svc.info.ns.getD "") svc.info.displayName <;> exact hnew

theorem Withdrawn.removeService (h : s.Withdrawn key) {k : ServiceKey} (ht : s.removeService k = some t) :
    t.Withdrawn key := by
  obtain ⟨svc, hsvc, rfl⟩ := Option.map_eq_some_iff.mp ht
  have hw : ({ s with world.cluster := s.world.cluster.deleteService k.ns k.name } : Scene).Withdrawn key := by
    refine h.same (fun slot x hx => ?_) (fun _ hi => hi) fun _ hr => hr
    simp only [MemoryCluster.core?, MemoryCluster.deleteService, SortedMap.get?_erase] at hx
    split at hx
    · cases hx
    · exact hx
  have hslot : s.world.cluster.services.get? k.slot = some svc := hsvc
  exact hw.announce fun hkey => h.stored k.slot svc.core (by simp [MemoryCluster.core?, hslot]) (.inr hkey)

theorem Withdrawn.tell (h : s.Withdrawn key) {index : Nat} {item : News} (hi : s.news[index]? = some item) :
    (({ s with news := s.news.eraseIdx index } : Scene).decide item).Withdrawn key := by
  obtain ⟨world, todo, he, hcluster, _⟩ := decide_frame { s with news := s.news.eraseIdx index } item
  refine ⟨?_, ?_, fun svc hr hkey => ?_⟩
  · rw [he]
    exact hcluster ▸ h.stored
  · rw [he]
    exact fun x hx => h.news x (List.mem_of_mem_eraseIdx hx)
  · rcases warranted_of_decide hr with hr | ⟨δ, rfl, rfl, hu⟩
    · exact h.todo svc hr hkey
    · cases (h.news _ (List.mem_of_getElem? hi) hkey).symm.trans hu

/-- A service is withdrawn as long as no unclaimed version of it is stored. -/
theorem Withdrawn.act (h : s.Withdrawn key) (hc : move.Claims key) (ht : s.act? settings move = some t) :
    t.Withdrawn key := by
  have less {u : Scene} (hs : u.world.cluster = s.world.cluster) (hn : u.news = s.news) (hr : ∀ r ∈ u.todo, r ∈ s.todo) :
      u.Withdrawn key := h.same (fun _ _ hx => hs ▸ hx) (fun _ hi => hn ▸ hi) hr
  cases move with
  | putService svc =>
    obtain rfl := Option.some.inj ht
    exact h.putService hc
  | removeService k => exact h.removeService ht
  | putNode node =>
    obtain rfl := Option.some.inj ht
    have hw : ({ s with world.cluster := s.world.cluster.upsertNode node } : Scene).Withdrawn key := ⟨h.stored, h.news, h.todo⟩
    exact hw.announce trivial
  | dropNode name =>
    obtain ⟨node, _, rfl⟩ := Option.map_eq_some_iff.mp ht
    have hw : ({ s with world.cluster := s.world.cluster.deleteNode name } : Scene).Withdrawn key := ⟨h.stored, h.news, h.todo⟩
    exact hw.announce trivial
  | putEndpoints δ =>
    obtain rfl := Option.some.inj ht
    exact h.announce trivial
  | tell index =>
    obtain ⟨item, hi, rfl⟩ := Option.map_eq_some_iff.mp ht
    exact h.tell hi
  | react index =>
    obtain ⟨r, _, rfl⟩ := Option.map_eq_some_iff.mp ht
    cases r <;> exact less rfl rfl fun x hx => List.mem_of_mem_eraseIdx hx
  | resync =>
    obtain rfl := Option.some.inj ht
    refine ⟨h.stored, h.news, fun svc hr => ?_⟩
    rcases List.mem_append.mp hr with hr | hr
    · exact h.todo svc hr
    · obtain ⟨_, _, hk⟩ := List.mem_map.mp hr
      cases hk
  | failStatus e =>
    obtain rfl := Option.some.inj ht
    exact h.same (fun _ _ hx => hx) (fun _ hi => hi) fun _ hr => hr
  | get who =>
    obtain ⟨_, _, _, _, rfl⟩ := get_eq_some ht
    exact less rfl rfl fun _ hr => hr
  | exchange who time =>
    obtain ⟨k, q, next, course, hj, hcase⟩ := exchange_eq_some ht
    have hsame := (s.world.answer_cluster time q).2
    rcases hcase with ⟨_, _, rfl⟩ | ⟨_, rfl⟩
    all_goals exact h.same (fun slot _ hx => (hsame slot).symm.trans hx) (fun _ hi => hi) fun _ hr => hr
  | finish who now clock errorDelay backoff =>
    obtain ⟨_, _, _, _, _, _, _, _, rfl⟩ := finish_eq_some ht
    exact less rfl rfl fun _ hr => hr
  | _ =>
    obtain rfl := Option.some.inj ht
    exact less rfl rfl fun _ hr => hr

/-- What others do to what is remembered of a service that is withdrawn: it stays the same version, or is forgotten. -/
theorem Withdrawn.cache_aside (h : s.Withdrawn key) (hr : s.Regular settings) (ht : s.act? settings move = some t)
    (hf : ∀ who time job, move = .exchange who time → s.jobs who = some job → job.key ≠ key) {entry : CacheEntry}
    (he : t.world.cache.get? key = some entry) :
    ∃ old, s.world.cache.get? key = some old ∧ entry.service = old.service := by
  rcases Scene.cache_aside hr ht hf with hc | hc | ⟨index, svc, _, hi, hkey, _⟩ | ⟨_, _, _, _, _, _, _, hc⟩
  · exact ⟨entry, hc ▸ he, rfl⟩
  · rw [hc] at he
    obtain ⟨old, ho, rfl⟩ := Option.map_eq_some_iff.mp he
    exact ⟨old, ho, rfl⟩
  · exact absurd hkey (h.todo svc (List.mem_of_getElem? hi))
  · cases hc.symm.trans he

/-! ### A key that is released -/

theorem Released.nobody (h : s.Released key) (hs : s.Staffed) {who : Nat} {job : Job} (hj : s.jobs who = some job) :
    job.key ≠ key := by
  rintro rfl
  exact h.unknown (.inr (hs.held who job hj))

theorem Released.not_warranted (h : s.Released key) {item : News} (hi : Disclaims key item) :
    ¬s.Warranted item (.enqueue key) := by
  rintro (⟨δ, rfl, hkey, hu⟩ | ⟨entry, he, hserved⟩ | ⟨svc, hsvc, hserved⟩)
  · cases (hi hkey).symm.trans hu
  · cases (h.cached entry he).symm.trans hserved
  · have hcore : s.world.cluster.core? key.slot = some svc.core := by simp [MemoryCluster.core?, hsvc]
    cases (Routing.not_isServed (h.withdrawn.stored key.slot svc.core hcore (.inl rfl))).symm.trans hserved

/-- Neither the queue nor the router comes upon the key again. -/
theorem Released.pursued_act (h : s.Released key) (hs : s.Staffed) (ht : s.act? settings move = some t) :
    ¬t.queue.Knows key ∧ .enqueue key ∉ t.todo := by
  cases move with
  | removeService k =>
    obtain ⟨_, _, rfl⟩ := Option.map_eq_some_iff.mp ht
    exact ⟨h.unknown, h.uncalled⟩
  | dropNode name =>
    obtain ⟨_, _, rfl⟩ := Option.map_eq_some_iff.mp ht
    exact ⟨h.unknown, h.uncalled⟩
  | tell index =>
    obtain ⟨item, hi, rfl⟩ := Option.map_eq_some_iff.mp ht
    obtain ⟨world, todo, he, _⟩ := decide_frame { s with news := s.news.eraseIdx index } item
    refine ⟨by rw [he]; exact h.unknown, fun hr => ?_⟩
    rcases warranted_of_decide hr with hr | hr
    · exact h.uncalled hr
    · exact h.not_warranted (h.withdrawn.news item (List.mem_of_getElem? hi)) hr
  | react index =>
    obtain ⟨r, hi, rfl⟩ := Option.map_eq_some_iff.mp ht
    have htodo : .enqueue key ∉ s.todo.eraseIdx index := fun hr => h.uncalled (List.mem_of_mem_eraseIdx hr)
    cases r with
    | enqueue k =>
      refine ⟨fun hk => ?_, htodo⟩
      rcases hk.of_add with hk | rfl
      · exact h.unknown hk
      · exact h.uncalled (List.mem_of_getElem? hi)
    | _ => exact ⟨h.unknown, htodo⟩
  | resync =>
    obtain rfl := Option.some.inj ht
    refine ⟨h.unknown, fun hr => ?_⟩
    rcases List.mem_append.mp hr with hr | hr
    · exact h.uncalled hr
    · obtain ⟨k, hk, he⟩ := List.mem_map.mp hr
      obtain ⟨entry, hentry, hserved⟩ := Routing.mem_servedKeys.mp hk
      obtain rfl := Reaction.enqueue.inj he
      cases (h.cached entry hentry).symm.trans hserved
  | fire k deadline =>
    obtain rfl := Option.some.inj ht
    exact ⟨fun hk => h.unknown hk.of_fire, h.uncalled⟩
  | get who =>
    obtain ⟨k, queue, _, hq, rfl⟩ := get_eq_some ht
    exact ⟨fun hk => h.unknown (hs.orderly.knows_take hq hk), h.uncalled⟩
  | exchange who time =>
    obtain ⟨_, _, _, _, _, hcase⟩ := exchange_eq_some ht
    rcases hcase with ⟨_, _, rfl⟩ | ⟨_, rfl⟩ <;> exact ⟨h.unknown, h.uncalled⟩
  | finish who now clock errorDelay backoff =>
    obtain ⟨job, _, added, _, hj, _, hadd, _, rfl⟩ := finish_eq_some ht
    refine ⟨fun hk => ?_, h.uncalled⟩
    rcases hadd with rfl | ⟨delay, rfl⟩
    · exact h.unknown hk.of_release
    · rcases hk.of_release.of_addAfter with hk | hk
      · exact h.unknown hk
      · exact h.nobody hs hj hk.symm
  | _ =>
    obtain rfl := Option.some.inj ht
    exact ⟨h.unknown, h.uncalled⟩

theorem Released.act (h : s.Released key) (hs : s.Staffed) (hr : s.Regular settings) (hc : move.Claims key)
    (ht : s.act? settings move = some t) : t.Released key := by
  obtain ⟨hunknown, huncalled⟩ := h.pursued_act hs ht
  refine ⟨h.withdrawn.act hc ht, hunknown, huncalled, fun entry he => ?_⟩
  obtain ⟨old, ho, hsame⟩ := h.withdrawn.cache_aside hr ht (fun _ _ _ _ hj => h.nobody hs hj) he
  rw [hsame]
  exact h.cached old ho

/-- From when a scene has nothing more to do with a key, and as long as every version of its service that comes is
claimed by another controller, no sync of the key puts any request, whatever else happens: no balancer is ensured or
deleted for it, and neither its status nor its label is written. -/
theorem left_alone (hs : s.Staffed) (hr : s.Regular settings) (h : s.Released key) (hrun : Run settings s log u)
    (hc : ∀ x ∈ log, x.2.Claims key) : (∀ x ∈ log, ¬x.2.Asks x.1 fun k _ => k = key) ∧ u.Released key := by
  induction hrun with
  | rest => exact ⟨by simp, h⟩
  | @move a b c m log ha _ ih =>
    obtain ⟨hrest, hend⟩ := ih (hs.act ha) (hr.act ha) (h.act hs hr (hc _ (.head _)) ha) fun x hx => hc x (.tail _ hx)
    refine ⟨fun x hx => ?_, hend⟩
    rcases List.mem_cons.mp hx with rfl | hx
    · intro hasks
      unfold Move.Asks at hasks
      split at hasks
      · split at hasks
        · next hj => exact h.nobody hs hj hasks
        · exact hasks
      · exact hasks
    · exact hrest x hx

/-! ### The last sync -/

def Recalls (s : Scene) (key : ServiceKey) (entry : CacheEntry) : Prop :=
  ∀ known, s.world.cache.get? key = some known → known.service = entry.service

/-- Whether what is remembered of a withdrawn service is what its sync has put there last, be it under way or over. -/
structure Noted (s : Scene) (key : ServiceKey) (t : Scene) : Prop where
  underWay : ∀ job, t.At key job → ∀ entry, job.course.kept = some entry → t.Recalls key entry
  finished : (∀ job, t.At key job → job.course.kept = none) → (s.past key).length < (t.past key).length →
    ∀ r ∈ (t.past key).head?, ∀ entry, r.course.kept = some entry → t.Recalls key entry

theorem noted_start (h : ∀ job, s.At key job → job.course.kept = none) : Noted s key s where
  underWay job hj entry hk := by cases (h job hj).symm.trans hk
  finished _ hlength := absurd hlength (Nat.lt_irrefl _)

theorem Recalls.aside {entry : CacheEntry} (h : s.Recalls key entry) (hw : s.Withdrawn key) (hr : s.Regular settings)
    (ht : s.act? settings move = some t)
    (foreign : ∀ who time job, move = .exchange who time → s.jobs who = some job → job.key ≠ key) :
    t.Recalls key entry := by
  intro known hknown
  obtain ⟨old, ho, hsame⟩ := hw.cache_aside hr ht foreign hknown
  exact hsame.trans (h old ho)

/-- Unless a sync remembers a version, what it asks leaves what is remembered, or has it forgotten. -/
theorem Recalls.exchange {entry : CacheEntry} (h : s.Recalls key entry) {time : Nat} {q : Request}
    (world : t.world = (s.world.answer time q).2) (hq : ∀ k e, q ≠ .remember k e) : t.Recalls key entry := by
  intro known hknown
  rw [world, World.answer_cache] at hknown
  cases q with
  | remember k e => exact absurd rfl (hq k e)
  | forget k =>
    rw [World.cacheAfter, SortedMap.get?_erase] at hknown
    split at hknown
    · cases hknown
    · exact h known hknown
  | _ => exact h known hknown

theorem Noted.act (h : Noted u key s) (hw : s.Withdrawn key) (hs : s.Staffed) (hr : s.Regular settings)
    (ht : s.act? settings move = some t) : Noted u key t := by
  cases turn hs ht key with
  | aside foreign jobs past called =>
    refine ⟨fun job hj entry hk => (h.underWay job ((jobs job).mp hj) entry hk).aside hw hr ht foreign, ?_⟩
    rw [past]
    intro hnone hl r hp entry hk
    exact (h.finished (fun job hj => hnone job ((jobs job).mpr hj)) hl r hp entry hk).aside hw hr ht foreign
  | starts nobody jobs world past =>
    refine ⟨fun job hj entry hk => ?_, ?_⟩
    · obtain rfl := (jobs job).mp hj
      cases hk
    · simp only [Recalls, past, world]
      exact fun _ => h.finished fun job hj => absurd hj (nobody job)
  | exchange who time q next c job made before answered after world past called =>
    have hat := (before _).mpr rfl
    have hq := hr.allows hat
    by_cases hremember : ∃ k entry, q = .remember k entry
    · obtain ⟨k, entry, rfl⟩ := hremember
      obtain rfl : k = key := hq.1
      obtain rfl : job = ⟨k, some (next ()), c.note (.remember k entry) ()⟩ := by
        rcases answered with ⟨⟨⟩, _, hjob⟩ | ⟨hnone, _⟩
        · exact hjob
        · cases hnone
      refine ⟨fun j hj x hk known hknown => ?_, fun hnone => ?_⟩
      · obtain rfl := (after j).mp hj
        obtain rfl : entry = x := Option.some.inj hk
        rw [world, World.answer_cache, World.cacheAfter, SortedMap.get?_insert, if_pos rfl] at hknown
        rw [← Option.some.inj hknown]
      · cases hnone _ ((after _).mpr rfl)
    · have hother : ∀ k e, q ≠ .remember k e := fun k e he => hremember ⟨k, e, he⟩
      have hkept : job.course.kept = c.kept := by
        rcases answered with ⟨a, _, rfl⟩ | ⟨_, rfl⟩
        · exact Course.kept_note hother
        · rfl
      refine ⟨fun j hj entry hk => ?_, ?_⟩
      · obtain rfl := (after j).mp hj
        exact (h.underWay _ hat entry (hkept ▸ hk)).exchange world hother
      · rw [past]
        refine fun hnone hl r hp entry hk => (h.finished (fun j hj => ?_) hl r hp entry hk).exchange world hother
        obtain rfl := (before j).mp hj
        exact hkept ▸ hnone job ((after job).mpr rfl)
  | ends job outcome before ended nobody world past called failed =>
    refine ⟨fun j hj => absurd hj (nobody j), fun _ _ r hp entry hk known hknown => ?_⟩
    rw [past] at hp
    obtain rfl : (⟨job.course, outcome⟩ : Report) = r := Option.some.inj hp
    exact h.underWay job ((before job).mpr rfl) entry hk known (world ▸ hknown)

theorem noted_run (h : Noted u key s) (hw : s.Withdrawn key) (hs : s.Staffed) (hr : s.Regular settings)
    (hrun : Run settings s log t) (hc : ∀ x ∈ log, x.2.Claims key) : t.Withdrawn key ∧ Noted u key t := by
  induction hrun with
  | rest => exact ⟨hw, h⟩
  | move ha _ ih =>
    have hclaims := hc _ (.head _)
    exact ih (h.act hw hs hr ha) (hw.act hclaims ha) (hs.act ha) (hr.act ha) fun x hx => hc x (.tail _ hx)

/-- One sync that remembers a version which is not served is enough: when the key of a withdrawn service comes to rest
after it, the scene has nothing more to do with the key. -/
theorem released_after_sync (hs : s.Staffed) (hr : s.Regular settings) (hw : s.Withdrawn key)
    (hfirst : ∀ job, s.At key job → job.course.kept = none) (hrun : Run settings s log u)
    (hc : ∀ x ∈ log, x.2.Claims key) (hrest : u.AtRest key) (hl : (s.past key).length < (u.past key).length) {r : Report}
    (hp : (u.past key).head? = some r) {entry : CacheEntry} (hk : r.course.kept = some entry)
    (hserved : Routing.isServed entry.service = false) : u.Released key := by
  have hstaff := hrun.staffed hs
  obtain ⟨hwithdrawn, hnoted⟩ := noted_run (noted_start hfirst) hw hs hr hrun hc
  refine ⟨hwithdrawn, ?_, fun htodo => hrest.not_called hstaff (.inr htodo), fun known hknown => ?_⟩
  · rintro (hdue | hheld)
    · exact hrest.not_called hstaff (.inl hdue)
    · exact hrest.2.1 hheld
  · rw [hnoted.finished (fun job hj => absurd hj (hrest.nobody hstaff)) hl r hp entry hk known hknown]
    exact hserved

/-! ### A service that is claimed before it is tried again -/

instance (key : ServiceKey) : DecidablePred (Move.Claims key)
  | .putService svc =>
    inferInstanceAs (Decidable (svc.info.key = key.slot ∨ ServiceKey.ofService svc = key → svc.isUnclaimed = false))
  | .removeService _ | .putNode _ | .dropNode _ | .putEndpoints _ | .tell _ | .react _ | .resync | .failCloud _
  | .failStatus _ | .failCluster _ _ | .fire _ _ | .get _ | .exchange _ _ | .finish _ _ _ _ _ => .isTrue trivial

theorem withdrawn_of_claimed (hs : ∀ svc ∈ s.world.cluster.services.values, svc.isUnclaimed = false)
    (hn : s.news.isEmpty = true) (ht : s.todo = []) : s.Withdrawn key where
  stored slot svc hx _ := by
    obtain ⟨old, ho, rfl⟩ := Option.map_eq_some_iff.mp hx
    exact hs old (SortedMap.mem_values.mpr ⟨slot, ho⟩)
  news := by simp [List.isEmpty_iff.mp hn]
  todo := by simp [ht]

def shopElsewhere : Service :=
  { shop with info := { shop.info with annotations := some (.ofList [(WellKnown.serviceClass, "other")]) } }

def claimedMeanwhile : List Move :=
  [Move.putNode (member "n1"), .tell 0, .failCloud "InternalError", .putService shop, .tell 0, .react 0, .get 0] ++
  List.replicate 8 (Move.exchange 0 0) ++
  [Move.finish 0 .zero .zero (.ofSeconds 5) ⟨{}, none, none⟩, .putService shopElsewhere, .tell 0]

def triedAgain : List Move :=
  [Move.fire (.ofService shop) (.ofSeconds 5), .get 0] ++ List.replicate 10 (Move.exchange 0 0) ++
  [Move.finish 0 .zero .zero .zero ⟨{}, none, none⟩]

def stir : List Move := [.putNode (member "n2"), .tell 0, .dropNode "n1", .tell 0, .resync]

private theorem retry_runs : ∃ before s log u log' v, Run {} { world := {} } before s ∧ Run {} s log u ∧
    Run {} u log' v ∧ (∀ svc ∈ s.world.cluster.services.values, svc.isUnclaimed = false) ∧ s.news.isEmpty = true ∧
    s.todo = [] ∧ .ofService shop ∉ s.queue.processing ∧ (∀ x ∈ log, x.2.Claims (.ofService shop) ∧
      (x.1.world.cluster.service? "default" "shop").any (fun svc => !svc.isUnclaimed) = true) ∧
    (log.filter fun x => x.2.Asks x.1 fun k q => k = .ofService shop ∧ q.touches).length = 3 ∧
    u.AtRest (.ofService shop) ∧ (s.past (.ofService shop)).length < (u.past (.ofService shop)).length ∧
    (u.past (.ofService shop)).head?.any (fun r => r.course.kept.any fun entry => !Routing.isServed entry.service) = true ∧
    (∀ x ∈ log', x.2.Claims (.ofService shop)) ∧ log'.length = 5 := by
  have h : ((({ world := {} } : Scene).play {} claimedMeanwhile).any fun x => (x.2.play {} triedAgain).any fun y =>
      (y.2.play {} stir).any fun z => Decidable.decide (
        (∀ svc ∈ x.2.world.cluster.services.values, svc.isUnclaimed = false) ∧ x.2.news.isEmpty = true ∧
        x.2.todo = [] ∧ .ofService shop ∉ x.2.queue.processing ∧ (∀ x ∈ y.1, x.2.Claims (.ofService shop) ∧
          (x.1.world.cluster.service? "default" "shop").any (fun svc => !svc.isUnclaimed) = true) ∧
        (y.1.filter fun x => x.2.Asks x.1 fun k q => k = .ofService shop ∧ q.touches).length = 3 ∧
        y.2.AtRest (.ofService shop) ∧ (x.2.past (.ofService shop)).length < (y.2.past (.ofService shop)).length ∧
        (y.2.past (.ofService shop)).head?.any
          (fun r => r.course.kept.any fun entry => !Routing.isServed entry.service) = true ∧
        (∀ x ∈ z.1, x.2.Claims (.ofService shop)) ∧ z.1.length = 5)) = true := by
    decide +kernel
  obtain ⟨⟨before, s⟩, hs, h⟩ := (Option.any_eq_true _ _).mp h
  obtain ⟨⟨log, u⟩, hu, h⟩ := (Option.any_eq_true _ _).mp h
  obtain ⟨⟨log', v⟩, hv, h⟩ := (Option.any_eq_true _ _).mp h
  exact ⟨before, s, log, u, log', v, run_of_play hs, run_of_play hu, run_of_play hv, of_decide_eq_true h⟩

/-- While the service is claimed by another controller all the time, its sync has a balancer made for it, and writes its
label and its status. -/
theorem touched_though_claimed : ∃ before s log u, Run {} { world := {} } before s ∧ Run {} s log u ∧
    (∀ x ∈ log, (x.1.world.cluster.service? "default" "shop").any (fun svc => !svc.isUnclaimed) = true) ∧
    (log.filter fun x => x.2.Asks x.1 fun k q => k = .ofService shop ∧ q.touches).length = 3 := by
  obtain ⟨before, s, log, u, _, _, hs, hu, _, _, _, _, _, hlog, htouched, _⟩ := retry_runs
  exact ⟨before, s, log, u, hs, hu, fun x hx => (hlog x hx).2, htouched⟩

/-- When that sync is over, the changes that come have the service left alone. -/
theorem left_alone_after_retry : ∃ s log t, s.Staffed ∧ s.Regular {} ∧ s.Released (.ofService shop) ∧ Run {} s log t ∧
    log.length = 5 ∧ (∀ x ∈ log, x.2.Claims (.ofService shop)) ∧ ∀ x ∈ log, ¬x.2.Asks x.1 fun k _ => k = .ofService shop := by
  obtain ⟨before, s, log, u, log', v, hs, hu, hv, hclaimed, hnews, htodo, hfree, hlog, _, hrest, hl, hhead, hlog', hlength⟩ :=
    retry_runs
  have hstart : ({ world := {} } : Scene).Ordered {} := start_empty.ordered
  have hstaff := hs.staffed hstart.staffed
  have hreg := hs.regular start_empty.regular
  obtain ⟨r, hr, hkept⟩ := (Option.any_eq_true _ _).mp hhead
  obtain ⟨entry, hentry, hserved⟩ := (Option.any_eq_true _ _).mp hkept
  have hreleased : u.Released (.ofService shop) :=
    released_after_sync hstaff hreg (withdrawn_of_claimed hclaimed hnews htodo) (fun _ hj => absurd hj (hstaff.nobody hfree))
      hu (fun x hx => (hlog x hx).1) hrest hl hr hentry (by simpa using hserved)
  have hstaff' := hu.staffed hstaff
  have hreg' := hu.regular hreg
  obtain ⟨halone, _⟩ := left_alone hstaff' hreg' hreleased hv hlog'
  exact ⟨u, log', v, hstaff', hreg', hreleased, hv, hlength, hlog', halone⟩

end Scene
end Simulation
end ServiceBalancer
