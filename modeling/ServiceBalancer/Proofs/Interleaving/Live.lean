import ServiceBalancer.Proofs.Interleaving.Scene

/-! Services that the cluster has, and what it means for what is queued, decided on, remembered or synced to be
of such services alone. A sync that meets only a live service goes on so. -/
namespace ServiceBalancer.Simulation
open Sync

def Live (c : MemoryCluster) (svc : Service) : Prop :=
  (ServiceKey.ofService svc).Proper ∧ c.core? (ServiceKey.ofService svc).slot = some svc.core

instance (c : MemoryCluster) (svc : Service) : Decidable (Live c svc) := inferInstanceAs (Decidable (_ ∧ _))

def Stored (c : MemoryCluster) : Prop :=
  ∀ slot svc, c.core? slot = some svc → Live c svc ∧ slot = (ServiceKey.ofService svc).slot

variable {settings : SyncSettings} {c c' : MemoryCluster} {a b svc : Service} {key : ServiceKey}

theorem Live.proper (h : Live c svc) : (ServiceKey.ofService svc).Proper := h.1

theorem Live.stored (h : Live c svc) : c.core? (ServiceKey.ofService svc).slot = some svc.core := h.2

theorem Live.core_eq (ha : Live c a) (hb : Live c b) (h : ServiceKey.ofService a = .ofService b) : a.core = b.core :=
  Option.some.inj (ha.stored.symm.trans (h ▸ hb.stored))

theorem Live.of_core (ha : Live c a) (h : b.core = a.core) : Live c b := by
  have hk : ServiceKey.ofService b = .ofService a := Service.eq_of_core ServiceKey.ofService (fun _ => rfl) h
  exact ⟨hk ▸ ha.proper, by rw [hk, h]; exact ha.stored⟩

theorem Live.same (hs : World.SameCores c c') : Live c' svc ↔ Live c svc :=
  ⟨fun h => ⟨h.proper, (hs.2 _).symm.trans h.stored⟩, fun h => ⟨h.proper, (hs.2 _).trans h.stored⟩⟩

theorem Stored.same (h : Stored c) (hs : World.SameCores c c') : Stored c' := fun slot svc hc =>
  have ⟨hl, he⟩ := h slot svc ((hs.2 slot).symm.trans hc)
  ⟨(Live.same hs).mpr hl, he⟩

/-- What the cluster gives for the key of a service is a version of it. -/
theorem Stored.service? (h : Stored c) (hk : key.Proper) (hs : c.service? key.ns key.name = some svc) :
    Live c svc ∧ ServiceKey.ofService svc = key := by
  have hslot : c.services.get? key.slot = some svc := hs
  obtain ⟨hl, he⟩ := h key.slot svc.core (by simp [MemoryCluster.core?, hslot])
  have hl : Live c svc := hl.of_core rfl
  exact ⟨hl, (hk.slot_injective hl.proper he).symm⟩

theorem Live.service? (h : Live c svc) :
    ∃ found, c.service? (ServiceKey.ofService svc).ns (ServiceKey.ofService svc).name = some found := by
  obtain ⟨found, hf, _⟩ := Option.map_eq_some_iff.mp h.stored
  exact ⟨found, hf⟩

/-! ### What is known of live services -/

variable {live live' : Service → Prop}

def Announced (live : Service → Prop) (key : ServiceKey) : Prop := ∃ svc, live svc ∧ ServiceKey.ofService svc = key

structure Tracked (live : Service → Prop) (key : ServiceKey) (entry : CacheEntry) : Prop where
  live : live entry.service
  key : ServiceKey.ofService entry.service = key
  uid : entry.uid = entry.service.info.uid

/-- Whether a sync of a key has met its live service only. What it deletes is the balancer of a service
that wants none. -/
structure Traced (live : Service → Prop) (key : ServiceKey) (c : Course) : Prop where
  found : ∀ found, c.found = some found → ∃ svc, found = some svc ∧ live svc ∧ ServiceKey.ofService svc = key
  recalled : ∀ entry, c.recalled = some (some entry) → Tracked live key entry
  owed : ∀ svc, c.owed = some svc → ServiceKey.ofService svc = key
  wiped : c.owed.isSome ∨ c.forgot = true → ∃ svc, c.found = some (some svc) ∧ svc.needsBalancer = false
  read : c.nodes.isSome → c.recalled.isSome

theorem traced_new : Traced live key {} where
  found := fun _ h => by cases h
  recalled := fun _ h => by cases h
  owed := fun _ h => by cases h
  wiped := by simp
  read := fun h => by cases h

structure Conducted (settings : SyncSettings) (live : Service → Prop) (job : Job) : Prop where
  obeys : match job.rest with
    | some rest => Program.Obeys (protocol settings job.key) (Course.Ends settings) job.course rest
    | none => job.course.owed = none
  traced : Traced live job.key job.course

def Credible (live : Service → Prop) : News → Prop
  | .service (.added svc) | .service (.updated _ svc) => live svc
  | .node _ => True
  | _ => False

def Sensible (live : Service → Prop) : Reaction → Prop
  | .enqueue key => Announced live key
  | .record _ => True
  | _ => False

section Mono
variable (hl : ∀ svc, live svc → live' svc)
include hl

theorem Announced.mono (h : Announced live key) : Announced live' key := by
  obtain ⟨svc, hs, hk⟩ := h
  exact ⟨svc, hl svc hs, hk⟩

theorem Tracked.mono {entry : CacheEntry} (h : Tracked live key entry) : Tracked live' key entry :=
  ⟨hl _ h.live, h.key, h.uid⟩

theorem Traced.mono {c : Course} (h : Traced live key c) : Traced live' key c where
  found x hx := by
    obtain ⟨svc, he, hs, hk⟩ := h.found x hx
    exact ⟨svc, he, hl svc hs, hk⟩
  recalled entry he := (h.recalled entry he).mono hl
  owed := h.owed
  wiped := h.wiped
  read := h.read

theorem Conducted.mono {job : Job} (h : Conducted settings live job) : Conducted settings live' job :=
  ⟨h.obeys, h.traced.mono hl⟩

theorem Credible.mono {item : News} (h : Credible live item) : Credible live' item := by
  unfold Credible at h ⊢
  split at h
  · exact hl _ h
  · exact hl _ h
  · trivial
  · cases h

theorem Sensible.mono {r : Reaction} (h : Sensible live r) : Sensible live' r := by
  cases r with
  | enqueue key => exact Announced.mono hl h
  | record e => trivial
  | keepDeleted svc => cases h
  | markStale key => cases h

end Mono

/-! ### Exchanges -/

def Remembered (live : Service → Prop) (cache : Cache) : Prop :=
  ∀ key entry, cache.get? key = some entry → Tracked live key entry

section Exchange
variable {time : Nat} {q : Request} {w : World} {course : Course} {job : Job}

theorem Traced.of_found (h : Traced live key course) (hf : course.found = some (some svc)) :
    live svc ∧ ServiceKey.ofService svc = key := by
  obtain ⟨_, he, hs⟩ := h.found _ hf
  exact Option.some.inj he ▸ hs

/-- A balancer is deleted only for a service that wants none: what is remembered of a live service has its UID. -/
theorem Traced.mayDelete (h : Traced (Live c) key course) (hd : course.MayDelete svc) :
    course.found = some (some svc) ∧ svc.needsBalancer = false := by
  rcases hd with ⟨hs, hn | ⟨entry, he, hne⟩⟩ | ⟨hf, _⟩
  · exact ⟨hs.2.1, hn⟩
  · obtain ⟨hl, hk⟩ := h.of_found hs.2.1
    have ht := h.recalled entry he
    have hcore := ht.live.core_eq hl (ht.key.trans hk.symm)
    refine absurd ?_ hne
    rw [ht.uid]
    exact Service.eq_of_core (·.info.uid) (fun _ => rfl) hcore
  · obtain ⟨_, hfound, _⟩ := h.found _ hf
    cases hfound

/-- What a sync forgets is the key it is about, which wants no balancer then. -/
theorem Traced.forgets {other : ServiceKey} (h : Traced live key course)
    (hq : course.Allows settings key (.forget other)) :
    other = key ∧ ∃ svc, course.found = some (some svc) ∧ svc.needsBalancer = false := by
  obtain ⟨_, _, _, ⟨svc, ho, rfl⟩ | ⟨_, rfl, svc, hs, hn⟩⟩ := hq
  · exact ⟨h.owed svc ho, h.wiped (.inl (by simp [ho]))⟩
  · exact ⟨rfl, svc, hs.2.1, hn⟩

/-- What a sync remembers is the service it has found, under its key. -/
theorem Traced.remembers {entry : CacheEntry} {other : ServiceKey} (h : Traced live key course)
    (hq : course.Allows settings key (.remember other entry)) : other = key ∧ Tracked live key entry := by
  obtain ⟨rfl, _, svc, nodes, status, he, rfl⟩ := hq
  obtain ⟨hl, hk⟩ := h.of_found he.about.2.1
  exact ⟨rfl, hl, hk, rfl⟩

/-- A request changes what is remembered under the key of its sync alone. -/
theorem Traced.cacheAfter_other (h : Traced live key course) (hq : course.Allows settings key q) (cache : Cache)
    {other : ServiceKey} (ho : other ≠ key) : (World.cacheAfter cache q).get? other = cache.get? other := by
  cases q with
  | remember k entry =>
    obtain rfl := (h.remembers hq).1
    simp [World.cacheAfter, ho.symm]
  | forget k =>
    obtain rfl := (h.forgets hq).1
    simp [World.cacheAfter, ho.symm]
  | _ => rfl

theorem Remembered.exchange {cache : Cache} (hc : Remembered live cache) (h : Traced live key course)
    (hq : course.Allows settings key q) : Remembered live (World.cacheAfter cache q) := by
  intro k entry he
  by_cases hk : k = key
  · subst hk
    cases q with
    | remember other new =>
      obtain ⟨rfl, ht⟩ := h.remembers hq
      simp only [World.cacheAfter, SortedMap.get?_insert, if_true] at he
      exact Option.some.inj he ▸ ht
    | forget other =>
      obtain ⟨rfl, _⟩ := h.forgets hq
      simp [World.cacheAfter] at he
    | _ => exact hc k entry he
  · rw [h.cacheAfter_other hq cache hk] at he
    exact hc k entry he

/-- A sync of a live service goes on to meet that service only. -/
theorem Traced.exchange {a : Answer q} (h : Traced (Live w.cluster) key course) (hs : Stored w.cluster)
    (hk : Announced (Live w.cluster) key) (hc : Remembered (Live w.cluster) w.cache)
    (hq : course.Allows settings key q) (ha : (w.answer time q).1 = some a) :
    Traced (Live w.cluster) key (course.note q a) := by
  cases q with
  | «recall» k =>
    obtain ⟨rfl, rfl⟩ := hq
    obtain rfl := Option.some.inj ha
    exact ⟨h.found, fun entry he => hc k entry (Option.some.inj he), h.owed, h.wiped, fun _ => rfl⟩
  | service k =>
    obtain ⟨rfl, entry, rfl⟩ := hq
    rcases a with e | found
    · exact h
    · obtain rfl := World.answer_service ha
      refine ⟨?_, h.recalled, h.owed, ?_, h.read⟩
      · rintro _ ⟨⟩
        obtain ⟨svc, hl, rfl⟩ := hk
        obtain ⟨found, hf⟩ := hl.service?
        exact ⟨found, hf, hs.service? hl.proper hf⟩
      · rintro (⟨⟨⟩⟩ | ⟨⟨⟩⟩)
  | nodes =>
    obtain ⟨_, svc, hs, _⟩ := hq
    cases a with
    | error e => exact h
    | ok nodes => exact ⟨h.found, h.recalled, h.owed, h.wiped, fun _ => hs.1⟩
  | ensure svc nodes => cases a <;> exact ⟨h.found, h.recalled, h.owed, h.wiped, h.read⟩
  | delete svc =>
    cases a with
    | error e => exact h
    | ok _ =>
      have hd := h.mayDelete hq.2
      refine ⟨h.found, h.recalled, ?_, fun _ => ⟨svc, hd⟩, h.read⟩
      rintro _ ⟨⟩
      exact (h.of_found hd.1).2
  | forget k => exact ⟨h.found, h.recalled, (fun _ h => by cases h), fun _ => (h.forgets hq).2, h.read⟩
  | remember k entry => exact ⟨h.found, h.recalled, h.owed, h.wiped, h.read⟩
  | _ => exact h

end Exchange

end ServiceBalancer.Simulation
