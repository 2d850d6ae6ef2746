import ServiceBalancer.Proofs.Interleaving.Order

/-! The attention that one service gets in a quiet run. As long as a change of the nodes is not known to the
service's latest sync, another sync of it is upcoming, unless that sync is the first. -/
namespace ServiceBalancer

/-- What a service keeps through all versions with its core. -/
def Service.identity (svc : Service) : Identity :=
  ⟨.ofService svc, svc.info.uid, svc.info.annotationMap.get? WellKnown.loadBalancerId⟩

namespace Simulation
open Sync

theorem Live.fits {c : MemoryCluster} {own : Service} (h : Live c own) : own.identity.Fits own :=
  ⟨rfl, h.proper.slot_eq, rfl, rfl⟩

/-- What a sync leaves that has ended is backed, and if it went well, rested. -/
theorem Conducted.reported {settings : SyncSettings} {live : Service → Prop} {job : Job} {outcome : SyncOutcome}
    {i : Identity} {past : List Report} {w : World} (hc : Conducted settings live job)
    (hout : job.outcome? = some outcome) (hb : Backing settings i past job.course w) :
    Backing settings i (⟨job.course, outcome⟩ :: past) {} w ∧
      ((Report.mk job.course outcome).isOk = true → job.course.Ends settings (.ok ())) := by
  obtain ⟨key, rest, course⟩ := job
  have hobeys := hc.obeys
  rcases rest with _ | ⟨result⟩ | ⟨q, next⟩
  · obtain rfl := Option.some.inj hout
    exact ⟨hb.fails hobeys rfl, fun h => by cases h⟩
  · obtain rfl := Option.some.inj hout
    refine ⟨hb.ends hobeys, fun hok => ?_⟩
    obtain rfl := Option.some.inj ((Report.mk course (some result)).outcome_eq hok)
    exact hobeys
  · cases hout

namespace Scene

def Apart (own : Service) (s : Scene) : Prop :=
  ∀ other ∈ s.world.cluster.services.values, ServiceKey.ofService other ≠ .ofService own →
    ∀ b ∈ (s.world.cloud.find? own).join, s.world.cloud.find? other ≠ some (some b)

instance (own : Service) (s : Scene) : Decidable (s.Apart own) := inferInstanceAs (Decidable (∀ _ ∈ _, _))

/-- The scenes of a quiet run in which a service has its balancer for itself. -/
inductive Reachable (settings : SyncSettings) (own : Service) : Scene → Prop where
  | start {s} : s.Start → Reachable settings own s
  | next {s t move} : Reachable settings own s → move.Keeps s → s.act? settings move = some t → t.Apart own →
    Reachable settings own t

def AtWork (s : Scene) (key : ServiceKey) (c : Course) : Prop :=
  ∃ who job, s.jobs who = some job ∧ job.key = key ∧ job.course = c

def Idle (s : Scene) (key : ServiceKey) : Prop := ∀ who job, s.jobs who = some job → job.key ≠ key

def Upcoming (s : Scene) (key : ServiceKey) : Prop :=
  s.queue.Due key ∨ .enqueue key ∈ s.todo ∨ ∃ δ, .node δ ∈ s.news ∧ Routing.nodeMatters δ = true

/-- Whether a sync is abreast of the nodes, unless another is upcoming. The first sync of a service need not be:
the router does not know the service yet. -/
def Covered (s : Scene) (key : ServiceKey) (c : Course) : Prop :=
  c.nodes = none ∨ c.nodes = some s.world.cluster.nodes.values ∨ c.recalled = some none ∨ s.Upcoming key

/-- Whether a sync is covered, and the service remembered if it was at the start of the sync. -/
structure Followed (s : Scene) (key : ServiceKey) (c : Course) : Prop where
  covered : s.Covered key c
  remembered : ∀ entry, c.recalled = some (some entry) → (s.world.cache.get? key).isSome

structure Rested (settings : SyncSettings) (s : Scene) (key : ServiceKey) (c : Course) : Prop where
  ends : c.Ends settings (.ok ())
  traced : Traced s.Live key c
  kept : ∀ entry, c.kept = some entry → s.world.cache.get? key = some entry
  followed : s.Followed key c

structure Attended (settings : SyncSettings) (own : Service) (s : Scene) : Prop where
  atWork : ∀ c, s.AtWork (.ofService own) c →
    Backing settings own.identity (s.past (.ofService own)) c s.world ∧ s.Followed (.ofService own) c
  idle : s.Idle (.ofService own) → Backing settings own.identity (s.past (.ofService own)) {} s.world ∧
    ∀ r past, s.past (.ofService own) = r :: past → r.isOk = true → s.Rested settings (.ofService own) r.course

variable {settings : SyncSettings} {own svc : Service} {s t : Scene} {key : ServiceKey}

theorem Reachable.ordered (h : Reachable settings own s) : s.Ordered settings := by
  induction h with
  | start hs => exact hs.ordered
  | next _ hk ht _ ih => exact ih.act hk ht

theorem Reachable.apart (h : Reachable settings own s) : s.Apart own := by
  cases h with
  | start hs =>
    intro other ho
    simp [hs.services, SortedMap.values, EmptyCollection.emptyCollection, SortedMap.empty] at ho
  | next _ _ _ ha => exact ha

/-! ### What others do -/

/-- No other live service finds the balancer, whichever version of it is asked for. -/
theorem Apart.find?_ne (h : s.Apart own) (hs : s.Live svc) (hk : ServiceKey.ofService svc ≠ .ofService own)
    {b : Balancer} (hb : s.world.cloud.find? own = some (some b)) : s.world.cloud.find? svc ≠ some (some b) := by
  obtain ⟨other, ho, hcore⟩ := Option.map_eq_some_iff.mp hs.stored
  have hkey : ServiceKey.ofService other = .ofService svc :=
    Service.eq_of_core ServiceKey.ofService (fun _ => rfl) hcore
  have hfind : s.world.cloud.find? other = s.world.cloud.find? svc :=
    Service.eq_of_core s.world.cloud.find? (fun _ => rfl) hcore
  rw [← hfind]
  exact h other (SortedMap.mem_values.mpr ⟨_, ho⟩) (hkey ▸ hk) b (by simp [hb])

/-- A request of another sync leaves the balancer alone. -/
theorem find?_answer_other {time : Nat} {q : Request} {c : Course} (hs : s.Apart own)
    (ht : ({ s with world := (s.world.answer time q).2 } : Scene).Apart own) (hc : Traced s.Live key c)
    (hk : key ≠ .ofService own) (hq : c.Allows settings key q) (hsound : s.world.cloud.Sound) :
    (s.world.answer time q).2.cloud.find? own = s.world.cloud.find? own := by
  have hcloud := s.world.answer_cloud time q
  have hsame := s.world.answer_cluster time q
  -- The service that a call is for is live, and another one.
  have hfound {svc : Service} (hf : c.found = some (some svc)) :
      s.Live svc ∧ ServiceKey.ofService svc ≠ .ofService own := by
    obtain ⟨hl, hkey⟩ := hc.of_found hf
    exact ⟨hl, fun he => hk (hkey.symm.trans he)⟩
  cases q with
  | lookup svc =>
    rw [hcloud]
    exact (s.world.cloud.lookup_alike svc).find? own
  | ensure svc nodes =>
    obtain ⟨hl, hne⟩ := hfound hq.1.2.1
    have hfind (x : Service) := congrArg (MemoryCloud.find? · x) hcloud
    rcases hsound.ensure_other svc own nodes with he | ⟨b, hown, hsvc, _⟩
    · exact (hfind own).trans he
    · have hlive : Simulation.Live (s.world.answer time (.ensure svc nodes)).2.cluster svc := (Live.same hsame).mpr hl
      exact absurd ((hfind svc).trans hsvc) (ht.find?_ne hlive hne ((hfind own).trans hown))
  | delete svc =>
    obtain ⟨hl, hne⟩ := hfound (hc.mayDelete hq.2).1
    rw [hcloud]
    rcases hsound.delete_other svc own with he | ⟨b, hsvc, hown⟩
    · exact he
    · exact absurd hsvc (hs.find?_ne hl hne hown)
  | _ => rw [hcloud]; rfl

/-- What happens elsewhere keeps the attention up, if it keeps the sync covered. -/
theorem Attended.frame (h : s.Attended settings own) (ho : s.Ordered settings) (hown : s.Live own)
    (hgrow : ∀ svc, s.Live svc → t.Live svc) (hsound : t.world.cloud.Sound)
    (hcache : t.world.cache.get? (.ofService own) = s.world.cache.get? (.ofService own))
    (hfind : t.world.cloud.find? own = s.world.cloud.find? own)
    (hjobs : ∀ who job, job.key = .ofService own → (t.jobs who = some job ↔ s.jobs who = some job))
    (hpast : t.past (.ofService own) = s.past (.ofService own))
    (hcover : ∀ c, Traced s.Live (.ofService own) c → s.Followed (.ofService own) c → t.Covered (.ofService own) c) :
    t.Attended settings own := by
  have hbacking {c : Course} (hb : Backing settings own.identity (s.past (.ofService own)) c s.world) :
      Backing settings own.identity (t.past (.ofService own)) c t.world := by
    rw [hpast]
    refine hb.frame hsound ((hgrow own hown).stored.trans hown.stored.symm) hcache fun svc hs => ?_
    rw [hs.find? hown.fits, hs.find? hown.fits]
    exact hfind
  have hfollowed {c : Course} (ht : Traced s.Live (.ofService own) c) (hf : s.Followed (.ofService own) c) :
      t.Followed (.ofService own) c :=
    ⟨hcover c ht hf, fun entry he => hcache ▸ hf.remembered entry he⟩
  constructor
  · rintro c ⟨who, job, hj, hk, rfl⟩
    rw [hjobs who job hk] at hj
    obtain ⟨hb, hf⟩ := h.atWork job.course ⟨who, job, hj, hk, rfl⟩
    exact ⟨hbacking hb, hfollowed (hk ▸ (ho.jobs who job hj).traced) hf⟩
  · intro hi
    obtain ⟨hb, hr⟩ := h.idle fun who job hj hk => hi who job ((hjobs who job hk).mpr hj) hk
    refine ⟨hbacking hb, fun r past hp hok => ?_⟩
    have hrest := hr r past (hpast ▸ hp) hok
    exact ⟨hrest.ends, hrest.traced.mono hgrow, hcache ▸ hrest.kept, hfollowed hrest.traced hrest.followed⟩

/-- Moves that leave the nodes alone and no key less upcoming. -/
theorem Covered.of_upcoming {c : Course} (h : s.Covered key c)
    (hn : t.world.cluster.nodes = s.world.cluster.nodes) (hu : s.Upcoming key → t.Upcoming key) :
    t.Covered key c := by
  rcases h with h | h | h | h
  · exact .inl h
  · exact .inr (.inl (hn ▸ h))
  · exact .inr (.inr (.inl h))
  · exact .inr (.inr (.inr (hu h)))

theorem Upcoming.imp (h : s.Upcoming key) (hq : s.queue.Due key → t.queue.Due key)
    (ht : ∀ r ∈ s.todo, r ∈ t.todo) (hn : ∀ item ∈ s.news, item ∈ t.news) : t.Upcoming key := by
  rcases h with h | h | ⟨δ, h, hm⟩
  · exact .inl (hq h)
  · exact .inr (.inl (ht _ h))
  · exact .inr (.inr ⟨δ, hn _ h, hm⟩)

/-! ### The cluster -/

/-- A service that was not there before has not been met by the controller in any way. -/
theorem Attended.fresh (ho : s.Ordered settings) (hnew : ¬Announced s.Live (.ofService own)) (ht : t.Live own)
    (hsound : t.world.cloud.Sound) (hcache : t.world.cache = s.world.cache) (hjobs : t.jobs = s.jobs)
    (hpast : t.past = s.past) : t.Attended settings own := by
  have hidle : ∀ who job, s.jobs who = some job → job.key ≠ .ofService own := fun who job hj hk =>
    hnew (hk ▸ ho.known job.key (.inr (ho.held who job hj)))
  have hnone : t.past (.ofService own) = [] := by
    rw [hpast]
    exact Classical.not_not.mp fun hp => hnew (ho.past _ hp)
  have hgone : t.world.cache.get? (.ofService own) = none := by
    rw [hcache]
    refine Option.eq_none_iff_forall_ne_some.mpr fun entry he => ?_
    have htracked := ho.cached _ entry he
    exact hnew ⟨_, htracked.live, htracked.key⟩
  constructor
  · rintro c ⟨who, job, hj, hk, rfl⟩
    exact absurd hk (hidle who job (hjobs ▸ hj))
  · intro _
    rw [hnone]
    refine ⟨?_, fun _ _ h => by cases h⟩
    refine backing_between hsound (fun svc hs => ?_) (fun entry he => ?_) fun entry _ he => ?_
    · obtain rfl := Option.some.inj (ht.stored.symm.trans hs)
      exact Identity.fits_core.mpr ht.fits
    · cases hgone.symm.trans he
    · cases hgone.symm.trans he

theorem Attended.putService (h : s.Live own → s.Attended settings own) (ho : s.Ordered settings)
    (hk : (Move.putService svc).Keeps s) (ht : (s.putService svc).Live own) :
    (s.putService svc).Attended settings own := by
  have hcore := s.world.cluster.core?_upsertService svc (ServiceKey.ofService own).slot
  by_cases hown : s.Live own
  · refine (h hown).frame ho hown (fun x => live_putService hk) ho.sound rfl rfl (fun _ _ _ => Iff.rfl) rfl ?_
    exact fun c _ hf => hf.covered.of_upcoming rfl fun hu =>
      hu.imp id (fun _ hr => hr) fun _ hi => List.mem_append_left _ hi
  · refine .fresh ho ?_ ht ho.sound rfl rfl rfl
    rintro ⟨x, hx, hkey⟩
    -- Had the cluster another service under the key, the new one would have its core.
    have hsame : x.core = own.core := by
      have hstored : _ = some own.core := hcore.symm.trans ht.stored
      split at hstored
      · next he =>
        have hold := hk.2 x.core (by rw [he, ← hkey]; exact hx.stored)
        exact hold.trans (Option.some.inj hstored)
      · exact Option.some.inj ((hkey ▸ hx.stored).symm.trans hstored)
    exact hown (hx.of_core hsame.symm)

/-- A change of the nodes that matters is news, so it makes a sync upcoming. -/
theorem Attended.nodes (h : s.Attended settings own) (ho : s.Ordered settings) (hown : s.Live own)
    (cluster : MemoryCluster) (hc : cluster.services = s.world.cluster.services) {δ : Delta Node}
    (hδ : Routing.nodeMatters δ = true) :
    ({ s with world.cluster := cluster, news := s.news ++ [.node δ] } : Scene).Attended settings own := by
  have hcore (k : String) : cluster.core? k = s.world.cluster.core? k := by rw [MemoryCluster.core?, hc]; rfl
  refine h.frame ho hown (fun x hx => ⟨hx.proper, (hcore _).trans hx.stored⟩) ho.sound rfl rfl
    (fun _ _ _ => Iff.rfl) rfl ?_
  exact fun c _ _ => .inr (.inr (.inr (.inr (.inr ⟨δ, by simp, hδ⟩))))

/-! ### The router -/

/-- Whoever remembers a live service that wants a balancer syncs it upon a change of the nodes. -/
theorem enqueue_mem_onNode (ho : s.Ordered settings) (hown : s.Live own) (hn : own.needsBalancer = true)
    (hu : own.isUnclaimed = true) (hc : (s.world.cache.get? (.ofService own)).isSome) {δ : Delta Node}
    (hδ : Routing.nodeMatters δ = true) :
    Reaction.enqueue (.ofService own) ∈ Routing.onNode s.world.cache δ := by
  obtain ⟨entry, he⟩ := Option.isSome_iff_exists.mp hc
  have htracked := ho.cached _ entry he
  have hcore := htracked.live.core_eq hown htracked.key
  have hserved : Routing.isServed entry.service = true := by
    rw [Service.eq_of_core Routing.isServed (fun _ => rfl) hcore, Routing.isServed, hn, hu]
    rfl
  rw [Routing.onNode, if_pos hδ]
  exact List.mem_map.mpr ⟨_, Routing.mem_servedKeys.mpr ⟨entry, he, hserved⟩, rfl⟩

/-- What the router decides is added to what it has decided before. -/
theorem decide_eq {item : News} (hi : Credible s.Live item) : ∃ todo,
    s.decide item = { s with todo := s.todo ++ todo } ∧ ∀ δ, item = .node δ → todo = Routing.onNode s.world.cache δ := by
  cases item with
  | service δ => exact ⟨_, rfl, fun _ h => by cases h⟩
  | node δ => exact ⟨_, rfl, fun _ h => by rw [News.node.inj h]⟩
  | endpoints δ => cases hi

/-- When the router is told a change of the nodes, a sync becomes upcoming, unless the latest was the first. -/
theorem Covered.tell {c : Course} (ho : s.Ordered settings) (hown : s.Live own) (hn : own.needsBalancer = true)
    (hu : own.isUnclaimed = true) (ht : Traced s.Live (.ofService own) c) (hf : s.Followed (.ofService own) c)
    {index : Nat} {item : News} (hi : s.news[index]? = some item) :
    (({ s with news := s.news.eraseIdx index } : Scene).decide item).Covered (.ofService own) c := by
  obtain ⟨todo, hdec, hnode⟩ := decide_eq (s := { s with news := s.news.eraseIdx index })
    (ho.news item (List.mem_of_getElem? hi))
  rw [hdec]
  rcases hf.covered with hc | hc | hc | hd | hd | ⟨δ, hd, hm⟩
  · exact .inl hc
  · exact .inr (.inl hc)
  · exact .inr (.inr (.inl hc))
  · exact .inr (.inr (.inr (.inl hd)))
  · exact .inr (.inr (.inr (.inr (.inl (List.mem_append_left _ hd)))))
  · rcases mem_eraseIdx_or hi hd with rfl | hd
    · -- It is this change that was to make the sync upcoming.
      rcases hr : c.recalled with _ | _ | entry
      · refine .inl (Option.not_isSome_iff_eq_none.mp fun hs => ?_)
        simpa [hr] using ht.read hs
      · exact .inr (.inr (.inl hr))
      · have hmem := enqueue_mem_onNode ho hown hn hu (hf.remembered entry hr) hm
        rw [hnode δ rfl]
        exact .inr (.inr (.inr (.inr (.inl (List.mem_append_right _ hmem)))))
    · exact .inr (.inr (.inr (.inr (.inr ⟨δ, hd, hm⟩))))

theorem Attended.tell (h : s.Attended settings own) (ho : s.Ordered settings) (hown : s.Live own)
    (hn : own.needsBalancer = true) (hu : own.isUnclaimed = true) {index : Nat} {item : News}
    (hi : s.news[index]? = some item) :
    (({ s with news := s.news.eraseIdx index } : Scene).decide item).Attended settings own := by
  have hcover {c : Course} (ht : Traced s.Live (.ofService own) c) (hf : s.Followed (.ofService own) c) :=
    Covered.tell ho hown hn hu ht hf hi
  obtain ⟨todo, hdec, _⟩ := decide_eq (s := { s with news := s.news.eraseIdx index })
    (ho.news item (List.mem_of_getElem? hi))
  rw [hdec] at hcover ⊢
  exact h.frame ho hown (fun _ hl => hl) ho.sound rfl rfl (fun _ _ _ => Iff.rfl) rfl fun c => hcover

/-- What was decided is done: a key to be synced comes into the queue. -/
theorem Attended.react (h : s.Attended settings own) (ho : s.Ordered settings) (hown : s.Live own) {index : Nat}
    {r : Reaction} (hi : s.todo[index]? = some r) :
    (({ s with todo := s.todo.eraseIdx index } : Scene).react r).Attended settings own := by
  cases r with
  | enqueue key =>
    refine h.frame ho hown (fun _ hl => hl) ho.sound rfl rfl (fun _ _ _ => Iff.rfl) rfl fun c _ hf =>
      hf.covered.of_upcoming rfl fun hup => ?_
    rcases hup with hd | hd | hd
    · exact .inl hd.add
    · rcases mem_eraseIdx_or hi hd with he | hd
      · obtain rfl := Reaction.enqueue.inj he
        exact .inl (WorkQueue.due_add ho.isOpen)
      · exact .inr (.inl hd)
    · exact .inr (.inr hd)
  | record e =>
    refine h.frame ho hown (fun _ hl => hl) ho.sound rfl rfl (fun _ _ _ => Iff.rfl) rfl fun c _ hf =>
      hf.covered.of_upcoming rfl fun hup => ?_
    rcases hup with hd | hd | hd
    · exact .inl hd
    · rcases mem_eraseIdx_or hi hd with he | hd
      · cases he
      · exact .inr (.inl hd)
    · exact .inr (.inr hd)
  | keepDeleted svc => exact absurd (ho.todo _ (List.mem_of_getElem? hi)) id
  | markStale key => exact absurd (ho.todo _ (List.mem_of_getElem? hi)) id

/-! ### Workers -/

theorem Attended.get (h : s.Attended settings own) (ho : s.Ordered settings) (hown : s.Live own) {who : Nat}
    (ht : s.get settings who = some t) : t.Attended settings own := by
  obtain ⟨key, queue, hnone, hq, rfl⟩ := get_eq_some ht
  by_cases hk : key = .ofService own
  · -- The key is taken: nobody is at it yet.
    have hidle : s.Idle (.ofService own) := fun other job hj he =>
      ho.orderly.take_free hq (hk ▸ he ▸ ho.held other job hj)
    constructor
    · rintro c ⟨other, job, hj, hkey, rfl⟩
      rcases setJob_eq_some hj with ⟨_, he⟩ | ⟨_, hj⟩
      · obtain rfl := Option.some.inj he
        exact ⟨(h.idle hidle).1, .inl rfl, fun _ h => by cases h⟩
      · exact absurd hkey (hidle other job hj)
    · intro hi
      refine absurd hk (hi who { key, rest := some (program settings key) } ?_)
      simp [setJob]
  · refine h.frame ho hown (fun _ hl => hl) ho.sound rfl rfl ?_ rfl fun c _ hf =>
      hf.covered.of_upcoming rfl fun hup => ?_
    · refine setJob_other (s := { s with queue }) (fun j hj => ?_) fun j hj => ?_
      · cases hnone.symm.trans hj
      · exact Option.some.inj hj ▸ hk
    · exact hup.imp (fun hd => hd.take hq (Ne.symm hk)) (fun _ hr => hr) fun _ hi => hi

/-- A sync does not forget its service if that wants a balancer. -/
theorem remembered_answer {time : Nat} {q : Request} {c : Course} (hc : Traced s.Live key c) (hown : s.Live own)
    (hkey : .ofService own = key) (hn : own.needsBalancer = true) (hq : c.Allows settings key q)
    (hs : (s.world.cache.get? key).isSome) : ((s.world.answer time q).2.cache.get? key).isSome := by
  rw [s.world.answer_cache time q]
  cases q with
  | remember k entry =>
    obtain rfl := (hc.remembers hq).1
    simp [World.cacheAfter]
  | forget k =>
    obtain ⟨_, svc, hfound, hw⟩ := hc.forgets hq
    obtain ⟨hl, hk⟩ := hc.of_found hfound
    have hcore := hl.core_eq hown (hk.trans hkey.symm)
    rw [Service.eq_of_core Service.needsBalancer (fun _ => rfl) hcore, hn] at hw
    cases hw
  | _ => exact hs

/-- A sync that reads the nodes is abreast of them. -/
theorem Followed.exchange {time : Nat} {q : Request} {a : Answer q} {c : Course} (hf : s.Followed key c)
    (hc : Traced s.Live key c) (hown : s.Live own) (hkey : .ofService own = key) (hn : own.needsBalancer = true)
    (hq : c.Allows settings key q) (ha : (s.world.answer time q).1 = some a) :
    ({ s with world := (s.world.answer time q).2 } : Scene).Followed key (c.note q a) := by
  have hsame := (s.world.answer_cluster time q).1
  have hrem : _ → ((s.world.answer time q).2.cache.get? key).isSome := remembered_answer hc hown hkey hn hq
  have hall {d : Course} (hnodes : d.nodes = c.nodes) (hrec : d.recalled = c.recalled) :
      ({ s with world := (s.world.answer time q).2 } : Scene).Followed key d := by
    refine ⟨Covered.of_upcoming (s := s) ?_ hsame id, fun entry he => hrem (hf.remembered entry (hrec ▸ he))⟩
    unfold Covered
    rw [hnodes, hrec]
    exact hf.covered
  cases q with
  | «recall» k =>
    obtain ⟨rfl, rfl⟩ := hq
    obtain rfl := Option.some.inj ha
    exact ⟨.inl rfl, fun entry he => hrem (by simp [Option.some.inj he])⟩
  | service k =>
    cases a <;> exact hall rfl rfl
  | nodes =>
    rcases a with e | nodes
    · exact hall rfl rfl
    · obtain rfl := World.answer_nodes ha
      refine ⟨.inr (.inl ?_), fun entry he => hrem (hf.remembered entry he)⟩
      show some _ = some _
      rw [hsame]
  | ensure svc nodes => cases a <;> exact hall rfl rfl
  | delete svc => cases a <;> exact hall rfl rfl
  | _ => exact hall rfl rfl

theorem Attended.exchange (h : s.Attended settings own) (ho : s.Ordered settings) (hown : s.Live own)
    (hn : own.needsBalancer = true) (hs : s.Apart own) (hat : t.Apart own) {who time : Nat}
    (ht : s.exchange who time = some t) : t.Attended settings own := by
  have hto := ho.exchange ht
  obtain ⟨key, q, next, course, hj, hcase⟩ := exchange_eq_some ht
  have hjob := ho.jobs who _ hj
  obtain ⟨hq, _⟩ : course.Allows settings key q ∧ _ := hjob.obeys
  have hsame := s.world.answer_cluster time q
  -- What becomes of the job does not matter to the world.
  obtain ⟨new, hnewkey, ht', hnew⟩ : ∃ new : Job, new.key = key ∧
      t = { s with world := (s.world.answer time q).2 }.setJob who (some new) ∧
      ((∃ a, (s.world.answer time q).1 = some a ∧ new.course = course.note q a) ∨
        (s.world.answer time q).1 = none ∧ new.course = course) := by
    rcases hcase with ⟨a, ha, rfl⟩ | ⟨ha, rfl⟩
    · exact ⟨_, rfl, rfl, .inl ⟨a, ha, rfl⟩⟩
    · exact ⟨_, rfl, rfl, .inr ⟨ha, rfl⟩⟩
  clear hcase
  subst ht'
  by_cases hk : key = .ofService own
  · subst hk
    obtain ⟨hb, hf⟩ := h.atWork course ⟨who, _, hj, rfl, rfl⟩
    have hat : ∀ c, Scene.AtWork ({ s with world := (s.world.answer time q).2 }.setJob who (some new))
        (.ofService own) c → c = new.course := by
      rintro c ⟨other, job, hj', hkey, rfl⟩
      have hwho := hto.single other who job new hj' (by simp [setJob]) (hkey.trans hnewkey.symm)
      subst hwho
      exact congrArg Job.course (by simpa [setJob] using hj'.symm)
    refine ⟨fun c hc => ?_, fun hi => absurd hnewkey (hi who new (by simp [setJob]))⟩
    obtain rfl := hat c hc
    rcases hnew with ⟨a, ha, he⟩ | ⟨ha, he⟩
    · have hnext := hf.exchange hjob.traced hown rfl hn hq ha
      rw [he]
      exact ⟨hb.exchange hq ha, hnext.covered, hnext.remembered⟩
    · rw [he]
      exact ⟨hb.breaks ha, hf.covered.of_upcoming hsame.1 id, fun entry hr =>
        remembered_answer hjob.traced hown rfl hn hq (hf.remembered entry hr)⟩
  · have hother := hjob.traced.cacheAfter_other hq s.world.cache (Ne.symm hk)
    refine h.frame ho hown (fun _ hl => (Live.same hsame).mpr hl) hto.sound ?_ ?_ ?_ rfl fun c _ hf =>
      hf.covered.of_upcoming hsame.1 id
    · exact (congrArg (·.get? (ServiceKey.ofService own)) (s.world.answer_cache time q)).trans hother
    · exact find?_answer_other hs hat hjob.traced hk hq ho.sound
    · refine setJob_other (s := { s with world := (s.world.answer time q).2 }) (fun j hj' => ?_) fun j hj' => ?_
      · exact Option.some.inj (hj.symm.trans hj') ▸ hk
      · obtain rfl := Option.some.inj hj'
        exact hnewkey ▸ hk

theorem Attended.finish (h : s.Attended settings own) (ho : s.Ordered settings) (hown : s.Live own) {who : Nat}
    {now clock errorDelay : Duration} {backoff : Backoff} (ht : s.finish who now clock errorDelay backoff = some t) :
    t.Attended settings own := by
  obtain ⟨job, outcome, added, past, hj, hout, hadd, rfl, rfl⟩ := finish_eq_some ht
  have hjob := ho.jobs who job hj
  have hdue {key : ServiceKey} (hd : s.queue.Due key) : (added.release job.key).Due key := by
    rw [WorkQueue.due_release]
    rcases hadd with rfl | ⟨delay, rfl⟩
    · exact hd
    · exact hd.addAfter
  by_cases hk : job.key = .ofService own
  · obtain ⟨hb, hf⟩ := h.atWork job.course ⟨who, job, hj, hk, rfl⟩
    obtain ⟨hback, hends⟩ := hjob.reported hout hb
    have hcov := hf.covered.of_upcoming (t := setJob { s with queue := added.release job.key } who none) rfl
      fun hup => hup.imp hdue (fun _ hr => hr) fun _ hi => hi
    constructor
    · rintro c ⟨other, j, hj', hkey, rfl⟩
      rcases setJob_eq_some hj' with ⟨_, he⟩ | ⟨hne, hj'⟩
      · cases he
      · exact absurd (ho.single other who j job hj' hj (hkey.trans hk.symm)) hne
    · intro _
      have hpast : (fun key => if key = job.key then ⟨job.course, outcome⟩ :: s.past key else s.past key)
          (.ofService own) = ⟨job.course, outcome⟩ :: s.past (.ofService own) := if_pos hk.symm
      simp only [setJob, hpast]
      refine ⟨hback, fun r past hp hok => ?_⟩
      obtain ⟨rfl, rfl⟩ := List.cons.inj hp
      have he := hends hok
      exact {
        ends := he
        traced := hk ▸ hjob.traced
        kept := hb.kept
        followed := ⟨hcov, hf.remembered⟩ }
  · refine h.frame ho hown (fun _ hl => hl) ho.sound rfl rfl ?_ (if_neg (Ne.symm hk)) fun c _ hf =>
      hf.covered.of_upcoming rfl fun hup => hup.imp hdue (fun _ hr => hr) fun _ hi => hi
    exact setJob_other (fun j hj' => Option.some.inj (hj.symm.trans hj') ▸ hk) (fun _ h => by cases h)

/-- Every move of a quiet run keeps the attention up. -/
theorem Attended.act (h : s.Live own → s.Attended settings own) (ho : s.Ordered settings)
    (hn : own.needsBalancer = true) (hu : own.isUnclaimed = true) (hs : s.Apart own) (hat : t.Apart own)
    {move : Move} (hk : move.Keeps s) (ht : s.act? settings move = some t) (hown : t.Live own) :
    t.Attended settings own := by
  cases move with
  | putService svc =>
    obtain rfl := Option.some.inj ht
    exact .putService h ho hk hown
  | putNode node =>
    obtain rfl := Option.some.inj ht
    have hδ : Routing.nodeMatters (.added node) = true := by simp [Routing.nodeMatters, hk.2]
    have hlive : s.Live own := hown
    have hnodes := (h hlive).nodes ho hlive (s.world.cluster.upsertNode node) rfl hδ
    simpa only [Scene.putNode, hk.1] using hnodes
  | dropNode name =>
    obtain ⟨node, hnode, rfl⟩ := Option.map_eq_some_iff.mp ht
    have hδ : Routing.nodeMatters (.deleted node) = true := by simp [Routing.nodeMatters, hk node hnode]
    have hlive : s.Live own := hown
    exact (h hlive).nodes ho hlive (s.world.cluster.deleteNode name) rfl hδ
  | tell index =>
    obtain ⟨item, hi, rfl⟩ := Option.map_eq_some_iff.mp ht
    obtain ⟨todo, hdec, _⟩ := decide_eq (s := { s with news := s.news.eraseIdx index })
      (ho.news item (List.mem_of_getElem? hi))
    have hlive : s.Live own := by rwa [hdec] at hown
    exact (h hlive).tell ho hlive hn hu hi
  | react index =>
    obtain ⟨r, hi, rfl⟩ := Option.map_eq_some_iff.mp ht
    have hlive : s.Live own := by cases r <;> exact hown
    exact (h hlive).react ho hlive hi
  | failCloud message =>
    obtain rfl := Option.some.inj ht
    have hlive : s.Live own := hown
    exact (h hlive).frame ho hlive (fun _ hl => hl) (ho.sound.inject message) rfl rfl (fun _ _ _ => Iff.rfl) rfl
      fun c _ hf => hf.covered
  | failStatus e =>
    obtain rfl := Option.some.inj ht
    have hlive : s.Live own := hown
    exact (h hlive).frame ho hlive (fun _ hl => hl) ho.sound rfl rfl (fun _ _ _ => Iff.rfl) rfl fun c _ hf => hf.covered
  | failCluster call e =>
    obtain rfl := Option.some.inj ht
    have hlive : s.Live own := hown
    exact (h hlive).frame ho hlive (fun _ hl => hl) ho.sound rfl rfl (fun _ _ _ => Iff.rfl) rfl fun c _ hf => hf.covered
  | fire key deadline =>
    obtain rfl := Option.some.inj ht
    have hlive : s.Live own := hown
    exact (h hlive).frame ho hlive (fun _ hl => hl) ho.sound rfl rfl (fun _ _ _ => Iff.rfl) rfl fun c _ hf =>
      hf.covered.of_upcoming rfl fun hup => hup.imp (fun hd => hd.fire ho.isOpen) (fun _ hr => hr) fun _ hi => hi
  | get who =>
    have hlive : s.Live own := by
      obtain ⟨_, _, _, _, rfl⟩ := get_eq_some ht
      exact hown
    exact (h hlive).get ho hlive ht
  | exchange who time =>
    have hlive : s.Live own := by
      obtain ⟨_, q, _, _, _, ⟨_, _, rfl⟩ | ⟨_, rfl⟩⟩ := exchange_eq_some ht <;>
        exact (Live.same (s.world.answer_cluster time q)).mp hown
    exact (h hlive).exchange ho hlive hn hs hat ht
  | finish who now clock errorDelay backoff =>
    have hlive : s.Live own := by
      obtain ⟨_, _, _, _, _, _, _, _, rfl⟩ := finish_eq_some ht
      exact hown
    exact (h hlive).finish ho hlive ht
  | removeService key => cases hk
  | putEndpoints δ => cases hk
  | resync => cases hk

theorem Reachable.attended (h : Reachable settings own s) (hn : own.needsBalancer = true)
    (hu : own.isUnclaimed = true) (hown : s.Live own) : s.Attended settings own := by
  induction h with
  | start hs => simp [Scene.Live, Simulation.Live, MemoryCluster.core?, hs.services] at hown
  | next hr hk ht ha ih => exact Attended.act ih hr.ordered hn hu hr.apart ha hk ht hown

end Scene
end Simulation
end ServiceBalancer
