import ServiceBalancer.Proofs.Cloud.Holdings
import ServiceBalancer.Proofs.Simulation.Exchange
import ServiceBalancer.Proofs.Sync.Conduct
import ServiceBalancer.Worker

/-! What stands behind a remembered fingerprint: a push of the same service that the cloud still holds.
A sync keeps this up at each of its exchanges, whatever fails. -/
namespace ServiceBalancer

/-- What a service keeps through all its versions. -/
structure Identity where
  key : ServiceKey
  uid : Option String
  /-- The annotation with the id of the balancer to be used. -/
  balancerId : Option String

namespace Identity

def slot (i : Identity) : String := MemoryCluster.lookupKey i.key.ns i.key.name

structure Fits (i : Identity) (svc : Service) : Prop where
  key : ServiceKey.ofService svc = i.key
  slot : svc.info.key = i.slot
  uid : svc.info.uid = i.uid
  balancerId : svc.info.annotationMap.get? WellKnown.loadBalancerId = i.balancerId

variable {i : Identity} {a b svc : Service}

theorem fits_core : i.Fits svc.core ↔ i.Fits svc := ⟨fun h => ⟨h.1, h.2, h.3, h.4⟩, fun h => ⟨h.1, h.2, h.3, h.4⟩⟩

/-- All versions find the same balancer. -/
theorem Fits.find? (ha : i.Fits a) (hb : i.Fits b) (c : MemoryCloud) : c.find? a = c.find? b := by
  simp only [MemoryCloud.find?, Service.givenBalancerId?, Service.balancerName?, ha.balancerId, ha.uid,
    hb.balancerId, hb.uid]

end Identity

def Sync.Push.Held (p : Sync.Push) (c : MemoryCloud) : Prop :=
  ∃ b, c.find? p.service = some (some b) ∧ b.listeners = p.service.listeners ∧ b.backends = p.nodes.map Node.name

namespace Simulation
open Sync

structure Report where
  course : Course
  outcome : SyncOutcome

def Report.isOk (r : Report) : Bool :=
  match r.outcome with
  | some (.ok _) => true
  | _ => false

theorem Report.outcome_eq (r : Report) (h : r.isOk = true) : r.outcome = some (.ok ()) := by
  unfold isOk at h
  split at h
  · assumption
  · cases h

/-- The last push of some syncs, newest first, and whether the sync that made it went well. -/
def lastPush : List Report → Option (Push × Bool)
  | [] => none
  | r :: past =>
    match r.course.pushed with
    | some p => some (p, r.isOk)
    | none => lastPush past

variable {settings : SyncSettings} {i : Identity} {past : List Report} {c : Course} {w w' : World}

/-- Whether a fingerprint is backed: the cloud holds the last push, and the fingerprint is that of the push
if the sync that made it went well. -/
def Backed (settings : SyncSettings) (i : Identity) (past : List Report) (cloud : MemoryCloud) (fingerprint : String) :
    Prop :=
  ∃ p ok, lastPush past = some (p, ok) ∧ i.Fits p.service ∧ p.Held cloud ∧
    (ok = true → fingerprint = p.service.fingerprint settings.digest p.nodes)

structure Backing (settings : SyncSettings) (i : Identity) (past : List Report) (c : Course) (w : World) : Prop where
  sound : w.cloud.Sound
  live : ∀ svc, w.cluster.core? i.slot = some svc → i.Fits svc
  cached : ∀ entry, w.cache.get? i.key = some entry → i.Fits entry.service
  found : ∀ svc, c.found = some (some svc) → i.Fits svc
  recalled : ∀ entry, c.recalled = some (some entry) → i.Fits entry.service
  memory : c.recalled.isSome → c.owed = none → c.kept = none → w.cache.get? i.key = c.memory
  owed : ∀ svc, c.owed = some svc → i.Fits svc
  pushed : ∀ p, c.pushed = some p → c.found = some (some p.service) ∧ p.service.needsBalancer = true ∧ p.Held w.cloud
  kept : ∀ entry, c.kept = some entry → w.cache.get? i.key = some entry
  backed : c.pushed = none → c.owed = none → ∀ entry fingerprint, w.cache.get? i.key = some entry →
    entry.fingerprint = some fingerprint → Backed settings i past w.cloud fingerprint

theorem Backed.congr {cloud cloud' : MemoryCloud} {fingerprint : String}
    (h : Backed settings i past cloud fingerprint) (hf : ∀ svc, i.Fits svc → cloud'.find? svc = cloud.find? svc) :
    Backed settings i past cloud' fingerprint := by
  obtain ⟨p, ok, hp, hi, ⟨b, hb, hl, hn⟩, hok⟩ := h
  exact ⟨p, ok, hp, hi, ⟨b, (hf _ hi).trans hb, hl, hn⟩, hok⟩

/-- What others do is no matter, as long as they leave the service, its entry and its balancer alone. -/
theorem Backing.frame (h : Backing settings i past c w) (hs : w'.cloud.Sound)
    (hl : w'.cluster.core? i.slot = w.cluster.core? i.slot) (hc : w'.cache.get? i.key = w.cache.get? i.key)
    (hf : ∀ svc, i.Fits svc → w'.cloud.find? svc = w.cloud.find? svc) : Backing settings i past c w' where
  sound := hs
  live := hl ▸ h.live
  cached := hc ▸ h.cached
  found := h.found
  recalled := h.recalled
  memory := hc ▸ h.memory
  owed := h.owed
  pushed p hp := by
    obtain ⟨hfound, hn, b, hb, hlb, hnb⟩ := h.pushed p hp
    exact ⟨hfound, hn, b, (hf _ (h.found _ hfound)).trans hb, hlb, hnb⟩
  kept := hc ▸ h.kept
  backed hp ho entry fingerprint he hfp := (h.backed hp ho entry fingerprint (hc ▸ he) hfp).congr hf

/-! ### Exchanges -/

variable {time : Nat} {q : Request}

/-- A request that leaves the cache alone and the cloud alike. -/
theorem Backing.quiet (h : Backing settings i past c w) (hc : World.cacheAfter w.cache q = w.cache)
    (ha : w.cloud.Alike (World.cloudAfter w.cloud q)) : Backing settings i past c (w.answer time q).2 := by
  refine h.frame ?_ ((w.answer_cluster time q).2 _) ?_ fun svc _ => ?_
  · rw [w.answer_cloud time q]
    exact ha.sound h.sound
  · rw [w.answer_cache time q, hc]
  · rw [w.answer_cloud time q]
    exact ha.find? svc

/-- The first exchange takes what is remembered. -/
theorem Backing.recall (h : Backing settings i past {} w) :
    Backing settings i past { recalled := some (w.cache.get? i.key) } w where
  sound := h.sound
  live := h.live
  cached := h.cached
  found := h.found
  recalled entry he := h.cached entry (Option.some.inj he)
  memory _ _ _ := by simp [Course.memory]
  owed := h.owed
  pushed := h.pushed
  kept := h.kept
  backed := h.backed

/-- The second takes the service. -/
theorem Backing.find (h : Backing settings i past c w) (hp : c.pushed = none) :
    Backing settings i past { c with found := some (w.cluster.service? i.key.ns i.key.name) } w where
  sound := h.sound
  live := h.live
  cached := h.cached
  found svc hs := by
    have hs : w.cluster.services.get? i.slot = some svc := Option.some.inj hs
    exact Identity.fits_core.mp (h.live svc.core (by simp [MemoryCluster.core?, hs]))
  recalled := h.recalled
  memory := h.memory
  owed := h.owed
  pushed p hp' := by cases hp.symm.trans hp'
  kept := h.kept
  backed := h.backed

theorem Backing.read (h : Backing settings i past c w) (nodes : List Node) :
    Backing settings i past { c with nodes := some nodes } w :=
  ⟨h.sound, h.live, h.cached, h.found, h.recalled, h.memory, h.owed, h.pushed, h.kept, h.backed⟩

/-- A push is held by the cloud. -/
theorem Backing.push {svc : Service} {nodes : List Node} {status : BalancerStatus} (h : Backing settings i past c w)
    (hs : c.About svc) (hn : svc.needsBalancer = true)
    (ha : (w.answer time (.ensure svc nodes)).1 = some (.ok status)) :
    Backing settings i past { c with pushed := some ⟨svc, nodes, status⟩ } (w.answer time (.ensure svc nodes)).2 := by
  have hcache := w.answer_cache time (.ensure svc nodes)
  have hcloud := w.answer_cloud time (.ensure svc nodes)
  have hlive := (w.answer_cluster time (.ensure svc nodes)).2 i.slot
  rw [World.answer_ensure] at ha
  obtain ⟨b, hb, hl, hnames, _⟩ := h.sound.ensure_ok ha
  exact {
    sound := hcloud ▸ h.sound.ensure svc nodes
    live := hlive ▸ h.live
    cached := hcache ▸ h.cached
    found := h.found
    recalled := h.recalled
    memory := hcache ▸ h.memory
    owed := h.owed
    pushed := by
      rintro p ⟨⟩
      exact ⟨hs.2.1, hn, b, hcloud ▸ hb, hl, hnames⟩
    kept := hcache ▸ h.kept
    backed := fun hp => by cases hp }

/-- A deletion leaves the entry, which is to be forgotten. -/
theorem Backing.delete {svc : Service} (h : Backing settings i past c w) (hi : c.Idle) (hs : i.Fits svc) :
    Backing settings i past { c with owed := some svc } (w.answer time (.delete svc)).2 := by
  have hcache := w.answer_cache time (.delete svc)
  have hcloud := w.answer_cloud time (.delete svc)
  have hlive := (w.answer_cluster time (.delete svc)).2 i.slot
  exact {
    sound := hcloud ▸ h.sound.delete svc
    live := hlive ▸ h.live
    cached := hcache ▸ h.cached
    found := h.found
    recalled := h.recalled
    memory := fun _ ho => by cases ho
    owed := by
      rintro _ ⟨⟩
      exact hs
    pushed := fun p hp => by cases hi.pushed.symm.trans hp
    kept := hcache ▸ h.kept
    backed := fun _ ho => by cases ho }

theorem Backing.forget (h : Backing settings i past c w) (hp : c.pushed = none) (hk : c.kept = none) :
    Backing settings i past { c with owed := none, forgot := true } (w.answer time (.forget i.key)).2 := by
  have hgone : (w.answer time (.forget i.key)).2.cache.get? i.key = none := by
    simp [w.answer_cache, World.cacheAfter]
  exact {
    sound := h.sound
    live := h.live
    cached := fun entry he => by cases hgone.symm.trans he
    found := h.found
    recalled := h.recalled
    memory := fun _ _ _ => by simp [hgone, Course.memory]
    owed := fun _ ho => by cases ho
    pushed := fun p hp' => by cases hp.symm.trans hp'
    kept := fun entry he => by cases hk.symm.trans he
    backed := fun _ _ entry _ he => by cases hgone.symm.trans he }

/-- What is remembered at the end is backed: it was pushed just now, or carries a fingerprint that was
backed before. -/
theorem Backing.remember {svc : Service} {nodes : List Node} {status : BalancerStatus} {entry : CacheEntry}
    (h : Backing settings i past c w) (he : c.Ensured settings svc nodes status) (hk : c.kept = none)
    (hs : entry.service = svc)
    (hf : entry.fingerprint = some (svc.fingerprint settings.digest (svc.availableNodes nodes))) :
    Backing settings i past { c with kept := some entry } (w.answer time (.remember i.key entry)).2 := by
  have hnew : (w.answer time (.remember i.key entry)).2.cache.get? i.key = some entry := by
    simp [w.answer_cache, World.cacheAfter]
  exact {
    sound := h.sound
    live := h.live
    cached := fun x hx => by
      obtain rfl := Option.some.inj (hnew.symm.trans hx)
      exact hs ▸ h.found svc he.about.2.1
    found := h.found
    recalled := h.recalled
    memory := fun _ _ hk' => by cases hk'
    owed := h.owed
    pushed := h.pushed
    kept := fun x hx => hnew.trans hx
    backed := fun hp ho x fingerprint hx hfx => by
      obtain rfl := Option.some.inj (hnew.symm.trans hx)
      rcases he.made with hp' | ⟨_, old, hm, hcur, _⟩
      · cases hp.symm.trans hp'
      · have hold := (h.memory he.about.1 ho hk).trans hm
        exact h.backed hp ho old fingerprint hold (hcur.2.trans (hf.symm.trans hfx)) }

/-- Whatever is answered to an allowed request, the backing is kept up. -/
theorem Backing.exchange {a : Answer q} (h : Backing settings i past c w) (hq : c.Allows settings i.key q)
    (ha : (w.answer time q).1 = some a) : Backing settings i past (c.note q a) (w.answer time q).2 := by
  have alike : w.cloud.Alike w.cloud := ⟨rfl, rfl⟩
  cases q with
  | «recall» key =>
    obtain ⟨rfl, rfl⟩ := hq
    obtain rfl := Option.some.inj ha
    exact h.recall
  | service key =>
    obtain ⟨rfl, entry, rfl⟩ := hq
    have hw : Backing settings i past { recalled := some entry } (w.answer time (.service i.key)).2 := h.quiet rfl alike
    rcases a with e | found
    · exact hw
    · obtain rfl := World.answer_service ha
      have hfind := h.find rfl
      exact hfind.quiet (q := .service i.key) rfl alike
  | nodes =>
    have hw : Backing settings i past c (w.answer time .nodes).2 := h.quiet rfl alike
    rcases a with e | nodes
    · exact hw
    · exact hw.read nodes
  | lookup svc => exact h.quiet rfl (w.cloud.lookup_alike svc)
  | ensure svc nodes =>
    obtain ⟨hs, hn, _⟩ := hq
    rcases a with e | status
    · refine h.quiet rfl (MemoryCloud.ensure_failed fun status hr => ?_)
      rw [World.answer_ensure, hr] at ha
      cases Option.some.inj ha
    · exact h.push hs hn ha
  | delete svc =>
    obtain ⟨hi, hd⟩ := hq
    have hs : i.Fits svc := by
      rcases hd with ⟨hs, _⟩ | ⟨_, entry, he, rfl⟩
      · exact h.found svc hs.2.1
      · exact h.recalled entry he
    rcases a with e | _
    · refine h.quiet rfl (MemoryCloud.delete_failed fun hr => ?_)
      rw [World.answer_delete, hr] at ha
      cases Option.some.inj ha
    · exact h.delete hi hs
  | forget key =>
    obtain ⟨_, hp, hk, hkey⟩ := hq
    have hkey : key = i.key := by
      rcases hkey with ⟨svc, ho, rfl⟩ | ⟨_, rfl, _⟩
      · exact (h.owed svc ho).key
      · rfl
    subst hkey
    exact h.forget hp hk
  | remember key entry =>
    obtain ⟨rfl, hk, svc, nodes, status, he, rfl⟩ := hq
    exact h.remember he hk rfl rfl
  | writeStatus svc status => exact h.quiet rfl alike
  | setHash svc hash => exact h.quiet rfl alike
  | removeHash svc => exact h.quiet rfl alike
  | record e => exact h.quiet rfl alike
  | observe operation => exact h.quiet rfl alike
  | countError label => exact h.quiet rfl alike
  | sleep pause => exact h.quiet rfl alike
  | draw => exact h.quiet rfl alike

/-- Only a call of the cloud can break down. Nothing is to be forgotten then, and nothing was remembered yet. -/
theorem clear_of_broken {key : ServiceKey} (hq : c.Allows settings key q) (ha : (w.answer time q).1 = none) :
    c.Clear := by
  cases q with
  | lookup svc => exact hq.1.clear
  | ensure svc nodes => exact ⟨hq.2.2.2.1, hq.2.2.2.2.1⟩
  | delete svc => exact hq.1.clear
  | sleep pause =>
    simp only [World.answer, World.reply] at ha
    split at ha <;> cases ha
  | _ => cases ha

theorem owed_of_broken {key : ServiceKey} (hq : c.Allows settings key q) (ha : (w.answer time q).1 = none) :
    c.owed = none := (clear_of_broken hq ha).1

/-- A request that is not answered changes nothing that matters. -/
theorem Backing.breaks (h : Backing settings i past c w) (ha : (w.answer time q).1 = none) :
    Backing settings i past c (w.answer time q).2 :=
  h.quiet (World.cacheAfter_of_broken ha _) (World.alike_of_broken ha)

/-! ### The end -/

/-- Between two syncs only what is remembered matters. -/
theorem backing_between (hs : w.cloud.Sound) (hl : ∀ svc, w.cluster.core? i.slot = some svc → i.Fits svc)
    (hc : ∀ entry, w.cache.get? i.key = some entry → i.Fits entry.service)
    (hb : ∀ entry fingerprint, w.cache.get? i.key = some entry → entry.fingerprint = some fingerprint →
      Backed settings i past w.cloud fingerprint) : Backing settings i past {} w where
  sound := hs
  live := hl
  cached := hc
  found := fun _ h => by cases h
  recalled := fun _ h => by cases h
  memory := fun h => by cases h
  owed := fun _ h => by cases h
  pushed := fun _ h => by cases h
  kept := fun _ h => by cases h
  backed _ _ := hb

/-- A sync that ends on an error, or breaks off, adds its push to those that the cloud holds. -/
theorem Backing.fails {outcome : SyncOutcome} (h : Backing settings i past c w) (ho : c.owed = none)
    (hf : (Report.mk c outcome).isOk = false) : Backing settings i (⟨c, outcome⟩ :: past) {} w := by
  refine backing_between h.sound h.live h.cached fun entry fingerprint he hfp => ?_
  cases hp : c.pushed with
  | none =>
    obtain ⟨p, ok, hl, hrest⟩ := h.backed hp ho entry fingerprint he hfp
    exact ⟨p, ok, by simp only [lastPush, hp, hl], hrest⟩
  | some p =>
    obtain ⟨hs, _, hheld⟩ := h.pushed p hp
    exact ⟨p, false, by simp only [lastPush, hp, hf], h.found _ hs, hheld, fun h => by cases h⟩

/-- A sync that goes well and pushes remembers the fingerprint of its push. -/
theorem Backing.succeeds (h : Backing settings i past c w) (he : c.Ends settings (.ok ())) :
    Backing settings i (⟨c, some (.ok ())⟩ :: past) {} w := by
  refine backing_between h.sound h.live h.cached fun entry fingerprint hentry hfp => ?_
  cases hp : c.pushed with
  | none =>
    obtain ⟨p, ok, hl, hrest⟩ := h.backed hp he.owed entry fingerprint hentry hfp
    exact ⟨p, ok, by simp only [lastPush, hp, hl], hrest⟩
  | some p =>
    obtain ⟨hs, hn, hheld⟩ := h.pushed p hp
    obtain ⟨nodes, status, hens, hk⟩ := he.vouched rfl p.service hs hn
    have hpush : p = ⟨p.service, p.service.availableNodes nodes, status⟩ := by
      rcases hens.made with hm | ⟨hm, _⟩
      · exact Option.some.inj (hp.symm.trans hm)
      · cases hp.symm.trans hm
    refine ⟨p, true, by simp only [lastPush, hp]; rfl, h.found _ hs, hheld, fun _ => ?_⟩
    have hentry := (h.kept _ hk).symm.trans hentry
    rw [← Option.some.inj hentry] at hfp
    rw [hpush]
    exact (Option.some.inj hfp).symm

theorem Backing.ends {result : Except Error Unit} (h : Backing settings i past c w) (he : c.Ends settings result) :
    Backing settings i (⟨c, some result⟩ :: past) {} w := by
  cases result with
  | error e => exact h.fails he.owed rfl
  | ok => exact h.succeeds he

end Simulation
end ServiceBalancer
