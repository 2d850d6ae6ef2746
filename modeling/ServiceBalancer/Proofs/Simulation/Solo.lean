import ServiceBalancer.Proofs.Simulation.Backing
import ServiceBalancer.Proofs.Sync.Fingerprint

/-! One service in a world of its own, edited and synced any number of times, while nodes come and go and
calls fail. The cloud has what a sync that went well stands for unless the last push was another one,
of a sync that failed after it. -/
namespace ServiceBalancer.Simulation
open Sync

/-- A world, and the syncs that have ended in it, newest first. -/
structure Solo where
  world : World
  reports : List Report := []

namespace Solo

inductive Act where
  /-- The service is created, or replaced by another version. -/
  | edit (svc : Service)
  | putNode (node : Node)
  | dropNode (name : String)
  | markStale (key : ServiceKey)
  | markAllStale
  | failCloud (message : String)
  | failStatus (e : StatusWriteError)
  | failCluster (call : ClusterCall) (e : Error)
  | sync (time : Nat)

def sync (settings : SyncSettings) (key : ServiceKey) (time : Nat) (s : Solo) : Solo :=
  let (outcome, log, world) := (program settings key).talk (World.answer time) [] s.world
  { world, reports := ⟨(protocol settings key).noted {} log, outcome⟩ :: s.reports }

def act (settings : SyncSettings) (key : ServiceKey) (s : Solo) : Act → Solo
  | .edit svc => { s with world.cluster := (s.world.cluster.upsertService svc).2 }
  | .putNode node => { s with world.cluster := s.world.cluster.upsertNode node }
  | .dropNode name => { s with world.cluster := s.world.cluster.deleteNode name }
  | .markStale k => { s with world.cache := Cache.markStale s.world.cache k }
  | .markAllStale => { s with world.cache := Cache.markAllStale s.world.cache }
  | .failCloud message => { s with world.cloud := s.world.cloud.inject message }
  | .failStatus e => { s with world.cluster := s.world.cluster.failStatus e }
  | .failCluster call e => { s with world.faults := s.world.faults.add call e }
  | .sync time => s.sync settings key time

def Act.Keeps (i : Identity) : Act → Prop
  | .edit svc => i.Fits svc
  | _ => True

/-- The world of a run before its first act: nothing is remembered, and if the service is there it has its
identity. -/
structure Fresh (i : Identity) (w : World) : Prop where
  sound : w.cloud.Sound
  live : ∀ svc, w.cluster.core? i.slot = some svc → i.Fits svc
  cache : w.cache.get? i.key = none

def run (settings : SyncSettings) (key : ServiceKey) (s : Solo) (acts : List Act) : Solo :=
  acts.foldl (act settings key) s

variable {settings : SyncSettings} {i : Identity} {s : Solo}

def Kept (settings : SyncSettings) (i : Identity) (s : Solo) : Prop := Backing settings i s.reports {} s.world

theorem kept_fresh {w : World} (h : Fresh i w) : Kept settings i { world := w } :=
  backing_between h.sound h.live (fun _ he => by cases h.cache.symm.trans he) fun _ _ he => by
    cases h.cache.symm.trans he

/-- A fingerprint may be dropped at any time. -/
theorem Kept.stale (h : Kept settings i s) (cache : Cache) (hc : ∀ entry, cache.get? i.key = some entry →
      ∃ old, s.world.cache.get? i.key = some old ∧ entry.service = old.service ∧
        (entry.fingerprint = old.fingerprint ∨ entry.fingerprint = none)) :
    Kept settings i { s with world.cache := cache } := by
  refine backing_between h.sound h.live (fun entry he => ?_) fun entry fingerprint he hfp => ?_
  · obtain ⟨old, ho, hs, _⟩ := hc entry he
    exact hs ▸ h.cached old ho
  · obtain ⟨old, ho, _, hf | hf⟩ := hc entry he
    · exact h.backed rfl rfl old fingerprint ho (hf.symm.trans hfp)
    · cases hf.symm.trans hfp

theorem Kept.edit {svc : Service} (h : Kept settings i s) (hi : i.Fits svc) :
    Kept settings i { s with world.cluster := (s.world.cluster.upsertService svc).2 } := by
  refine backing_between h.sound (fun x hx => ?_) h.cached fun entry fingerprint => h.backed rfl rfl entry fingerprint
  dsimp only at hx
  rw [MemoryCluster.core?_upsertService, if_pos hi.slot] at hx
  exact Option.some.inj hx ▸ Identity.fits_core.mpr hi

structure Abreast (start : MemoryCluster) (i : Identity) (c : Course) (w : World) : Prop where
  same : World.SameCores start w.cluster
  found : ∀ found, c.found = some found → found.map Service.core = start.core? i.slot
  nodes : ∀ nodes, c.nodes = some nodes → nodes = start.nodes.values

theorem Abreast.exchange {start : MemoryCluster} {c : Course} {w : World} {time : Nat} {q : Request} {a : Answer q}
    (h : Abreast start i c w) (hq : c.Allows settings i.key q) (ha : (w.answer time q).1 = some a) :
    Abreast start i (c.note q a) (w.answer time q).2 := by
  have hs : World.SameCores start (w.answer time q).2.cluster :=
    have hc := w.answer_cluster time q
    ⟨hc.1.trans h.same.1, fun k => (hc.2 k).trans (h.same.2 k)⟩
  cases q with
  | service key =>
    obtain ⟨rfl, _⟩ := hq
    rcases a with e | found
    · exact ⟨hs, h.found, h.nodes⟩
    · obtain rfl := World.answer_service ha
      refine ⟨hs, ?_, h.nodes⟩
      rintro _ ⟨⟩
      exact h.same.2 i.slot
  | nodes =>
    rcases a with e | nodes
    · exact ⟨hs, h.found, h.nodes⟩
    · obtain rfl := World.answer_nodes ha
      refine ⟨hs, h.found, ?_⟩
      rintro _ ⟨⟩
      rw [h.same.1]
  | ensure svc nodes => cases a <;> exact ⟨hs, h.found, h.nodes⟩
  | delete svc => cases a <;> exact ⟨hs, h.found, h.nodes⟩
  | _ => exact ⟨hs, h.found, h.nodes⟩

/-- A sync keeps up the backing to its end, and reads the cluster as it is. -/
theorem Kept.talk (h : Kept settings i s) (time : Nat) : ∃ c outcome,
    (s.sync settings i.key time).reports = ⟨c, outcome⟩ :: s.reports ∧
    match outcome with
    | some result => c.Ends settings result ∧ Backing settings i s.reports c (s.sync settings i.key time).world ∧
      Abreast s.world.cluster i c (s.sync settings i.key time).world
    | none => Backing settings i s.reports c (s.sync settings i.key time).world ∧ c.owed = none := by
  have hstart : Abreast s.world.cluster i {} s.world :=
    ⟨⟨rfl, fun _ => rfl⟩, (fun _ h => by cases h), fun _ h => by cases h⟩
  have ht := (obeys_program settings i.key).talk (World.answer time) []
    (fun c w => Backing settings i s.reports c w ∧ Abreast s.world.cluster i c w)
    (fun c w => Backing settings i s.reports c w ∧ c.owed = none)
    (fun c w q a w' hq hi hw => by
      obtain ⟨ha, rfl⟩ := Prod.mk.inj hw
      exact ⟨hi.1.exchange hq ha, hi.2.exchange hq ha⟩)
    (fun c w q w' hq hi hw => by
      obtain ⟨ha, rfl⟩ := Prod.mk.inj hw
      exact ⟨hi.1.breaks ha, owed_of_broken hq ha⟩)
    rfl ⟨h, hstart⟩
  rcases hrun : (program settings i.key).talk (World.answer time) [] s.world with ⟨outcome, log, world⟩
  simp only [Solo.sync, hrun] at ht ⊢
  refine ⟨(protocol settings i.key).noted {} log, outcome, rfl, ?_⟩
  cases outcome with
  | none => exact ht
  | some result => exact ht

theorem Kept.sync (h : Kept settings i s) (time : Nat) : Kept settings i (s.sync settings i.key time) := by
  obtain ⟨c, outcome, hr, ht⟩ := h.talk time
  unfold Kept
  rw [hr]
  cases outcome with
  | none => exact ht.1.fails ht.2 rfl
  | some result => exact ht.2.1.ends ht.1

theorem Kept.act (h : Kept settings i s) {a : Act} (ha : a.Keeps i) : Kept settings i (s.act settings i.key a) := by
  cases a with
  | edit svc => exact h.edit ha
  | putNode node => exact h.frame h.sound rfl rfl fun _ _ => rfl
  | dropNode name => exact h.frame h.sound rfl rfl fun _ _ => rfl
  | markStale k =>
    refine h.stale _ fun entry he => ?_
    rw [Cache.markStale, SortedMap.get?_modify] at he
    obtain ⟨old, ho, rfl⟩ := Option.map_eq_some_iff.mp he
    refine ⟨old, ho, ?_⟩
    split
    · exact ⟨rfl, .inr rfl⟩
    · exact ⟨rfl, .inl rfl⟩
  | markAllStale =>
    refine h.stale _ fun entry he => ?_
    rw [Cache.markAllStale, SortedMap.get?_mapValues] at he
    obtain ⟨old, ho, rfl⟩ := Option.map_eq_some_iff.mp he
    exact ⟨old, ho, rfl, .inr rfl⟩
  | failCloud message => exact h.frame (h.sound.inject message) rfl rfl fun _ _ => rfl
  | failStatus e => exact h.frame h.sound rfl rfl fun _ _ => rfl
  | failCluster call e => exact h.frame h.sound rfl rfl fun _ _ => rfl
  | sync time => exact h.sync time

theorem Kept.run (h : Kept settings i s) {acts : List Act} (ha : ∀ a ∈ acts, a.Keeps i) :
    Kept settings i (s.run settings i.key acts) := by
  induction acts generalizing s with
  | nil => exact h
  | cons a acts ih => exact ih (h.act (ha a (.head _))) fun b hb => ha b (.tail _ hb)

/-- Whether a cloud has the balancer that a service asks for with some nodes. -/
def Served (cloud : MemoryCloud) (svc : Service) (nodes : List Node) : Prop :=
  ∃ b, cloud.find? svc = some (some b) ∧ b.listeners = svc.listeners ∧
    b.backends.Perm ((svc.availableNodes nodes).map Node.name)

instance (cloud : MemoryCloud) (svc : Service) (nodes : List Node) : Decidable (Served cloud svc nodes) :=
  match hf : cloud.find? svc with
  | some (some b) => decidable_of_iff
      (b.listeners = svc.listeners ∧ b.backends.Perm ((svc.availableNodes nodes).map Node.name))
      ⟨fun h => ⟨b, hf, h⟩, fun ⟨_, hd, h⟩ => Option.some.inj (Option.some.inj (hf.symm.trans hd)) ▸ h⟩
  | some none => .isFalse (by rintro ⟨_, hd, _⟩; cases hf.symm.trans hd)
  | none => .isFalse (by rintro ⟨_, hd, _⟩; cases hf.symm.trans hd)

/-- Whether a push made the balancer that a service asks for with some nodes. -/
def Suits (p : Push) (svc : Service) (nodes : List Node) : Prop :=
  p.service.listeners = svc.listeners ∧ (p.nodes.map Node.name).Perm ((svc.availableNodes nodes).map Node.name)

theorem served_iff_suits {p : Push} {svc : Service} {nodes : List Node} {cloud : MemoryCloud} (hp : p.Held cloud)
    (hi : i.Fits p.service) (hs : i.Fits svc) : Served cloud svc nodes ↔ Suits p svc nodes := by
  obtain ⟨b, hb, hl, hn⟩ := hp
  rw [hi.find? hs] at hb
  constructor
  · rintro ⟨d, hd, hld, hnd⟩
    obtain rfl := Option.some.inj (Option.some.inj (hb.symm.trans hd))
    exact ⟨hl ▸ hld, hn ▸ hnd⟩
  · rintro ⟨hls, hns⟩
    exact ⟨b, hb, hl.trans hls, hn ▸ hns⟩

def wentWell (s : Solo) : Bool := s.reports.head?.any Report.isOk

def pushed (s : Solo) : Option Push := s.reports.head?.bind (·.course.pushed)

/-- After a sync that went well there is a last push, and the cloud has what the service asks for exactly if
that push suits it. It does if the sync made the push itself, and, unless the digest is mistaken, if the
sync that made it went well. So the cloud is wrong only after a sync that failed behind its push. -/
theorem served_iff_last_push {w : World} (hw : Fresh i w) {acts : List Act} (ha : ∀ a ∈ acts, a.Keeps i) {time : Nat}
    {t : Solo} (ht : t = (({ world := w } : Solo).run settings i.key acts).sync settings i.key time)
    (hok : t.wentWell = true) {svc : Service} (hs : t.world.cluster.service? i.key.ns i.key.name = some svc)
    (hn : svc.needsBalancer = true) :
    ∃ p ok, lastPush t.reports = some (p, ok) ∧
      (Served t.world.cloud svc t.world.cluster.nodes.values ↔ Suits p svc t.world.cluster.nodes.values) ∧
      (t.pushed.isSome → Suits p svc t.world.cluster.nodes.values) ∧
      (ok = true →
        ¬Service.Confused settings.digest p.service p.nodes svc (svc.availableNodes t.world.cluster.nodes.values) →
        Suits p svc t.world.cluster.nodes.values) := by
  have hk : Kept settings i (({ world := w } : Solo).run settings i.key acts) := (kept_fresh hw).run ha
  obtain ⟨c, outcome, hr, hc⟩ := hk.talk time
  rw [← ht] at hr hc
  have hok : (Report.mk c outcome).isOk = true := by simpa [wentWell, hr] using hok
  obtain rfl := (Report.mk c outcome).outcome_eq hok
  obtain ⟨he, hb, habreast⟩ := hc
  -- The sync has read the service and the nodes as they are now.
  have hslot : t.world.cluster.services.get? i.slot = some svc := hs
  have hlive : t.world.cluster.core? i.slot = some svc.core := by simp [MemoryCluster.core?, hslot]
  obtain ⟨found, hfound⟩ := Option.isSome_iff_exists.mp (he.asked rfl).2
  have hfresh := (habreast.found found hfound).trans ((habreast.same.2 i.slot).symm.trans hlive)
  obtain ⟨old, rfl, hcore⟩ := Option.map_eq_some_iff.mp hfresh
  have hold : old.needsBalancer = true :=
    (Service.eq_of_core Service.needsBalancer (fun _ => rfl) hcore).trans hn
  obtain ⟨nodes, status, hens, hkept⟩ := he.vouched rfl old hfound hold
  obtain rfl : nodes = t.world.cluster.nodes.values :=
    (habreast.nodes nodes hens.read).trans (by rw [habreast.same.1])
  have hfits : i.Fits svc := Identity.fits_core.mp (hb.live _ hlive)
  have havail (l : List Node) : old.availableNodes l = svc.availableNodes l :=
    Service.eq_of_core (·.availableNodes l) (fun _ => rfl) hcore
  have hlisteners : old.listeners = svc.listeners := Service.eq_of_core Service.listeners (fun _ => rfl) hcore
  rcases hens.made with hp | ⟨hp, _⟩
  · -- The sync pushed itself.
    obtain ⟨hf, _, hheld⟩ := hb.pushed _ hp
    have hsuits : Suits ⟨old, old.availableNodes t.world.cluster.nodes.values, status⟩ svc
        t.world.cluster.nodes.values :=
      ⟨hlisteners, by rw [havail]⟩
    have hlast : lastPush t.reports = some (⟨old, old.availableNodes t.world.cluster.nodes.values, status⟩, true) := by
      simp only [hr, lastPush, hp]
      rfl
    exact ⟨_, true, hlast, served_iff_suits hheld (hb.found _ hf) hfits, fun _ => hsuits, fun _ _ => hsuits⟩
  · -- The sync relied on what was remembered, which an earlier push backs.
    obtain ⟨p, ok, hl, hi, hheld, hfp⟩ := hb.backed hp he.owed _ _ (hb.kept _ hkept) rfl
    have hlast : lastPush t.reports = some (p, ok) := by simp only [hr, lastPush, hp, hl]
    have hown : t.pushed = none := by simp [Solo.pushed, hr, hp]
    refine ⟨p, ok, hlast, served_iff_suits hheld hi hfits, by simp [hown], fun hok hd => ?_⟩
    have hsame : p.service.fingerprint settings.digest p.nodes =
        svc.fingerprint settings.digest (svc.availableNodes t.world.cluster.nodes.values) := by
      rw [← hfp hok, havail]
      exact Service.eq_of_core (·.fingerprint settings.digest _) (fun _ => rfl) hcore
    obtain ⟨_, hspec, hnames⟩ := Service.fingerprint_injective hsame hd
    exact ⟨Service.listeners_eq hspec, hnames⟩

/-! ### A push that is not remembered -/

def web (port : Int) : Service where
  info := { name := some "web", ns := some "default", uid := some "u1" }
  spec := some { type := some WellKnown.typeLoadBalancer, ports := some [{ port, nodePort := some (30000 + port) }] }

def webIdentity : Identity := ⟨⟨"default", "web"⟩, some "u1", none⟩

def worker (name : String) : Node where
  info := { name := some name }
  conditions := [⟨"Ready", "True"⟩]

theorem fits_web (port : Int) : webIdentity.Fits (web port) :=
  ⟨rfl, show (web 0).info.key = webIdentity.slot by decide, rfl, rfl⟩

theorem fresh_empty (i : Identity) : Fresh i {} := ⟨MemoryCloud.sound_empty, by simp [MemoryCluster.core?], by simp⟩

def thereAndBack : List Act :=
  [.putNode (worker "n1"), .edit (web 80), .sync 0, .edit (web 443), .failStatus .conflict, .sync 0, .edit (web 80)]

def backAgain : Solo := (({ world := {} } : Solo).run {} webIdentity.key thereAndBack).sync {} webIdentity.key 0

theorem keeps_thereAndBack : ∀ a ∈ thereAndBack, a.Keeps webIdentity := by
  simp [thereAndBack, Act.Keeps, fits_web]

private theorem backAgain_ends : backAgain.wentWell = true ∧ ∃ svc,
    backAgain.world.cluster.service? webIdentity.key.ns webIdentity.key.name = some svc ∧ svc.needsBalancer = true ∧
      ¬Served backAgain.world.cloud svc backAgain.world.cluster.nodes.values := by
  have h : (backAgain.wentWell && (backAgain.world.cluster.service? webIdentity.key.ns webIdentity.key.name).any
      fun svc => svc.needsBalancer &&
        !decide (Served backAgain.world.cloud svc backAgain.world.cluster.nodes.values)) = true := by
    decide +kernel
  simpa [Option.any_eq_true] using h

/-- The last sync goes well without a push, and the cloud still has the port of the sync that failed. -/
theorem not_served_there_and_back : ∃ acts t svc, (∀ a ∈ acts, a.Keeps webIdentity) ∧
    t = (({ world := {} } : Solo).run {} webIdentity.key acts).sync {} webIdentity.key 0 ∧ t.wentWell = true ∧
      t.world.cluster.service? webIdentity.key.ns webIdentity.key.name = some svc ∧ svc.needsBalancer = true ∧
      ¬Served t.world.cloud svc t.world.cluster.nodes.values := by
  obtain ⟨hok, svc, hs, hn, hbad⟩ := backAgain_ends
  exact ⟨thereAndBack, backAgain, svc, keeps_thereAndBack, rfl, hok, hs, hn, hbad⟩

/-- That last push does not suit the service any more. -/
theorem last_push_there_and_back : ∃ svc p ok, lastPush backAgain.reports = some (p, ok) ∧
    ¬Suits p svc backAgain.world.cluster.nodes.values := by
  obtain ⟨hok, svc, hs, hn, hbad⟩ := backAgain_ends
  obtain ⟨p, ok, hl, hiff, _⟩ := served_iff_last_push (fresh_empty webIdentity) keeps_thereAndBack rfl hok hs hn
  exact ⟨svc, p, ok, hl, fun hsuits => hbad (hiff.mpr hsuits)⟩

end Solo
end ServiceBalancer.Simulation
