import ServiceBalancer.Proofs.Interleaving.Attention
import ServiceBalancer.Proofs.Sync.Fingerprint

/-! Changes of the nodes while syncs are under way. When all has come to rest, a balancer has the nodes of the
last push. A change is lost on a service if the router is told it while the first sync of the service is
between reading the nodes and remembering the service, or if the last push is of a sync that failed after it. -/
namespace ServiceBalancer.Simulation
open Sync

/-- Whether a cloud has a balancer for a service, with the backends that the service asks for with some nodes. -/
def Pooled (cloud : MemoryCloud) (svc : Service) (nodes : List Node) : Prop :=
  ∃ b ∈ (cloud.find? svc).join, b.backends.Perm ((svc.availableNodes nodes).map Node.name)

instance (cloud : MemoryCloud) (svc : Service) (nodes : List Node) : Decidable (Pooled cloud svc nodes) :=
  inferInstanceAs (Decidable (∃ _ ∈ _, _))

theorem pooled_iff_of_held {i : Identity} {p : Push} {cloud : MemoryCloud} {svc : Service} {nodes : List Node}
    (hp : p.Held cloud) (hi : i.Fits p.service) (hs : i.Fits svc) :
    Pooled cloud svc nodes ↔ (p.nodes.map Node.name).Perm ((svc.availableNodes nodes).map Node.name) := by
  obtain ⟨b, hb, _, hn⟩ := hp
  rw [hi.find? hs] at hb
  simp [Pooled, hb, hn]

namespace Scene

/-- Whether all has come to rest: nothing is ready, held or delayed, and the router has done all it is to do. -/
def Quiescent (s : Scene) : Prop :=
  s.queue.ready = [] ∧ s.queue.processing = [] ∧ s.queue.waiting = [] ∧ s.news.isEmpty ∧ s.todo = []

instance (s : Scene) : Decidable s.Quiescent := inferInstanceAs (Decidable (_ ∧ _ ∧ _ ∧ _ ∧ _))

variable {settings : SyncSettings} {own : Service} {s t : Scene} {key : ServiceKey}

theorem Quiescent.not_upcoming (h : s.Quiescent) (ho : s.Ordered settings) : ¬s.Upcoming key := by
  obtain ⟨hready, hproc, hwait, hnews, htodo⟩ := h
  rintro ((hd | ⟨_, hd⟩) | hd | ⟨_, hd, _⟩)
  · rcases ho.orderly.kept ho.isOpen key hd with hd | hd
    · simp [hready] at hd
    · simp [hproc] at hd
  · simp [hwait] at hd
  · simp [htodo] at hd
  · simp [List.isEmpty_iff.mp hnews] at hd

theorem Quiescent.idle (h : s.Quiescent) (ho : s.Ordered settings) : s.Idle key := fun who job hj _ => by
  have hm := ho.held who job hj
  simp [h.2.1] at hm

/-- After all has come to rest, and the last sync of a live service went well, there is a last push, and the
balancer has the backends that the service asks for exactly if that push does. It has those for the nodes that the
last sync read if that sync made it, and, unless the digest is mistaken, if the sync that made it went well. These
are the nodes as they are now, unless the last sync was the first. So a change of the nodes is lost only during the
first sync, or with a sync that failed behind its push. -/
theorem pooled_iff_last_push (h : Reachable settings own s) (hq : s.Quiescent) (hown : s.Live own)
    (hn : own.needsBalancer = true) (hu : own.isUnclaimed = true) {r : Report} {past : List Report}
    (hp : s.past (.ofService own) = r :: past) (hok : r.isOk = true) :
    ∃ p ok nodes, lastPush (r :: past) = some (p, ok) ∧ r.course.nodes = some nodes ∧
      (Pooled s.world.cloud own s.world.cluster.nodes.values ↔
        (p.nodes.map Node.name).Perm ((own.availableNodes s.world.cluster.nodes.values).map Node.name)) ∧
      (r.course.pushed.isSome → p.nodes = own.availableNodes nodes) ∧
      (ok = true → ¬Service.Confused settings.digest p.service p.nodes own (own.availableNodes nodes) →
        (p.nodes.map Node.name).Perm ((own.availableNodes nodes).map Node.name)) ∧
      (r.course.recalled = some none ∧ r.course.pushed.isSome ∨ nodes = s.world.cluster.nodes.values) := by
  have ho := h.ordered
  obtain ⟨hb, hrest⟩ := (h.attended hn hu hown).idle (hq.idle ho)
  have hr := hrest r past hp hok
  -- The last sync has found the service, and made sure of its balancer.
  obtain ⟨found, hfound⟩ := Option.isSome_iff_exists.mp (hr.ends.asked rfl).2
  obtain ⟨svc, rfl, hlive, hkey⟩ := hr.traced.found found hfound
  have hcore : svc.core = own.core := hlive.core_eq hown hkey
  have hneeds : svc.needsBalancer = true := (Service.eq_of_core Service.needsBalancer (fun _ => rfl) hcore).trans hn
  obtain ⟨nodes, status, hens, hkept⟩ := hr.ends.vouched rfl svc hfound hneeds
  have havail : svc.availableNodes nodes = own.availableNodes nodes :=
    Service.eq_of_core (·.availableNodes nodes) (fun _ => rfl) hcore
  have hprint (l : List Node) : svc.fingerprint settings.digest l = own.fingerprint settings.digest l :=
    Service.eq_of_core (·.fingerprint settings.digest l) (fun _ => rfl) hcore
  -- What it remembers is backed by the last push.
  obtain ⟨p, ok, hlast, hfits, hheld, hfp⟩ := hb.backed rfl rfl _ _ (hr.kept _ hkept) rfl
  rw [hp] at hlast
  refine ⟨p, ok, nodes, hlast, hens.read, pooled_iff_of_held hheld hfits hown.fits, fun hpushed => ?_,
    fun hpok hd => ?_, ?_⟩
  · rcases hens.made with hm | ⟨hm, _⟩
    · simp only [lastPush, hm, Option.some.injEq, Prod.mk.injEq] at hlast
      rw [← hlast.1]
      exact havail
    · simp [hm] at hpushed
  · have hsame := (hfp hpok).symm
    rw [havail, hprint] at hsame
    exact (Service.fingerprint_injective hsame hd).2.2
  · rcases hr.followed.covered with hc | hc | hc | hc
    · cases hc.symm.trans hens.read
    · exact .inr (Option.some.inj (hens.read.symm.trans hc))
    · refine .inl ⟨hc, ?_⟩
      rcases hens.made with hm | ⟨_, entry, hm, _⟩
      · simp [hm]
      · simp [Course.memory, hc] at hm
    · exact absurd hc (hq.not_upcoming ho)

/-! ### A node that comes during the first sync -/

def step? (settings : SyncSettings) (own : Service) (s : Scene) (move : Move) : Option Scene :=
  if move.Keeps s then (s.act? settings move).filter (fun t => t.Apart own) else none

def follow (settings : SyncSettings) (own : Service) (s : Scene) (moves : List Move) : Option Scene :=
  moves.foldlM (step? settings own) s

theorem Reachable.follow {moves : List Move} (h : Reachable settings own s)
    (ht : s.follow settings own moves = some t) : Reachable settings own t := by
  induction moves generalizing s with
  | nil => exact Option.some.inj ht ▸ h
  | cons move moves ih =>
    obtain ⟨u, hu, ht⟩ := Option.bind_eq_some_iff.mp ht
    unfold step? at hu
    split at hu
    · next hk =>
      obtain ⟨hact, ha⟩ := Option.filter_eq_some_iff.mp hu
      exact ih (h.next hk hact (by simpa using ha)) ht
    · cases hu

def shop : Service where
  info := { name := some "shop", ns := some "default", uid := some "u1" }
  spec := some { type := some WellKnown.typeLoadBalancer, ports := some [{ port := 80, nodePort := some 30080 }] }

def member (name : String) : Node where
  info := { name := some name }
  conditions := [⟨"Ready", "True"⟩]

/-- A node comes after the first sync of a service has pushed, and before it remembers the service. -/
def newcomer : List Move :=
  [Move.putNode (member "n1"), .tell 0, .putService shop, .tell 0, .react 0, .get 0] ++
  List.replicate 4 (Move.exchange 0 0) ++ [Move.putNode (member "n2"), .tell 0] ++
  List.replicate 6 (Move.exchange 0 0) ++ [Move.finish 0 .zero .zero .zero ⟨{}, none, none⟩]

theorem start_empty : Start { world := {} } :=
  ⟨rfl, MemoryCloud.sound_empty, rfl, ⟨"", rfl⟩, fun _ => rfl, rfl, rfl, fun _ => rfl⟩

private theorem newcomer_ends : ∃ s r past, Reachable {} shop s ∧ s.Quiescent ∧ s.Live shop ∧
    s.past (.ofService shop) = r :: past ∧ r.isOk = true ∧ ¬Pooled s.world.cloud shop s.world.cluster.nodes.values := by
  have h : ((({ world := {} } : Scene).follow {} shop newcomer).any fun s =>
      Decidable.decide (s.Quiescent ∧ s.Live shop ∧ ¬Pooled s.world.cloud shop s.world.cluster.nodes.values) &&
        (s.past (.ofService shop)).head?.any Report.isOk) = true := by
    decide +kernel
  obtain ⟨s, hs, he⟩ := (Option.any_eq_true _ _).mp h
  obtain ⟨hend, hpast⟩ := Bool.and_eq_true_iff.mp he
  obtain ⟨hq, hl, hbad⟩ := of_decide_eq_true hend
  obtain ⟨r, hr, hok⟩ := (Option.any_eq_true _ _).mp hpast
  obtain ⟨past, hp⟩ := List.head?_eq_some_iff.mp hr
  exact ⟨s, r, past, (Reachable.start start_empty).follow hs, hq, hl, hp, hok, hbad⟩

/-- All comes to rest, and the balancer is without the node that came during the first sync. -/
theorem not_pooled_newcomer : ∃ s r past, Reachable {} shop s ∧ s.Quiescent ∧ s.Live shop ∧
    shop.needsBalancer = true ∧ shop.isUnclaimed = true ∧ s.past (.ofService shop) = r :: past ∧ r.isOk = true ∧
      ¬Pooled s.world.cloud shop s.world.cluster.nodes.values := by
  obtain ⟨s, r, past, hr, hq, hl, hp, hok, hbad⟩ := newcomer_ends
  exact ⟨s, r, past, hr, hq, hl, rfl, rfl, hp, hok, hbad⟩

/-- The last push was made for the nodes that were there before. -/
theorem last_push_newcomer : ∃ s p ok, Reachable {} shop s ∧ lastPush (s.past (.ofService shop)) = some (p, ok) ∧
    ¬(p.nodes.map Node.name).Perm ((shop.availableNodes s.world.cluster.nodes.values).map Node.name) := by
  obtain ⟨s, r, past, hr, hq, hl, hp, hok, hbad⟩ := newcomer_ends
  obtain ⟨p, ok, nodes, hlast, _, hiff, _⟩ := pooled_iff_last_push hr hq hl rfl rfl hp hok
  exact ⟨s, p, ok, hr, hp ▸ hlast, fun hperm => hbad (hiff.mpr hperm)⟩

end Scene
end ServiceBalancer.Simulation
