import ServiceBalancer.Proofs.Cloud.Writes
import ServiceBalancer.Proofs.Simulation.Deletion
import ServiceBalancer.Proofs.Simulation.Reading
import ServiceBalancer.Proofs.Simulation.Solo

/-! A service whose annotation names now one balancer, now another, now none. Every call goes where the version that it
is made for points, so what earlier versions have left at other places stays there, and is there still after the service
is deleted. -/
namespace ServiceBalancer.Simulation
open Sync MemoryCloud

variable {settings : SyncSettings} {key : ServiceKey} {name : String} {start : MemoryCloud} {past : List Write} {log : Log}
  {w : World} {svc : Service} {time : Nat} {q : Request} {a : Answer q}

def done? : (q : Request) → Answer q → Option Write
  | .ensure svc nodes, (.ok _ : Except CloudError BalancerStatus) => some (.ensure svc nodes)
  | .delete svc, (.ok () : Except CloudError Unit) => some (.delete svc)
  | _, _ => none

def writes (log : Log) : List Write := log.filterMap fun x => done? x.request x.answer

/-- Whether all that a world has and remembers under a key is versions of a service with one name for its balancer. -/
structure Versions (key : ServiceKey) (name : String) (w : World) : Prop where
  live : ∀ svc, w.cluster.core? key.slot = some svc → svc.balancerName? = some name
  cached : ∀ entry, w.cache.get? key = some entry → entry.service.balancerName? = some name

structure Underway (settings : SyncSettings) (key : ServiceKey) (name : String) (start : MemoryCloud) (past : List Write)
    (log : Log) (w : World) : Prop where
  left : w.cloud.LeftBy name start (writes log ++ past)
  versions : Versions key name w
  found : ∀ svc, ((protocol settings key).noted {} log).found = some (some svc) → svc.balancerName? = some name
  recalled : ∀ entry, ((protocol settings key).noted {} log).recalled = some (some entry) →
    entry.service.balancerName? = some name

/-- Balancers are called for under the one name only. -/
theorem Underway.target (h : Underway settings key name start past log w)
    (hq : ((protocol settings key).noted {} log).Allows settings key q) :
    (∀ svc nodes, q = .ensure svc nodes → svc.balancerName? = some name) ∧
      ∀ svc, q = .delete svc → svc.balancerName? = some name := by
  constructor
  · rintro svc nodes rfl
    exact h.found svc hq.1.2.1
  · rintro svc rfl
    obtain ⟨_, ⟨habout, _⟩ | ⟨_, entry, hentry, rfl⟩⟩ := hq
    · exact h.found svc habout.2.1
    · exact h.recalled entry hentry

theorem Underway.cloud (h : Underway settings key name start past log w)
    (hq : ((protocol settings key).noted {} log).Allows settings key q) (ha : (w.answer time q).1 = some a) :
    (w.answer time q).2.cloud.LeftBy name start (writes (⟨q, a⟩ :: log) ++ past) := by
  obtain ⟨hensure, hdelete⟩ := h.target hq
  rw [w.answer_cloud time q]
  cases q with
  | lookup svc => exact h.left.alike (w.cloud.lookup_alike svc)
  | ensure svc nodes =>
    rw [World.answer_ensure] at ha
    rcases a with e | status
    · exact h.left.alike (ensure_failed fun status hr => by cases ha.symm.trans hr)
    · exact h.left.ensure (hensure svc nodes rfl) ha
  | delete svc =>
    rw [World.answer_delete] at ha
    rcases a with e | ⟨⟩
    · exact h.left.alike (delete_failed fun hr => by cases ha.symm.trans hr)
    · exact h.left.delete (hdelete svc rfl) ha
  | _ => exact h.left

theorem Underway.versions_answer (h : Underway settings key name start past log w)
    (hq : ((protocol settings key).noted {} log).Allows settings key q) : Versions key name (w.answer time q).2 := by
  constructor
  · intro svc hs
    rw [(w.answer_cluster time q).2 key.slot] at hs
    exact h.versions.live svc hs
  · intro entry he
    rw [w.answer_cache time q] at he
    cases q with
    | forget k =>
      rw [World.cacheAfter, SortedMap.get?_erase] at he
      split at he
      · cases he
      · exact h.versions.cached entry he
    | remember k x =>
      obtain ⟨rfl, _, svc, nodes, status, hensured, rfl⟩ := hq
      rw [World.cacheAfter, SortedMap.get?_insert, if_pos rfl] at he
      obtain rfl := Option.some.inj he
      exact h.found svc hensured.about.2.1
    | _ => exact h.versions.cached entry he

theorem Underway.exchange (h : Underway settings key name start past log w)
    (hq : ((protocol settings key).noted {} log).Allows settings key q) (ha : (w.answer time q).1 = some a) :
    Underway settings key name start past (⟨q, a⟩ :: log) (w.answer time q).2 := by
  refine ⟨h.cloud hq ha, h.versions_answer hq, fun svc hs => ?_, fun entry he => ?_⟩
  · change (Course.note _ q a).found = _ at hs
    by_cases hread : ∃ k, q = .service k
    · obtain ⟨k, rfl⟩ := hread
      obtain ⟨rfl, _⟩ := hq
      rcases a with e | found
      · exact h.found svc hs
      · obtain rfl := World.answer_service ha
        have hlive : w.cluster.services.get? k.slot = some svc := Option.some.inj hs
        exact h.versions.live svc.core (by simp [MemoryCluster.core?, hlive])
    · rw [Course.found_note fun k he => hread ⟨k, he⟩] at hs
      exact h.found svc hs
  · change (Course.note _ q a).recalled = _ at he
    by_cases hread : ∃ k, q = .recall k
    · obtain ⟨k, rfl⟩ := hread
      obtain ⟨rfl, _⟩ := hq
      obtain rfl := Option.some.inj ha
      exact h.versions.cached entry (Option.some.inj he)
    · rw [Course.recalled_note fun k he => hread ⟨k, he⟩] at he
      exact h.recalled entry he

/-- Whatever comes of a sync, the cloud is as the calls have left it. -/
theorem left_by_sync (h : w.cloud.LeftBy name start past) (hv : Versions key name w) (settings : SyncSettings)
    (time : Nat) :
    ((program settings key).talk (World.answer time) [] w).2.2.cloud.LeftBy name start
        (writes ((program settings key).talk (World.answer time) [] w).2.1 ++ past) ∧
      Versions key name ((program settings key).talk (World.answer time) [] w).2.2 := by
  have hstart : Underway settings key name start past [] w := ⟨h, hv, (fun _ h => by cases h), fun _ h => by cases h⟩
  have hend := (obeys_program settings key).talk_log (World.answer time) (Underway settings key name start past)
    (fun log w => w.cloud.LeftBy name start (writes log ++ past) ∧ Versions key name w)
    (fun _ _ _ _ hq h ha => h.exchange hq ha)
    (fun log w q hq h ha => by
      refine ⟨?_, h.versions_answer hq⟩
      rw [w.answer_cloud time q]
      exact h.left.alike (World.alike_of_broken ha)) hstart
  rcases ht : (program settings key).talk (World.answer time) [] w with ⟨_ | result, log, w'⟩
  all_goals rw [ht] at hend
  · exact hend
  · exact ⟨hend.2.left, hend.2.versions⟩

namespace Solo
variable {s : Solo} {acts : List Act} {p : Service → Prop}

/-- Whether all that an act stores under a key is as it should be. -/
def Act.Stores (key : ServiceKey) (p : Service → Prop) : Act → Prop
  | .edit svc => svc.info.key = key.slot → p svc
  | _ => True

def writesOf (settings : SyncSettings) (key : ServiceKey) (s : Solo) : Act → List Write
  | .sync time => writes ((program settings key).talk (World.answer time) [] s.world).2.1
  | _ => []

/-- The calls that succeed in the course of some acts, newest first. -/
def writesIn (settings : SyncSettings) (key : ServiceKey) : Solo → List Act → List Write
  | _, [] => []
  | s, a :: acts => writesIn settings key (s.act settings key a) acts ++ s.writesOf settings key a

theorem left_by_act (settings : SyncSettings) (h : s.world.cloud.LeftBy name start past)
    (hv : Versions key name s.world) {a : Act} (ha : a.Stores key (·.balancerName? = some name)) :
    (s.act settings key a).world.cloud.LeftBy name start (s.writesOf settings key a ++ past) ∧
      Versions key name (s.act settings key a).world := by
  cases a with
  | edit svc =>
    refine ⟨h, fun x hx => ?_, hv.cached⟩
    dsimp only [act] at hx
    rw [MemoryCluster.core?_upsertService] at hx
    split at hx
    · next he =>
      obtain rfl := Option.some.inj hx
      exact ha he
    · exact hv.live x hx
  | putNode node => exact ⟨h, hv.live, hv.cached⟩
  | dropNode name => exact ⟨h, hv.live, hv.cached⟩
  | markStale k =>
    refine ⟨h, hv.live, fun entry he => ?_⟩
    dsimp only [act] at he
    rw [Cache.markStale, SortedMap.get?_modify] at he
    obtain ⟨old, ho, rfl⟩ := Option.map_eq_some_iff.mp he
    have hold := hv.cached old ho
    split <;> exact hold
  | markAllStale =>
    refine ⟨h, hv.live, fun entry he => ?_⟩
    dsimp only [act] at he
    rw [Cache.markAllStale, SortedMap.get?_mapValues] at he
    obtain ⟨old, ho, rfl⟩ := Option.map_eq_some_iff.mp he
    exact hv.cached old ho
  | failCloud message => exact ⟨h.alike ⟨rfl, rfl⟩, hv.live, hv.cached⟩
  | failStatus e => exact ⟨h, hv.live, hv.cached⟩
  | failCluster call e => exact ⟨h, hv.live, hv.cached⟩
  | sync time => exact left_by_sync h hv settings time

theorem left_by_run (settings : SyncSettings) (h : s.world.cloud.LeftBy name start past)
    (hv : Versions key name s.world) (ha : ∀ a ∈ acts, a.Stores key (·.balancerName? = some name)) :
    (s.run settings key acts).world.cloud.LeftBy name start (s.writesIn settings key acts ++ past) ∧
      Versions key name (s.run settings key acts).world := by
  induction acts generalizing s past with
  | nil => exact ⟨h, hv⟩
  | cons a acts ih =>
    obtain ⟨hleft, hversions⟩ := left_by_act settings h hv (ha a (.head _))
    have hrest := ih hleft hversions fun b hb => ha b (.tail _ hb)
    rw [writesIn, List.append_assoc]
    exact hrest

/-! ### The deletion -/

/-- Where a world stands whose service is deleted: what the service has is to be deleted, or that is done. -/
structure Leaving (key : ServiceKey) (name : String) (start : MemoryCloud) (past : List Write) (svc : Service)
    (w : World) : Prop where
  absent : Absent key w
  cloud : (∃ entry, w.cache.get? key = some entry ∧ entry.service = svc) ∧ w.cloud.LeftBy name start past ∨
    w.cache.get? key = none ∧ w.cloud.LeftBy name start (.delete svc :: past)

/-- A sync that ends well has the deletion done. -/
theorem leaving_sync (h : Leaving key name start past svc s.world) (hn : svc.balancerName? = some name)
    (hkey : .ofService svc = key) (settings : SyncSettings) (time : Nat) :
    Leaving key name start past svc (s.sync settings key time).world ∧ ((s.sync settings key time).wentWell = true →
      (s.sync settings key time).world.cloud.LeftBy name start (.delete svc :: past)) := by
  rcases ht : (program settings key).talk (World.answer time) [] s.world with ⟨outcome, log, w'⟩
  have hworld : (s.sync settings key time).world = w' := by simp only [sync, ht]
  have hwell : (s.sync settings key time).wentWell = true → outcome = some (.ok ()) := by
    intro hok
    simp only [wentWell, sync, ht, List.head?_cons, Option.any_some] at hok
    exact Report.outcome_eq _ hok
  have same : w'.cluster = s.world.cluster → Absent key w' := fun hc => by
    rw [Absent, hc]
    exact h.absent
  rw [hworld]
  rcases h.cloud with ⟨⟨entry, he, rfl⟩, hleft⟩ | ⟨he, hleft⟩
  · by_cases ho : outcome = some (.ok ())
    · subst ho
      obtain ⟨_, hremoved⟩ := (comes_gone h.absent he).ok ht
      obtain ⟨c, halike, hdone, hcloud⟩ := hremoved.cloud
      have hgone : w'.cache.get? key = none := by rw [hremoved.cache, hkey, SortedMap.get?_erase, if_pos rfl]
      have hafter : w'.cloud.LeftBy name start (.delete entry.service :: past) :=
        hcloud ▸ (hleft.alike halike).delete hn hdone
      exact ⟨⟨same hremoved.cluster, .inr ⟨hgone, hafter⟩⟩, fun _ => hafter⟩
    · have hunmoved : Unmoved s.world w' := (comes_gone h.absent he).failed ht fun _ => ho
      refine ⟨⟨same hunmoved.cluster, .inl ⟨⟨entry, ?_, rfl⟩, hleft.alike hunmoved.cloud⟩⟩, fun hok => ?_⟩
      · rw [hunmoved.cache, he]
      · exact absurd (hwell hok) ho
  · have hquiet : Quiet [] s.world log w' ∧ w'.cluster = s.world.cluster := by
      by_cases ho : outcome = some (.ok ())
      · subst ho
        exact (comes_forgotten h.absent he).ok ht
      · exact ((comes_forgotten h.absent he).failed ht fun _ => ho).1
    have hafter : w'.cloud.LeftBy name start (.delete svc :: past) := by rwa [hquiet.1.cloud]
    exact ⟨⟨same hquiet.2, .inr ⟨by rw [hquiet.1.cache, he], hafter⟩⟩, fun _ => hafter⟩

/-- What matters of a world whose service is deleted. -/
theorem Leaving.frame {w' : World} (h : Leaving key name start past svc w) (hs : Absent key w')
    (hc : w.cloud.Alike w'.cloud) (hm : ∀ entry, w.cache.get? key = some entry →
      ∃ entry', w'.cache.get? key = some entry' ∧ entry'.service = entry.service)
    (hn : w.cache.get? key = none → w'.cache.get? key = none) : Leaving key name start past svc w' := by
  refine ⟨hs, h.cloud.imp ?_ fun hdone => ⟨hn hdone.1, hdone.2.alike hc⟩⟩
  rintro ⟨⟨entry, he, rfl⟩, hleft⟩
  obtain ⟨entry', he', hsame⟩ := hm entry he
  exact ⟨⟨entry', he', hsame⟩, hleft.alike hc⟩

theorem leaving_act (settings : SyncSettings) (h : Leaving key name start past svc s.world)
    (hn : svc.balancerName? = some name) (hkey : .ofService svc = key) {a : Act} (ha : a.Stores key fun _ => False) :
    Leaving key name start past svc (s.act settings key a).world := by
  have alike : s.world.cloud.Alike s.world.cloud := ⟨rfl, rfl⟩
  have kept : ∀ entry, s.world.cache.get? key = some entry →
      ∃ entry', s.world.cache.get? key = some entry' ∧ entry'.service = entry.service := fun entry he => ⟨entry, he, rfl⟩
  cases a with
  | edit x =>
    refine h.frame ?_ alike kept id
    have hother : x.info.key ≠ key.slot := ha
    change ((s.world.cluster.services.insert x.info.key _).get? key.slot) = none
    rw [SortedMap.get?_insert, if_neg hother]
    exact h.absent
  | putNode node => exact h.frame h.absent alike kept id
  | dropNode name => exact h.frame h.absent alike kept id
  | markStale k =>
    refine h.frame h.absent alike (fun entry he => ?_) fun he => ?_
    · refine ⟨_, by rw [act, Cache.markStale, SortedMap.get?_modify, he, Option.map_some], ?_⟩
      split <;> rfl
    · rw [act, Cache.markStale, SortedMap.get?_modify, he, Option.map_none]
  | markAllStale =>
    refine h.frame h.absent alike (fun entry he => ?_) fun he => ?_
    · refine ⟨{ entry with fingerprint := none }, ?_, rfl⟩
      rw [act, Cache.markAllStale, SortedMap.get?_mapValues, he, Option.map_some]
    · rw [act, Cache.markAllStale, SortedMap.get?_mapValues, he, Option.map_none]
  | failCloud message => exact h.frame h.absent ⟨rfl, rfl⟩ kept id
  | failStatus e => exact h.frame h.absent alike kept id
  | failCluster call e => exact h.frame h.absent alike kept id
  | sync time => exact (leaving_sync h hn hkey settings time).1

theorem leaving_run (settings : SyncSettings) (h : Leaving key name start past svc s.world)
    (hn : svc.balancerName? = some name) (hkey : .ofService svc = key)
    (ha : ∀ a ∈ acts, a.Stores key fun _ => False) :
    Leaving key name start past svc (s.run settings key acts).world := by
  induction acts generalizing s with
  | nil => exact h
  | cons a acts ih => exact ih (leaving_act settings h hn hkey (ha a (.head _))) fun b hb => ha b (.tail _ hb)

/-- The removal of a service from the cluster has it kept for its deletion. -/
theorem leaving_removed {site : Site} (h : site.world.cloud.LeftBy name start past)
    (hs : site.world.cluster.service? key.ns key.name = some svc) (hkey : .ofService svc = key)
    (hb : svc.hasBalancerType = true) (hu : svc.isUnclaimed = true) :
    Leaving key name start past svc (site.removeService key.ns key.name).world := by
  have hworld : (site.removeService key.ns key.name).world =
      { site.world with
        cluster := site.world.cluster.deleteService key.ns key.name
        cache := site.world.cache.insert (.ofService svc) (.ofDeleted svc) } := by
    simp [Site.removeService, hs, Site.onService, Routing.onService_deleted hb hu, Site.react]
  rw [hworld]
  refine ⟨?_, .inl ⟨⟨.ofDeleted svc, by simp [hkey], rfl⟩, h⟩⟩
  simp [Absent, MemoryCluster.service?, MemoryCluster.deleteService]

/-- Whatever balancers the versions of a service have named, one after the other: once it is deleted, and a sync has
ended well since, the place of its last version is released, and any other place is as the last call about it has left
it. So a balancer that was made or filled for an earlier version stays as it is unless that version's own sync has
taken it down. -/
theorem left_after_deletion {acts late : List Act} {t : Solo} {site : Site} (hc : w.cloud.Sound)
    (hfree : ∀ b ∈ w.cloud.balancers.values, b.name ≠ name) (hv : Versions key name w)
    (ha : ∀ a ∈ acts, a.Stores key (·.balancerName? = some name))
    (hs : site.world = (({ world := w } : Solo).run settings key acts).world)
    (hlive : site.world.cluster.service? key.ns key.name = some svc) (hkey : .ofService svc = key)
    (hb : svc.hasBalancerType = true) (hu : svc.isUnclaimed = true) (hlate : ∀ a ∈ late, a.Stores key fun _ => False)
    (ht : t = (({ world := (site.removeService key.ns key.name).world } : Solo).run settings key late).sync settings key
      time) (hok : t.wentWell = true) :
    (t.world.cloud.Bears name ↔ svc.givenBalancerId? ≠ none ∧
      ∃ old nodes, Write.lastAt? none (writesIn settings key { world := w } acts) = some (.ensure old nodes)) ∧
    ∀ id b, t.world.cloud.balancers.get? id = some b → b.userManaged = true → ∃ b₀,
      w.cloud.balancers.get? id = some b₀ ∧ b₀.userManaged = true ∧
        b.holdings = if svc.givenBalancerId? = some id then ([], [])
          else ((Write.lastAt? (some id) (writesIn settings key { world := w } acts)).map Write.leaves).getD b₀.holdings := by
  obtain ⟨hleft, hversions⟩ := left_by_run (s := { world := w }) settings (leftBy_start hc hfree) hv ha
  rw [List.append_nil, ← hs] at hleft
  rw [← hs] at hversions
  have hn : svc.balancerName? = some name := by
    have hslot : site.world.cluster.services.get? key.slot = some svc := hlive
    exact hversions.live svc.core (by simp [MemoryCluster.core?, hslot])
  have hgone := leaving_run (s := { world := (site.removeService key.ns key.name).world }) settings
    (leaving_removed hleft hlive hkey hb hu) hn hkey hlate
  have hend := (leaving_sync hgone hn hkey settings time).2
  rw [← ht] at hend
  have hend := hend hok
  have hplace : (Write.delete svc).place = svc.givenBalancerId? := rfl
  constructor
  · rw [hend.bears]
    cases hg : svc.givenBalancerId? with
    | none =>
      rw [← hg, ← hplace, Write.lastAt?_cons_same]
      simp [hplace, hg]
    | some id =>
      rw [Write.lastAt?_cons_other (by simp [hplace, hg])]
      simp
  · intro id b hb hu
    have hother : b.name ≠ name := fun hbn => by cases hu.symm.trans (hend.own id b hb hbn)
    obtain ⟨b₀, hb₀, hsame, hholds⟩ := hend.others id b hb hother
    refine ⟨b₀, hb₀, hsame.symm.trans hu, hholds.trans ?_⟩
    split
    · next hg =>
      rw [← hg, ← hplace, Write.lastAt?_cons_same]
      rfl
    · next hg => rw [Write.lastAt?_cons_other (by rwa [hplace])]

def webAt (id : String) : Service :=
  { web 80 with info := { (web 80).info with annotations := some (.ofList [(WellKnown.loadBalancerId, id)]) } }

def withShared : World := { cloud := ((({} : MemoryCloud).seed "shared1").2.seed "shared2").2 }

/-- The service has a balancer of its own first, then names one of the two, then the other. -/
def movingOn : List Act :=
  [.putNode (worker "n1"), .edit (web 80), .sync 0, .edit (webAt "lb-00000001"), .markAllStale, .sync 0,
    .edit (webAt "lb-00000002"), .markAllStale, .sync 0]

def movedOn : Solo := ({ world := withShared } : Solo).run {} webIdentity.key movingOn

def bereaved : Site := { settings := {}, world := movedOn.world }

def deserted : Solo :=
  ({ world := (bereaved.removeService webIdentity.key.ns webIdentity.key.name).world } : Solo).sync {} webIdentity.key 0

/-- All syncs go well, and yet the balancer that was made first is left, and the one that was named first is left full. -/
theorem left_behind_moving_on : movedOn.reports.all Report.isOk = true ∧ deserted.wentWell = true ∧
    (web 80).balancerName? = some "au1" ∧ deserted.world.cloud.Bears "au1" ∧
    (bereaved.world.cluster.service? "default" "web").any
      (fun svc => svc.info.uid = some "u1" ∧ svc.givenBalancerId? = some "lb-00000002") = true ∧
    (deserted.world.cloud.balancers.get? "lb-00000001").any
      (fun b => b.userManaged = true ∧ b.backends = ["n1"] ∧ b.listeners ≠ []) = true := by
  decide +kernel

private theorem bereaved_live : ∃ svc,
    bereaved.world.cluster.service? webIdentity.key.ns webIdentity.key.name = some svc ∧
      .ofService svc = webIdentity.key ∧ svc.hasBalancerType = true ∧ svc.isUnclaimed = true := by
  have h : (bereaved.world.cluster.service? webIdentity.key.ns webIdentity.key.name).any (fun svc =>
      ServiceKey.ofService svc = webIdentity.key ∧ svc.hasBalancerType = true ∧ svc.isUnclaimed = true) = true := by
    decide +kernel
  simpa [Option.any_eq_true] using h

/-- The call that made the first balancer is the last one that was about it. -/
theorem left_after_deletion_moving_on : (∀ a ∈ movingOn, a.Stores webIdentity.key (·.balancerName? = some "au1")) ∧
    deserted.wentWell = true ∧ ∃ old nodes,
      Write.lastAt? none (writesIn {} webIdentity.key { world := withShared } movingOn) = some (.ensure old nodes) := by
  have hc : withShared.cloud.Sound := (MemoryCloud.Reachable.seed _ (.seed _ (.new _))).sound
  have hv : Versions webIdentity.key "au1" withShared :=
    ⟨by simp [withShared, MemoryCluster.core?], by simp [withShared]⟩
  have hname : (web 80).balancerName? = some "au1" := by decide
  have ha : ∀ a ∈ movingOn, a.Stores webIdentity.key (·.balancerName? = some "au1") := by
    simp only [movingOn, List.forall_mem_cons]
    exact ⟨trivial, fun _ => hname, trivial, fun _ => hname, trivial, trivial, fun _ => hname, trivial, trivial, by simp⟩
  have hworld : bereaved.world = (({ world := withShared } : Solo).run {} webIdentity.key movingOn).world := rfl
  have hend : deserted = (({ world := (bereaved.removeService webIdentity.key.ns webIdentity.key.name).world } : Solo).run
      {} webIdentity.key []).sync {} webIdentity.key 0 := rfl
  obtain ⟨svc, hlive, hkey, hb, hu⟩ := bereaved_live
  obtain ⟨_, hok, _, hbears, _⟩ := left_behind_moving_on
  obtain ⟨hmade, _⟩ := left_after_deletion hc (by decide) hv ha hworld hlive hkey hb hu (by simp) hend hok
  exact ⟨ha, hok, (hmade.mp hbears).2⟩

end Solo
end ServiceBalancer.Simulation
