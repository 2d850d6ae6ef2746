import ServiceBalancer.Proofs.Simulation.Calls
import ServiceBalancer.Proofs.Simulation.Convergence

/-! Two syncs in a row of a service that wants no balancer. The second finds the service clean and leaves the cluster
alone; but it deletes once more what the first has left of the balancer, if that goes by an id that the user gave. -/
namespace ServiceBalancer
namespace MemoryCloud
variable {c c' c'' : MemoryCloud} {svc : Service}

/-- What is left by calls that look for the balancer of a service or delete it: a balancer that the service names by its
id stays, and its own name, if only one balancer bore it, does not come to bear another. -/
structure Thinned (svc : Service) (c c' : MemoryCloud) : Prop where
  sound : c'.Sound
  calm : c'.failures = []
  given : ∀ id, svc.givenBalancerId? = some id → (c'.balancers.get? id).isSome = (c.balancers.get? id).isSome
  named : svc.givenBalancerId? = none → c.Unambiguous svc → c'.Unambiguous svc

theorem Thinned.refl (hs : c.Sound) (hf : c.failures = []) (svc : Service) : c.Thinned svc c :=
  ⟨hs, hf, fun _ _ => rfl, fun _ h => h⟩

theorem Thinned.alike (h : c.Thinned svc c') (ha : c'.Alike c'') (hf : c''.failures = []) : c.Thinned svc c'' where
  sound := ha.sound h.sound
  calm := hf
  given id hg := by rw [ha.1, h.given id hg]
  named hg hu := ha.unambiguous (h.named hg hu)

theorem Thinned.delete (h : c.Thinned svc c') (hr : (c'.delete svc).1 = some (.ok ())) :
    c.Thinned svc (c'.delete svc).2 where
  sound := h.sound.delete svc
  calm := by
    rcases c'.delete_cases svc with ⟨_, hnone⟩ | ⟨c₁, b, ha, hf, _⟩
    · exact (delete_calm h.calm (hnone hr)).2
    · exact (delete_calm h.calm ((ha.find? svc).symm.trans hf)).2
  given id hg := by
    rw [← h.given id hg]
    rcases c'.delete_cases svc with ⟨ha, _⟩ | ⟨c₁, b, ha, hf, _, ⟨hnone, _⟩ | ⟨_, he⟩⟩
    · rw [ha.1]
    · cases hg.symm.trans hnone
    · have hb := (ha.sound h.sound).get?_of_find? hf
      rw [find?, hg] at hf
      obtain rfl := (ha.sound h.sound).keyed id b (Option.some.inj hf)
      rw [he, SortedMap.get?_insert, if_pos rfl, ← ha.1, hb]
      rfl
  named hg hu := unambiguous_delete hg (h.named hg hu)

/-- Whether a service that goes by its name has been rid of its balancer, if no other bore the name before. -/
def Rid (svc : Service) (c c' : MemoryCloud) : Prop :=
  svc.givenBalancerId? = none → c.Unambiguous svc → c'.find? svc = some none

theorem Thinned.rid (h : c.Thinned svc c') (hr : (c'.delete svc).1 = some (.ok ())) : c.Rid svc (c'.delete svc).2 :=
  fun hg hu => h.sound.find?_of_delete_named hg (h.named hg hu) hr

end MemoryCloud

namespace Simulation
open Sync

/-- Whether no failure waits for the calls that a sync of an unwanted service makes. -/
structure World.Undisturbed (w : World) : Prop where
  cloud : w.cloud.failures = []
  status : w.cluster.statusFailures = []
  service : w.faults.service = []
  removeHash : w.faults.removeHash = []

variable {settings : SyncSettings} {key : ServiceKey} {svc : Service} {uid : String} {w w' w₁ : World} {time : Nat}
  {log : Log}

/-! ### The first sync -/

structure Clearing (svc : Service) (w w' : World) : Prop where
  cluster : w'.cluster = w.cluster
  faults : w'.faults = w.faults
  cloud : w.cloud.Thinned svc w'.cloud

structure Clear (svc : Service) (w w' : World) : Prop extends Clearing svc w w' where
  rid : w.cloud.Rid svc w'.cloud
  sought : (w'.cloud.find? svc).isSome

structure TornDown (key : ServiceKey) (svc : Service) (w w' : World) : Prop where
  uid : svc.info.uid.isSome
  live : ∃ bare, w'.cluster.services.get? key.slot = some bare ∧ bare.core = svc.core ∧
    bare.info.labelMap.contains WellKnown.serviceHash = false ∧ bare.balancerStatus.addresses = []
  forgotten : w'.cache.get? key = none
  calm : w'.faults.service = []
  cloud : w.cloud.Thinned svc w'.cloud
  rid : w.cloud.Rid svc w'.cloud
  sought : (w'.cloud.find? svc).isSome

theorem comes_clearing_delete (h : Clearing svc w w') : Comes time (delete settings svc) log w'
    (fun _ _ w'' => Clear svc w w'') (fun _ _ => True) := by
  refine comes_delete.mono (fun _ log'' w'' hr => ?_) fun _ _ _ => trivial
  obtain ⟨c, ha, hdelete, hcloud⟩ := hr.cloud
  have hc : w.cloud.Thinned svc c := h.cloud.alike ha (MemoryCloud.calm_of_delete hdelete)
  refine ⟨⟨hr.cluster.trans h.cluster, hr.faults.trans h.faults, hcloud ▸ hc.delete hdelete⟩, hcloud ▸ hc.rid hdelete, ?_⟩
  rw [MemoryCloud.isSome_find? c w''.cloud svc]
  rcases c.delete_cases svc with ⟨_, hnone⟩ | ⟨c₁, b, ha₁, hf, _⟩
  · rw [hnone hdelete]
    rfl
  · rw [← ha₁.find? svc, hf]
    rfl

theorem comes_sameIdentity (h : Clearing svc w w) (cached : Option CacheEntry) :
    Comes time (sameIdentity settings svc uid cached) log w (fun _ _ w' => Clearing svc w w') (fun _ _ => True) := by
  unfold sameIdentity
  split
  · exact comes_pure h
  · split
    · exact comes_pure h
    · exact .bind ((comes_clearing_delete h).mono (fun _ _ _ h => comes_pure h.toClearing) fun _ _ _ => trivial)

theorem comes_deleteExisting_clear (h : Clearing svc w w') : Comes time (deleteExisting settings svc) log w'
    (fun _ _ w'' => Clear svc w w'') (fun _ _ => True) := by
  refine .bind (comes_ask (fun told htold => ?_) fun _ => trivial)
  obtain ⟨journal, he⟩ := w'.answer_lookup_whole time svc
  rw [he] at htold ⊢
  rcases told with e | told
  · exact comes_throw trivial
  · obtain ⟨found, hfind, rfl⟩ := MemoryCloud.find?_of_lookup htold
    have halike := w'.cloud.lookup_alike svc
    have hlooked : Clearing svc w { w' with cloud := (w'.cloud.lookup svc).2, journal } :=
      ⟨h.cluster, h.faults, h.cloud.alike halike (MemoryCloud.lookup_calm h.cloud.calm hfind).2⟩
    have hfind' := (halike.find? svc).trans hfind
    cases found with
    | none => exact comes_pure ⟨hlooked, fun _ _ => hfind', by rw [hfind']; rfl⟩
    | some b => exact comes_clearing_delete hlooked

/-- A hash label is removed, or is not there. -/
theorem succeeds_clearHash {post : Unit → World → Prop} (hf : w.faults.removeHash = [])
    (hl : w.cluster.services.get? svc.info.key = some svc)
    (hp : ∀ cluster journal live, cluster.statusFailures = w.cluster.statusFailures →
      cluster.services.get? svc.info.key = some live → live.core = svc.core →
      live.info.labelMap.contains WellKnown.serviceHash = false → live.balancerStatus = svc.balancerStatus →
      post () { w with cluster, journal }) : Succeeds time (clearHash svc) w post := by
  unfold clearHash
  split
  · obtain ⟨journal, he⟩ := World.answer_removeHash_calm time hf svc
    obtain ⟨hfailures, live, hlive, hcore, hlabel, hstatus⟩ := MemoryCluster.removeHash_found hl
    exact succeeds_granted ((run_request _ w).trans he) (hp _ journal live hfailures hlive hcore hlabel hstatus)
  · next hlabel => exact succeeds_pure (hp w.cluster w.journal svc rfl hl rfl (by simpa using hlabel) rfl)

theorem comes_tearDown_tornDown (hw : w.Undisturbed) (hkey : svc.info.key = key.slot)
    (hl : w.cluster.services.get? key.slot = some svc) (hu : svc.info.uid.isSome) (h : Clearing svc w w') :
    Comes time (tearDown settings key svc) log w' (fun _ _ w'' => TornDown key svc w w'') (fun _ _ => True) := by
  refine .bind ((comes_deleteExisting_clear h).mono (fun _ log₁ w₁ h₁ => ?_) fun _ _ _ => trivial)
  refine .bind (comes_ask (fun _ _ => ?_) fun hn => by cases hn)
  -- from here on all goes well, since no failure waits
  let forgetful : World := { w₁ with cache := w₁.cache.erase key }
  have hl₁ : forgetful.cluster.services.get? svc.info.key = some svc := by
    rw [hkey, show forgetful.cluster = w.cluster from h₁.cluster]
    exact hl
  have hf₁ : forgetful.faults.removeHash = [] := by
    rw [show forgetful.faults = w.faults from h₁.faults]
    exact hw.removeHash
  have hs₁ : forgetful.cluster.statusFailures = [] := by
    rw [show forgetful.cluster = w.cluster from h₁.cluster]
    exact hw.status
  have hrest : Succeeds time (do clearHash svc; publish settings key svc {}) forgetful fun _ => TornDown key svc w := by
    refine .bind (succeeds_clearHash hf₁ hl₁ fun cluster journal live hfailures hlive hcore hlabel hstatus => ?_)
    refine succeeds_publish (hfailures.trans hs₁) hlive hstatus fun cluster journal bare hbare hcore' hlabels hshown => ?_
    refine ⟨hu, ⟨bare, hkey ▸ hbare, hcore'.trans hcore, ?_, hshown⟩, ?_, ?_, h₁.cloud, h₁.rid, h₁.sought⟩
    · rw [Meta.labelMap, hlabels]
      exact hlabel
    · exact (SortedMap.get?_erase ..).trans (if_pos rfl)
    · show w₁.faults.service = []
      rw [h₁.faults, hw.service]
  exact hrest.comes

theorem comes_tornDown (hw : w.Undisturbed) (hsound : w.cloud.Sound) (hkey : svc.info.key = key.slot)
    (hl : w.cluster.service? key.ns key.name = some svc) (hn : svc.needsBalancer = false) :
    Comes time (reconcile settings key) [] w (fun _ _ w' => TornDown key svc w w') (fun _ _ => True) := by
  refine comes_reading (fun _ _ _ => trivial) (fun live _ hs => ?_) (fun _ _ hs _ => ?_) fun _ hs _ => ?_
  · obtain rfl := Option.some.inj (hl.symm.trans hs)
    unfold update
    split
    · exact comes_throw trivial
    · next uid hu =>
      have hstart : Clearing svc w w := ⟨rfl, rfl, .refl hsound hw.cloud svc⟩
      refine .bind ((comes_sameIdentity hstart _).mono (fun _ log₁ w₁ h₁ => ?_) fun _ _ _ => trivial)
      simp only [hn, Bool.false_eq_true, if_false]
      exact comes_tearDown_tornDown hw hkey hl (by rw [hu]; rfl) h₁
  · cases hl.symm.trans hs
  · cases hl.symm.trans hs

/-! ### The second sync -/

/-- A sync of a service that has been torn down calls the cloud to look for its balancer, and to delete what it still
finds. -/
theorem run_of_tornDown (h : TornDown key svc w w₁) (hn : svc.needsBalancer = false) {found : Option Balancer}
    (hfind : w₁.cloud.find? svc = some found) (settings : SyncSettings) (time : Nat) :
    ∃ w₂, (program settings key).run (World.answer time) w₁ = (some (.ok ()), w₂) ∧ w₂.cluster = w₁.cluster ∧
      w₂.cloud.calls = w₁.cloud.calls ++ .lookup (svc.info.uid.getD "") ::
        if found.isSome then [.delete (svc.info.uid.getD "")] else [] := by
  obtain ⟨bare, hlive, hcore, hlabel, hshown⟩ := h.live
  have huid : bare.info.uid = svc.info.uid := Service.eq_of_core (·.info.uid) (fun _ => rfl) hcore
  have hunwanted : bare.needsBalancer = false := (Service.eq_of_core (·.needsBalancer) (fun _ => rfl) hcore).trans hn
  have hfind₁ : w₁.cloud.find? bare = some found :=
    (Service.eq_of_core w₁.cloud.find? (fun _ => rfl) hcore).trans hfind
  obtain ⟨uid, hv⟩ := Option.isSome_iff_exists.mp h.uid
  have hv₁ : bare.info.uid = some uid := huid.trans hv
  have hcalls : bare.info.uid.getD "" = svc.info.uid.getD "" := by rw [huid]
  have hagrees : bare.balancerStatus.agrees {} = true := decide_eq_true hshown
  let post (_ : Unit) (w₂ : World) : Prop := w₂.cluster = w₁.cluster ∧ w₂.cloud.calls = w₁.cloud.calls ++
    .lookup (svc.info.uid.getD "") :: if found.isSome then [.delete (svc.info.uid.getD "")] else []
  -- nothing is left to be cleared of the service itself
  have hrest : ∀ w₂, post () w₂ → Succeeds time (do ask (.forget key); clearHash bare; publish settings key bare {}) w₂ post := by
    intro w₂ hpost
    refine .bind (succeeds_ask rfl (.bind ?_))
    rw [clearHash, if_neg (by simp [hlabel])]
    refine succeeds_pure ?_
    rw [publish, if_pos hagrees]
    exact succeeds_pure hpost
  obtain ⟨htold, hcalm₂⟩ := MemoryCloud.lookup_calm h.cloud.calm hfind₁
  obtain ⟨journal, hlookup⟩ := w₁.answer_lookup_whole time bare
  rw [htold] at hlookup
  have htearDown : Succeeds time (tearDown settings key bare) w₁ post := by
    refine .bind (.bind (succeeds_ask hlookup ?_))
    cases found with
    | none =>
      refine succeeds_pure (hrest _ ⟨rfl, ?_⟩)
      exact (w₁.cloud.notes_lookup bare).calls.trans (by rw [hcalls]; rfl)
    | some b =>
      have hfind₂ := ((w₁.cloud.lookup_alike bare).find? bare).trans hfind₁
      refine succeeds_delete (MemoryCloud.delete_calm hcalm₂ hfind₂).1 fun metrics journal => hrest _ ⟨rfl, ?_⟩
      show ((w₁.cloud.lookup bare).2.delete bare).2.calls = _
      rw [(MemoryCloud.notes_delete _ _).calls, (MemoryCloud.notes_lookup _ _).calls, hcalls, List.append_assoc]
      rfl
  have hservice := (run_request (.service key) w₁).trans (World.answer_service_calm time h.calm key)
  have hall : Succeeds time (reconcile settings key) w₁ post := by
    refine .bind (succeeds_ask rfl (.bind (succeeds_granted hservice ?_)))
    rw [show w₁.cluster.service? key.ns key.name = some bare from hlive, h.forgotten]
    simp only [update, hv₁, hunwanted, Bool.false_eq_true, if_false, sameIdentity]
    exact .bind (succeeds_pure htearDown)
  obtain ⟨w₂, hrun, hpost⟩ := hall.program fun _ _ h => h
  exact ⟨w₂, hrun, hpost⟩

/-! ### Both -/

/-- If a sync goes well of a service that wants no balancer, with no failure waiting, the next does so too and writes
nothing to the cluster. It leaves the cloud in peace, but for a question, exactly if the service finds no balancer any
more. So it is if the service goes by its name, unless another balancer bore that name too; but a balancer that the user
gave by its id is only ever emptied, and then deleted again. -/
theorem second_teardown_idle_iff (hc : w.cluster.Reachable) (hb : w.cloud.Reachable) (hw : w.Undisturbed)
    (hs : w.cluster.service? key.ns key.name = some svc) (hn : svc.needsBalancer = false)
    (h₁ : (program settings key).run (World.answer time) w = (some (.ok ()), w₁)) (later : Nat) :
    ∃ w₂, (program settings key).run (World.answer later) w₁ = (some (.ok ()), w₂) ∧ w₂.cluster = w₁.cluster ∧
      ((∃ made, w₂.cloud.calls = w₁.cloud.calls ++ made ∧ ∀ call ∈ made, call.isWrite = false) ↔
        w₁.cloud.find? svc = some none) ∧
      (∀ id, svc.givenBalancerId? = some id →
        (w₁.cloud.find? svc = some none ↔ w.cloud.balancers.get? id = none)) ∧
      (svc.givenBalancerId? = none → w.cloud.Unambiguous svc → w₁.cloud.find? svc = some none) := by
  have hcomes : Comes time (ExceptT.mk (program settings key)) [] w (fun _ _ w' => TornDown key svc w w')
      (fun _ _ => True) := by
    refine comes_program (comes_tornDown hw hb.sound (hc.keyed _ _ hs) hs hn) ?_ fun _ _ _ _ _ _ => trivial
    intro _ w' _ w'' ha h
    exact ⟨h.uid, ha.cluster ▸ h.live, ha.cache ▸ h.forgotten, ha.faults ▸ h.calm, ha.cloud ▸ h.cloud,
      ha.cloud ▸ h.rid, ha.cloud ▸ h.sought⟩
  have htorn : TornDown key svc w w₁ := by
    rw [Program.talk_run _ _ []] at h₁
    rcases htalk : (program settings key).talk (World.answer time) [] w with ⟨outcome, log, w'⟩
    rw [htalk] at h₁
    cases h₁
    exact hcomes.ok htalk
  obtain ⟨found, hfind⟩ := Option.isSome_iff_exists.mp htorn.sought
  obtain ⟨w₂, hrun, hcluster, hcalls⟩ := run_of_tornDown htorn hn hfind settings later
  refine ⟨w₂, hrun, hcluster, ?_, fun id hg => ?_, htorn.rid⟩
  · rw [hfind, hcalls, Option.some.injEq]
    constructor
    · rintro ⟨made, hmade, hidle⟩
      obtain rfl := List.append_cancel_left hmade
      cases found with
      | none => rfl
      | some b => cases hidle (.delete (svc.info.uid.getD "")) (by simp)
    · rintro rfl
      exact ⟨_, rfl, by simp [CloudCall.isWrite]⟩
  · have hsame := htorn.cloud.given id hg
    rw [MemoryCloud.find?, hg, Option.some.injEq, ← Option.not_isSome_iff_eq_none, hsame, Option.not_isSome_iff_eq_none]

private def shelved (annotations : Option StringMap) : Service where
  info :=
    { name := some "kiosk", ns := some "default", uid := some "u1", annotations,
      labels := some (.ofList [(WellKnown.serviceHash, "0a1b")]) }
  spec := some { type := some "ClusterIP" }

private def shelf (annotations : Option StringMap) : World where
  cluster := (({} : MemoryCluster).upsertService (shelved annotations)).2
  cloud := (({} : MemoryCloud).ensure (shelved none) []).2

private theorem shelf_ready (annotations : Option StringMap) : (shelf annotations).cluster.Reachable ∧
    (shelf annotations).cloud.Reachable ∧ (shelf annotations).Undisturbed :=
  ⟨.upsertService _ (.new true), .ensure _ _ (.new _), ⟨rfl, rfl, rfl, rfl⟩⟩

private def stored (annotations : Option StringMap) : Service :=
  { shelved annotations with info := { (shelved annotations).info with resourceVersion := some "1" } }

private theorem ended_well {u : Option (Except Error Unit) × World} (h : u.1.any Except.isOk = true) :
    u = (some (.ok ()), u.2) := by
  obtain ⟨_ | e | ⟨⟩, w⟩ := u
  · cases h
  · cases h
  · rfl

/-- A balancer that goes by the name of the service is deleted once. -/
theorem second_teardown_idle_named : ∃ w₁ w₂,
    (program {} ⟨"default", "kiosk"⟩).run (World.answer 0) (shelf none) = (some (.ok ()), w₁) ∧
      w₁.cloud.calls = [.ensure "u1" [], .lookup "u1", .delete "u1"] ∧
    (program {} ⟨"default", "kiosk"⟩).run (World.answer 0) w₁ = (some (.ok ()), w₂) ∧
      ∃ made, w₂.cloud.calls = w₁.cloud.calls ++ made ∧ ∀ call ∈ made, call.isWrite = false := by
  obtain ⟨hc, hb, hw⟩ := shelf_ready none
  let key : ServiceKey := ⟨"default", "kiosk"⟩
  have hs : (shelf none).cluster.service? key.ns key.name = some (stored none) := by decide +kernel
  have h₁ : (program {} key).run (World.answer 0) (shelf none) =
      (some (.ok ()), ((program {} key).run (World.answer 0) (shelf none)).2) :=
    ended_well (by decide +kernel)
  obtain ⟨w₂, h₂, _, hidle, _, hnamed⟩ := second_teardown_idle_iff hc hb hw hs (by decide) h₁ 0
  refine ⟨_, w₂, h₁, by decide +kernel, h₂, hidle.mpr (hnamed rfl ?_)⟩
  intro name _ b hm b' hm' _ _
  have honly : (shelf none).cloud.balancers.values.length = 1 := by decide +kernel
  obtain ⟨x, hx⟩ := List.length_eq_one_iff.mp honly
  rw [hx, List.mem_singleton] at hm hm'
  rw [hm, hm']

/-- A balancer that the user gave by its id is deleted again by every sync. -/
theorem not_second_teardown_idle_given :
    ¬∀ (settings : SyncSettings) (key : ServiceKey) (svc : Service) (w w₁ w₂ : World) (time later : Nat),
      w.cluster.Reachable → w.cloud.Reachable → w.Undisturbed →
      w.cluster.service? key.ns key.name = some svc → svc.needsBalancer = false →
      (program settings key).run (World.answer time) w = (some (.ok ()), w₁) →
      (program settings key).run (World.answer later) w₁ = (some (.ok ()), w₂) →
      ∃ made, w₂.cloud.calls = w₁.cloud.calls ++ made ∧ ∀ call ∈ made, call.isWrite = false := by
  intro hidle
  let given : Option StringMap := some (.ofList [(WellKnown.loadBalancerId, "lb-00000001")])
  obtain ⟨hc, hb, hw⟩ := shelf_ready given
  have hs : (shelf given).cluster.service? "default" "kiosk" = some (stored given) := by decide +kernel
  let w₁ := ((program {} ⟨"default", "kiosk"⟩).run (World.answer 0) (shelf given)).2
  obtain ⟨made, hcalls, hmade⟩ := hidle {} ⟨"default", "kiosk"⟩ (stored given) (shelf given) w₁
    ((program {} ⟨"default", "kiosk"⟩).run (World.answer 0) w₁).2 0 0 hc hb hw hs (by decide)
    (ended_well (by decide +kernel)) (ended_well (by decide +kernel))
  have hagain : ((program {} ⟨"default", "kiosk"⟩).run (World.answer 0) w₁).2.cloud.calls =
      w₁.cloud.calls ++ [.lookup "u1", .delete "u1"] := by decide +kernel
  obtain rfl := List.append_cancel_left (hcalls.symm.trans hagain)
  cases hmade (.delete "u1") (by simp)

end Simulation
end ServiceBalancer
