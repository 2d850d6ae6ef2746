import ServiceBalancer.Proofs.Program.Amid
import ServiceBalancer.Proofs.Simulation.Execution
import ServiceBalancer.Proofs.Sync.Account

/-! A sync that follows one that went well. The second finds what the first has remembered and published, and leaves the
cloud, the cluster and the owner of the service in peace. -/
namespace ServiceBalancer

theorem BalancerStatus.agrees_refl (s : BalancerStatus) : s.agrees s = true := by simp [BalancerStatus.agrees]

namespace Sync

/-- Whether an exchange is a status write on a service that was gone. -/
def missesWrite (x : Program.Exchange Answer) : Bool := Account.misses false x.request x.answer

theorem missed_noted {settings : SyncSettings} {key : ServiceKey} {log : List (Program.Exchange Answer)}
    (h : ∀ x ∈ log, missesWrite x = false) : ((bookkeeping settings key).noted {} log).missed = false := by
  induction log with
  | nil => rfl
  | cons x log ih =>
    have hlog := ih fun y hy => h y (.tail _ hy)
    have hx := h x (.head _)
    show Account.misses ((bookkeeping settings key).noted {} log).missed x.request x.answer = false
    rw [hlog]
    exact hx

end Sync

namespace Simulation
open Sync

/-- Whether what a sync of a key goes by has been left alone: the service but for its labels, what it shows, the nodes,
and what is remembered. No read is made to fail either. -/
structure World.Spares (key : ServiceKey) (w w' : World) : Prop where
  keyed : w.cluster.Keyed → w'.cluster.Keyed
  core : w'.cluster.core? key.slot = w.cluster.core? key.slot
  shown : w'.cluster.shown? key.slot = w.cluster.shown? key.slot
  nodes : w'.cluster.nodes = w.cluster.nodes
  remembered : w'.cache.get? key = w.cache.get? key
  faults : w'.faults.service = w.faults.service ∧ w'.faults.nodes = w.faults.nodes

theorem World.Spares.refl (key : ServiceKey) (w : World) : w.Spares key w := ⟨id, rfl, rfl, rfl, rfl, rfl, rfl⟩

structure Standing (key : ServiceKey) (core : Service) (nodes : SortedMap String Node) (a : Account) (w : World) : Prop where
  keyed : w.cluster.Keyed
  live : w.cluster.core? key.slot = some core
  same : w.cluster.nodes = nodes
  found : ∀ found, a.course.found = some found → (∃ svc, found = some svc ∧ svc.core = core) ∧ w.faults.service = []
  read : ∀ l, a.course.nodes = some l → l = nodes.values ∧ w.faults.nodes = []
  kept : ∀ entry, a.course.kept = some entry → w.cache.get? key = some entry
  told : ∀ status, a.told = some status → w.cluster.shown? key.slot = some status
  shown : a.told = none → a.missed = false → ∀ svc, a.course.found = some (some svc) →
    w.cluster.shown? key.slot = some svc.balancerStatus

variable {settings : SyncSettings} {key : ServiceKey} {core svc : Service} {nodes : SortedMap String Node} {a : Account}
  {w w' w₁ w₂ : World} {time : Nat} {q : Request}

/-- A service in the cluster has a core, and is shown with its status. -/
theorem service?_eq_some (hc : w.cluster.core? key.slot = some core) : ∃ svc,
    w.cluster.service? key.ns key.name = some svc ∧ svc.core = core ∧
      w.cluster.shown? key.slot = some svc.balancerStatus := by
  obtain ⟨svc, hs, hcore⟩ := Option.map_eq_some_iff.mp hc
  refine ⟨svc, hs, hcore, ?_⟩
  rw [MemoryCluster.shown?, hs]
  rfl

theorem Standing.frame (h : Standing key core nodes a w) (hk : w'.cluster.Keyed)
    (hc : w'.cluster.core? key.slot = w.cluster.core? key.slot) (hn : w'.cluster.nodes = w.cluster.nodes)
    (hs : w'.cluster.shown? key.slot = w.cluster.shown? key.slot) (hr : w'.cache.get? key = w.cache.get? key)
    (hf : w'.faults.service <:+ w.faults.service ∧ w'.faults.nodes <:+ w.faults.nodes) :
    Standing key core nodes a w' where
  keyed := hk
  live := hc.trans h.live
  same := hn.trans h.same
  found found hfound := by
    obtain ⟨hsvc, hcalm⟩ := h.found found hfound
    exact ⟨hsvc, List.suffix_nil.mp (hcalm ▸ hf.1)⟩
  read l hl := by
    obtain ⟨hnodes, hcalm⟩ := h.read l hl
    exact ⟨hnodes, List.suffix_nil.mp (hcalm ▸ hf.2)⟩
  kept entry he := hr.trans (h.kept entry he)
  told status ht := hs.trans (h.told status ht)
  shown ht hm svc hfound := hs.trans (h.shown ht hm svc hfound)

theorem Standing.spared (h : Standing key core nodes a w) (hs : w.Spares key w') : Standing key core nodes a w' :=
  h.frame (hs.keyed h.keyed) hs.core hs.nodes hs.shown hs.remembered
    ⟨hs.faults.1 ▸ List.suffix_refl _, hs.faults.2 ▸ List.suffix_refl _⟩

/-- A status is written to the service that the sync is about. -/
theorem Standing.publish {status : BalancerStatus} {x : Answer (.writeStatus svc status)} (h : Standing key core nodes a w)
    (hq : a.course.Allows settings key (.writeStatus svc status))
    (hx : (w.answer time (.writeStatus svc status)).1 = some x) :
    Standing key core nodes (a.note (.writeStatus svc status) x) (w.answer time (.writeStatus svc status)).2 := by
  have hfound : a.course.found = some (some svc) := by
    rcases hq.2 with ⟨nodes, he⟩ | ⟨_, ha, _⟩
    · exact he.about.2.1
    · exact ha.2.1
  obtain ⟨_, ⟨⟩, hcore⟩ := (h.found _ hfound).1
  -- The key of the service is that of its place in the cluster.
  obtain ⟨live, hl, hlive, _⟩ := service?_eq_some h.live
  have hkey : svc.info.key = key.slot := by
    rw [Service.eq_of_core (·.info.key) (fun _ => rfl) (hcore.trans hlive.symm)]
    exact h.keyed _ _ hl
  have hsame := w.answer_cluster time (.writeStatus svc status)
  have hkeyed : (w.answer time (.writeStatus svc status)).2.cluster.Keyed := h.keyed.updateStatus svc status
  have hx : (w.cluster.updateStatus svc status).1 = x := Option.some.inj hx
  by_cases hok : x = .ok ()
  · subst hok
    have hshown : (w.answer time (.writeStatus svc status)).2.cluster.shown? key.slot = some status := by
      have := MemoryCluster.shown?_updateStatus_ok hx key.slot
      rwa [if_pos hkey] at this
    exact {
      keyed := hkeyed
      live := (hsame.2 _).trans h.live
      same := hsame.1.trans h.same
      found := h.found
      read := h.read
      kept := h.kept
      told := fun _ ht => hshown.trans ht
      shown := fun ht => by cases ht }
  · have hshown := MemoryCluster.shown?_updateStatus_failed (fun he => hok (hx.symm.trans he)) key.slot
    have hw : Standing key core nodes a (w.answer time (.writeStatus svc status)).2 :=
      h.frame hkeyed (hsame.2 _) hsame.1 hshown rfl ⟨List.suffix_refl _, List.suffix_refl _⟩
    rcases x with (_ | _ | e) | _
    · exact ⟨hw.keyed, hw.live, hw.same, hw.found, hw.read, hw.kept, hw.told, fun _ hm => by cases hm⟩
    · exact hw
    · exact hw
    · exact absurd rfl hok

theorem Standing.exchange {x : Answer q} (h : Standing key core nodes a w) (hq : (bookkeeping settings key).Allows a q)
    (hx : w.answer time q = (some x, w')) : Standing key core nodes (a.note q x) w' := by
  obtain rfl : (w.answer time q).2 = w' := congrArg Prod.snd hx
  replace hx : (w.answer time q).1 = some x := congrArg Prod.fst hx
  have hsame := w.answer_cluster time q
  have hquiet (hs : ∀ svc status, q ≠ .writeStatus svc status)
      (hr : (World.cacheAfter w.cache q).get? key = w.cache.get? key) : Standing key core nodes a (w.answer time q).2 :=
    h.frame (w.keyed_answer time q h.keyed) (hsame.2 _) hsame.1 (w.shown?_answer time hs _)
      ((congrArg (·.get? key) (w.answer_cache time q)).trans hr) (w.faults_answer time q)
  cases q with
  | «recall» k =>
    have hw := hquiet (by simp) rfl
    exact ⟨hw.keyed, hw.live, hw.same, hw.found, hw.read, hw.kept, hw.told, hw.shown⟩
  | service k =>
    have hw := hquiet (by simp) rfl
    rcases x with e | found
    · exact hw
    · obtain ⟨rfl, entry, hc⟩ := hq.1
      obtain rfl := World.answer_service hx
      have hcalm := List.suffix_nil.mp (World.calm_of_service hx ▸ (w.faults_answer time (.service k)).1)
      obtain ⟨svc, hs, hcore, hshown⟩ := service?_eq_some h.live
      rw [hs]
      refine ⟨hw.keyed, hw.live, hw.same, ?_, hw.read, hw.kept, hw.told, fun _ _ svc' hs' => ?_⟩
      · rintro _ ⟨⟩
        exact ⟨⟨svc, rfl, hcore⟩, hcalm⟩
      · obtain rfl := Option.some.inj (Option.some.inj hs')
        exact (w.shown?_answer time (by simp) _).trans hshown
  | nodes =>
    have hw := hquiet (by simp) rfl
    rcases x with e | l
    · exact hw
    · obtain rfl := World.answer_nodes hx
      have hcalm := List.suffix_nil.mp (World.calm_of_nodes hx ▸ (w.faults_answer time .nodes).2)
      refine ⟨hw.keyed, hw.live, hw.same, hw.found, ?_, hw.kept, hw.told, hw.shown⟩
      rintro _ ⟨⟩
      exact ⟨by rw [h.same], hcalm⟩
  | lookup svc =>
    have hw := hquiet (by simp) rfl
    cases x <;> exact ⟨hw.keyed, hw.live, hw.same, hw.found, hw.read, hw.kept, hw.told, hw.shown⟩
  | ensure svc nodes =>
    have hw := hquiet (by simp) rfl
    cases x <;> exact ⟨hw.keyed, hw.live, hw.same, hw.found, hw.read, hw.kept, hw.told, hw.shown⟩
  | delete svc =>
    have hw := hquiet (by simp) rfl
    cases x <;> exact ⟨hw.keyed, hw.live, hw.same, hw.found, hw.read, hw.kept, hw.told, hw.shown⟩
  | forget k =>
    obtain ⟨_, _, hnone, _⟩ := hq.1
    exact ⟨h.keyed, h.live, h.same, h.found, h.read, (fun _ hk => by cases hnone.symm.trans hk), h.told, h.shown⟩
  | remember k entry =>
    obtain ⟨rfl, _⟩ := hq.1
    refine ⟨h.keyed, h.live, h.same, h.found, h.read, ?_, h.told, h.shown⟩
    rintro _ ⟨⟩
    rw [w.answer_cache time]
    simp [World.cacheAfter]
  | writeStatus svc status => exact h.publish hq.1 hx
  | _ => exact hquiet (by simp) rfl

/-- A sync of a service that is remembered as it is, and shows what is remembered, changes nothing but what is
remembered. -/
theorem run_of_remembered {entry : CacheEntry} (hc : w.cache.get? key = some entry)
    (hs : w.cluster.service? key.ns key.name = some svc) (hn : svc.needsBalancer = true) (hv : svc.info.uid.isSome)
    (hu : entry.uid = svc.info.uid)
    (hf : entry.fingerprint = some (svc.fingerprint settings.digest (svc.availableNodes w.cluster.nodes.values)))
    (ha : svc.balancerStatus.agrees entry.status = true) (hcalm : w.faults.service = [] ∧ w.faults.nodes = []) :
    ∃ w', (program settings key).run (World.answer time) w = (some (.ok ()), w') ∧
      ∃ cache metrics, w' = { w with cache, metrics } := by
  obtain ⟨uid, hv⟩ := Option.isSome_iff_exists.mp hv
  let post (_ : Unit) (w' : World) : Prop := ∃ cache metrics, w' = { w with cache, metrics }
  have hconverge : Succeeds time (converge settings key svc uid (some entry)) w post := by
    refine .bind (.bind (succeeds_granted ((run_request _ w).trans (World.answer_nodes_calm time hcalm.2)) ?_))
    simp only [hf, Option.filter_some, decide_true, if_true]
    refine succeeds_pure (.bind ?_)
    rw [publish, if_pos ha]
    exact succeeds_pure (succeeds_ask rfl ⟨_, _, rfl⟩)
  have hupdate : Succeeds time (update settings key (some entry) svc) w post := by
    simp only [update, hv, hn, if_true]
    refine .bind ?_
    simp only [sameIdentity, hu, hv, if_true]
    exact succeeds_pure hconverge
  have hservice := (run_request (.service key) w).trans (World.answer_service_calm time hcalm.1 key)
  have hall : Succeeds time (reconcile settings key) w post := by
    refine .bind (succeeds_ask rfl (.bind (succeeds_granted hservice ?_)))
    rw [hs, hc]
    exact hupdate
  refine hall.program ?_
  rintro _ metrics ⟨cache, _, rfl⟩
  exact ⟨cache, metrics, rfl⟩

/-- After a sync of a service that wants a balancer has gone well, with every status write taken that it made, the
next does so too, and calls no cloud, writes nothing to the cluster and records no event. Others may be at work
meanwhile, as long as they leave alone what the syncs go by. -/
theorem second_sync_idle {log : List (Program.Exchange Answer)} (hk : w.cluster.Keyed)
    (hs : w.cluster.service? key.ns key.name = some svc) (hn : svc.needsBalancer = true)
    (h₁ : Program.Amid World.answer (World.Spares key) (program settings key) [] w (.ok ()) log w₁)
    (hm : ∀ x ∈ log, missesWrite x = false) (h₂ : w₁.Spares key w₂) (time : Nat) :
    ∃ w₃, (program settings key).run (World.answer time) w₂ = (some (.ok ()), w₃) ∧ w₃.cloud = w₂.cloud ∧
      w₃.cluster = w₂.cluster ∧ w₃.journal = w₂.journal := by
  have hcore : w.cluster.core? key.slot = some svc.core := congrArg (Option.map Service.core) hs
  have hstart : Standing key svc.core w.cluster.nodes {} w :=
    ⟨hk, hcore, rfl, (fun _ h => by cases h), (fun _ h => by cases h), (fun _ h => by cases h),
      (fun _ h => by cases h), fun _ _ _ h => by cases h⟩
  obtain ⟨⟨hends, haccount⟩, hend⟩ := (obeys_bookkeeping settings key).amid (Standing key svc.core w.cluster.nodes)
    (fun _ _ _ h hw => h.spared hw) (fun _ _ _ _ _ _ hq h ha => h.exchange hq ha) rfl hstart h₁
  have hmissed : ((bookkeeping settings key).noted {} log).missed = false := missed_noted hm
  generalize (bookkeeping settings key).noted {} log = a at hends haccount hend hmissed
  -- What the first sync has read and remembered.
  obtain ⟨found, hfound⟩ := Option.isSome_iff_exists.mp (hends.asked rfl).2
  obtain ⟨⟨svc₁, rfl, hcore₁⟩, hcalm⟩ := hend.found found hfound
  have hn₁ : svc₁.needsBalancer = true := (Service.eq_of_core (·.needsBalancer) (fun _ => rfl) hcore₁).trans hn
  obtain ⟨all, status, hens, hkept⟩ := hends.vouched rfl svc₁ hfound hn₁
  obtain ⟨rfl, hcalm'⟩ := hend.read all hens.read
  obtain ⟨_, hkept', hshown⟩ := (haccount rfl).shown svc₁ hfound hn₁
  obtain rfl := Option.some.inj (hkept.symm.trans hkept')
  -- What the second sync finds.
  have hstands := hend.spared h₂
  obtain ⟨svc₂, hs₂, hcore₂, hshows⟩ := service?_eq_some hstands.live
  have hcore₁₂ : svc₁.core = svc₂.core := hcore₁.trans hcore₂.symm
  have huid : svc₁.info.uid = svc₂.info.uid := Service.eq_of_core (·.info.uid) (fun _ => rfl) hcore₁₂
  have hprint : svc₁.fingerprint settings.digest (svc₁.availableNodes w.cluster.nodes.values) =
      svc₂.fingerprint settings.digest (svc₂.availableNodes w₂.cluster.nodes.values) := by
    rw [hstands.same]
    exact Service.eq_of_core (fun svc => svc.fingerprint settings.digest (svc.availableNodes w.cluster.nodes.values))
      (fun _ => rfl) hcore₁₂
  have hagrees : svc₂.balancerStatus.agrees status = true := by
    rcases hshown with ht | hmiss | ⟨ht, hagrees⟩
    · rw [Option.some.inj (hshows.symm.trans (hstands.told _ ht))]
      exact BalancerStatus.agrees_refl status
    · cases hmissed.symm.trans hmiss
    · rw [Option.some.inj (hshows.symm.trans (hstands.shown ht hmissed svc₁ hfound))]
      exact hagrees
  have hn₂ : svc₂.needsBalancer = true := (Service.eq_of_core (·.needsBalancer) (fun _ => rfl) hcore₂).trans hn
  obtain ⟨_, hrun, _, _, rfl⟩ := @run_of_remembered settings key svc₂ w₂ time _ (hstands.kept _ hkept) hs₂ hn₂
    (huid ▸ hens.about.2.2) huid (congrArg some hprint) hagrees
    ⟨h₂.faults.1.trans hcalm, h₂.faults.2.trans hcalm'⟩
  exact ⟨_, hrun, rfl, rfl, rfl⟩

/-- The balancer is deleted and made anew, and then left alone. -/
theorem second_sync_idle_taken_over : ∃ log w₁ w₂,
    Program.Amid World.answer (World.Spares (.ofService (kiosk "u2"))) (program {} (.ofService (kiosk "u2"))) [] takenOver
      (.ok ()) log w₁ ∧ w₁.cloud.calls = [.delete "u2", .ensure "u2" ["n1"]] ∧
    (program {} (.ofService (kiosk "u2"))).run (World.answer 1000) w₁ = (some (.ok ()), w₂) ∧ w₂.cloud = w₁.cloud ∧
      w₂.cluster = w₁.cluster ∧ w₂.journal = w₁.journal := by
  let first := (program {} (.ofService (kiosk "u2"))).talk (World.answer 0) [] takenOver
  have h : first.1.any Except.isOk = true ∧ first.2.2.cloud.calls = [.delete "u2", .ensure "u2" ["n1"]] ∧
      ∀ x ∈ first.2.1, missesWrite x = false := by decide +kernel
  obtain ⟨hok, hcalls, hwrites⟩ := h
  obtain ⟨e | _, hr, hok⟩ := (Option.any_eq_true _ _).mp hok
  · cases hok
  have hfirst : Program.Amid World.answer (World.Spares (.ofService (kiosk "u2"))) (program {} (.ofService (kiosk "u2"))) []
      takenOver (.ok ()) first.2.1 first.2.2 := Program.amid_of_talk 0 (World.Spares.refl _) (by rw [← hr])
  have hkeyed : takenOver.cluster.Keyed := reachable_takenOver.keyed
  obtain ⟨w₂, hrun, hsame⟩ := second_sync_idle hkeyed rfl rfl hfirst hwrites (World.Spares.refl _ _) 1000
  exact ⟨_, _, w₂, hfirst, hcalls, hrun, hsame⟩

end Simulation
end ServiceBalancer
