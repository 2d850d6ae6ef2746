import ServiceBalancer.Proofs.Cloud.Names
import ServiceBalancer.Proofs.Simulation.Calls
import ServiceBalancer.Proofs.Simulation.OwnWrites

/-! What one sync does to the cloud, wherever it fails. It calls for one service only, so what another finds changes
only if the two find the same; but a service that wants no balancer is deleted twice if it has taken a name over, and
the second deletion takes what the service finds by then. -/
namespace ServiceBalancer
namespace MemoryCloud
variable {c c' c₁ : MemoryCloud} {svc other : Service} {nodes : List Node} {b x : Balancer}

/-- Whether a cloud has come from another in which the balancer of a service was to be deleted, once. -/
def Deletes (svc : Service) (c c' : MemoryCloud) : Prop :=
  c.Alike c' ∨ ∃ c₁, c.Alike c₁ ∧ (c₁.delete svc).2.Alike c'

/-- Whether a cloud has come from another in which the balancer of a service was to be created or updated, once. -/
def Pushes (svc : Service) (c c' : MemoryCloud) : Prop :=
  c.Alike c' ∨ ∃ c₁ nodes, c.Alike c₁ ∧ (c₁.ensure svc nodes).2.Alike c'

theorem Deletes.sound (h : c.Deletes svc c') (hs : c.Sound) : c'.Sound := by
  rcases h with ha | ⟨c₁, ha, ha'⟩
  · exact ha.sound hs
  · exact ha'.sound ((ha.sound hs).delete svc)

theorem Pushes.sound (h : c.Pushes svc c') (hs : c.Sound) : c'.Sound := by
  rcases h with ha | ⟨c₁, nodes, ha, ha'⟩
  · exact ha.sound hs
  · exact ha'.sound ((ha.sound hs).ensure svc nodes)

theorem Deletes.after (h : c₁.Deletes svc c') (ha : c.Alike c₁) : c.Deletes svc c' := by
  rcases h with ha' | ⟨c₂, ha₂, ha'⟩
  · exact .inl (ha.trans ha')
  · exact .inr ⟨c₂, ha.trans ha₂, ha'⟩

/-- What another finds stays as it is, unless the service has it now. -/
theorem Pushes.spares (h : c.Pushes svc c') (hs : c.Sound) (hf : c.find? other = some (some x)) :
    c'.find? other = some (some x) ∨ ∃ b, c'.find? svc = some (some b) ∧ b.id = x.id := by
  rcases h with ha | ⟨c₁, nodes, ha, ha'⟩
  · exact .inl ((ha.find? other).trans hf)
  · rw [ha'.find? other, ha'.find? svc]
    have hf₁ : c₁.find? other = some (some x) := (ha.find? other).trans hf
    rcases (ha.sound hs).ensure_other svc other nodes with he | ⟨b, _, hsvc, hid⟩
    · exact .inl (he.trans hf₁)
    · exact .inr ⟨b, hsvc, hid x hf₁⟩

/-- What another finds stays as it is, unless the service found it. -/
theorem Deletes.spares (h : c.Deletes svc c') (hs : c.Sound) (hf : c.find? other = some (some x)) :
    c'.find? other = some (some x) ∨ c.find? svc = some (some x) := by
  rcases h with ha | ⟨c₁, ha, ha'⟩
  · exact .inl ((ha.find? other).trans hf)
  · rw [ha'.find? other]
    rw [← ha.find? other] at hf
    rcases (ha.sound hs).delete_other svc other with he | ⟨b, hb, ho⟩
    · exact .inl (he.trans hf)
    · obtain rfl := Option.some.inj (Option.some.inj (ho.symm.trans hf))
      exact .inr ((ha.find? svc).symm.trans hb)

/-- A service that finds another balancer than before its deletion finds the next one of its name. -/
theorem Deletes.next (h : c.Deletes svc c') (hs : c.Sound) (hf : c'.find? svc = some (some x))
    (hne : ∀ b, c.find? svc = some (some b) → b.id ≠ x.id) : svc.givenBalancerId? = none ∧
      ∃ first, c.find? svc = some (some first) ∧
        ({ c with balancers := c.balancers.erase first.id }).find? svc = some (some x) := by
  -- what is found as before is out of the question
  have hother : c'.find? svc ≠ c.find? svc := fun he => hne x (he.symm.trans hf) rfl
  rcases h with ha | ⟨c₁, ha, ha'⟩
  · exact absurd (ha.find? svc) hother
  · rw [ha'.find? svc] at hf hother
    rcases c₁.delete_cases svc with ⟨ha₁, _⟩ | ⟨c₂, first, ha₁, hfirst, _, ⟨hg, he⟩ | ⟨_, he⟩⟩
    · exact absurd ((ha₁.find? svc).trans (ha.find? svc)) hother
    · have hbefore : c.find? svc = some (some first) := (ha.find? svc).symm.trans ((ha₁.find? svc).symm.trans hfirst)
      refine ⟨hg, first, hbefore, ?_⟩
      rw [← hf, he]
      simp only [find?, ha₁.1, ha.1]
    · have hbefore : c.find? svc = some (some first) := (ha.find? svc).symm.trans ((ha₁.find? svc).symm.trans hfirst)
      rw [he, (ha₁.sound (ha.sound hs)).find?_insert_same (d := { first with listeners := [], backends := [] }) hfirst rfl
        rfl c₂.allocated] at hf
      obtain rfl := Option.some.inj (Option.some.inj hf)
      exact absurd rfl (hne first hbefore)

/-- What another does not find any more is not there any more, if the service names no balancer by its id. -/
theorem Deletes.gone (h : c.Deletes svc c') (hs : c.Sound) (hg : svc.givenBalancerId? = none)
    (hf : c.find? other = some (some x)) (hf' : c'.find? other ≠ some (some x)) : c'.balancers.get? x.id = none := by
  rcases h with ha | ⟨c₁, ha, ha'⟩
  · exact absurd ((ha.find? other).trans hf) hf'
  · rw [ha'.find? other] at hf'
    rw [ha'.1]
    rcases c₁.delete_cases svc with ⟨ha₁, _⟩ | ⟨c₂, b, ha₁, hb, _, ⟨_, he⟩ | ⟨hid, _⟩⟩
    · exact absurd ((ha₁.find? other).trans ((ha.find? other).trans hf)) hf'
    · have hf₂ : c₂.find? other = some (some x) := (ha₁.find? other).trans ((ha.find? other).trans hf)
      have hbx : c₂.find? other = some (some b) := Decidable.byContradiction fun hne => by
        rw [he, find?_erase_other ((ha₁.sound (ha.sound hs)).get?_of_find? hb) hne] at hf'
        exact hf' hf₂
      obtain rfl := Option.some.inj (Option.some.inj (hbx.symm.trans hf₂))
      rw [he]
      simp
    · simp [hg] at hid

end MemoryCloud

namespace Simulation
open Sync

variable {settings : SyncSettings} {key : ServiceKey} {svc : Service} {uid : String} {time : Nat} {log : Log}
  {w w' : World}

/-! ### The parts of a sync -/

theorem comes_push_cloud {nodes : List Node} : Comes time (push key svc nodes) log w
    (fun _ _ w' => w.cloud.Pushes svc w'.cloud) (fun _ w' => w.cloud.Pushes svc w'.cloud) := by
  unfold push
  split
  case' isTrue =>
    refine .bind (comes_note rfl fun _ _ w₁ ha => ?_)
    have hcloud := ha.cloud
  case' isFalse =>
    let w₁ := w
    have hcloud : w₁.cloud = w.cloud := rfl
  all_goals
    have hpushed : w.cloud.Pushes svc (w₁.answer time (.ensure svc nodes)).2.cloud := by
      rw [w₁.answer_cloud time, hcloud]
      exact .inr ⟨w.cloud, nodes, .refl _, .refl _⟩
    refine .bind (comes_ask (fun r _ => ?_) fun _ => hpushed)
    refine .bind (comes_note rfl fun _ _ _ ha₂ => ?_)
    cases r with
    | error e =>
      refine .bind (comes_note rfl fun _ _ _ ha₃ => comes_throw ?_)
      rw [ha₃.cloud, ha₂.cloud]
      exact hpushed
    | ok status =>
      refine .bind (comes_note rfl fun _ _ _ ha₃ => comes_pure ?_)
      rw [ha₃.cloud, ha₂.cloud]
      exact hpushed

theorem comes_converge_cloud {cached : Option CacheEntry} : Comes time (converge settings key svc uid cached) log w
    (fun _ _ w' => w.cloud.Pushes svc w'.cloud) (fun _ w' => w.cloud.Pushes svc w'.cloud) := by
  have hquiet {log₁ log₂ : Log} {w₁ w₂ : World} (h : w.cloud.Pushes svc w₁.cloud) (hq : Quiet log₁ w₁ log₂ w₂) :
      w.cloud.Pushes svc w₂.cloud := hq.cloud ▸ h
  have hensured : Comes time (ensure settings key svc cached) log w
      (fun _ _ w' => w.cloud.Pushes svc w'.cloud) (fun _ w' => w.cloud.Pushes svc w'.cloud) := by
    refine .bind (comes_nodes (fun _ => ?_) fun _ e faults => .inl (.refl _))
    dsimp only
    split
    · exact comes_pure (.inl (.refl _))
    · refine .bind (comes_push_cloud.mono (fun status _ _ h₁ => ?_) fun _ _ h => h)
      exact .bind (comes_stampHash.mono (fun _ _ _ h₂ => comes_pure (hquiet h₁ h₂)) fun _ _ h₂ => hquiet h₁ h₂)
  refine .bind (hensured.mono (fun ensured _ _ h₁ => ?_) fun _ _ h => h)
  refine .bind (comes_publish.mono (fun _ _ _ h₂ => ?_) fun _ _ h₂ => hquiet h₁ h₂)
  have hpublished := hquiet h₁ h₂
  exact comes_ask (fun _ _ => hpublished) fun hn => by cases hn

theorem comes_delete_cloud : Comes time (delete settings svc) log w
    (fun _ _ w' => w.cloud.Deletes svc w'.cloud) (fun _ w' => w.cloud.Alike w'.cloud) := by
  refine comes_delete.mono (fun _ _ _ h => ?_) fun _ _ ⟨_, h⟩ => h.cloud
  obtain ⟨c, ha, _, he⟩ := h.cloud
  exact .inr ⟨c, ha, he ▸ .refl _⟩

theorem comes_tearDown_cloud : Comes time (tearDown settings key svc) log w
    (fun _ _ w' => w.cloud.Deletes svc w'.cloud) (fun _ w' => w.cloud.Deletes svc w'.cloud) := by
  have hexisting : Comes time (deleteExisting settings svc) log w
      (fun _ _ w' => w.cloud.Deletes svc w'.cloud) (fun _ w' => w.cloud.Deletes svc w'.cloud) := by
    have hlooked : w.cloud.Alike (w.answer time (.lookup svc)).2.cloud := by
      rw [w.answer_cloud time]
      exact w.cloud.lookup_alike svc
    refine .bind (comes_ask (fun r _ => ?_) fun _ => .inl hlooked)
    rcases r with e | _ | found
    · exact comes_throw (.inl hlooked)
    · exact comes_pure (.inl hlooked)
    · refine comes_delete_cloud.mono (fun _ _ _ h => ?_) fun _ _ h => ?_
      · exact h.after hlooked
      · exact .inl (hlooked.trans h)
  refine .bind (hexisting.mono (fun _ _ w₁ h₁ => ?_) fun _ _ h => h)
  refine .bind (comes_ask (fun _ _ => ?_) fun hn => by cases hn)
  have hquiet {log₁ log₂ : Log} {w₁ w₂ : World} (h : w.cloud.Deletes svc w₁.cloud) (hq : Quiet log₁ w₁ log₂ w₂) :
      w.cloud.Deletes svc w₂.cloud := hq.cloud ▸ h
  have hforgot : w.cloud.Deletes svc (w₁.answer time (.forget key)).2.cloud := h₁
  refine .bind (comes_clearHash.mono (fun _ _ _ h₂ => ?_) fun _ _ h₂ => hquiet hforgot h₂)
  exact comes_publish.mono (fun _ _ _ h₃ => hquiet (hquiet hforgot h₂) h₃) fun _ _ h₃ => hquiet (hquiet hforgot h₂) h₃

/-! ### Whole syncs -/

inductive CloudChanges (key : ServiceKey) (w : World) (c' : MemoryCloud) : Prop where
  | idle (h : w.cloud.Alike c')
  /-- The service is gone, and what is remembered of it is deleted. -/
  | gone (entry : CacheEntry) (hs : w.cluster.service? key.ns key.name = none)
      (he : w.cache.get? key = some entry) (h : w.cloud.Deletes entry.service c')
  /-- The service wants a balancer, before which a former one may be deleted. -/
  | converge (svc : Service) (c : MemoryCloud) (hs : w.cluster.service? key.ns key.name = some svc)
      (hd : w.cloud.Deletes svc c) (hp : c.Pushes svc c')
  /-- The service wants none. -/
  | tearDown (svc : Service) (hs : w.cluster.service? key.ns key.name = some svc) (h : w.cloud.Deletes svc c')
  /-- The service wants none, and has taken the name over from another one. -/
  | sweep (svc : Service) (entry : CacheEntry) (c : MemoryCloud)
      (hs : w.cluster.service? key.ns key.name = some svc) (hn : svc.needsBalancer = false)
      (he : w.cache.get? key = some entry) (hu : entry.uid ≠ svc.info.uid) (hd : w.cloud.Deletes svc c)
      (hd' : c.Deletes svc c')

theorem CloudChanges.sound {c' : MemoryCloud} (h : CloudChanges key w c') (hs : w.cloud.Sound) : c'.Sound := by
  cases h with
  | idle ha => exact ha.sound hs
  | gone entry _ _ hd => exact hd.sound hs
  | converge svc c _ hd hp => exact hp.sound (hd.sound hs)
  | tearDown svc _ hd => exact hd.sound hs
  | sweep svc entry c _ _ _ _ hd hd' => exact hd'.sound (hd.sound hs)

theorem comes_update_cloud (hs : w.cluster.service? key.ns key.name = some svc) :
    Comes time (update settings key (w.cache.get? key) svc) log w
      (fun _ _ w' => CloudChanges key w w'.cloud) (fun _ w' => CloudChanges key w w'.cloud) := by
  unfold update
  split
  · exact comes_throw (.idle (.refl _))
  · next uid hu =>
    have hrest : ∀ cached log₁ (w₁ : World), w.cloud.Deletes svc w₁.cloud →
        (w.cloud = w₁.cloud ∨ ∃ entry, w.cache.get? key = some entry ∧ entry.uid ≠ svc.info.uid) →
        Comes time (if svc.needsBalancer then converge settings key svc uid cached else tearDown settings key svc) log₁ w₁
          (fun _ _ w' => CloudChanges key w w'.cloud) (fun _ w' => CloudChanges key w w'.cloud) := by
      intro cached log₁ w₁ hd hcase
      split
      · exact comes_converge_cloud.mono (fun _ _ _ hp => .converge svc _ hs hd hp) fun _ _ hp => .converge svc _ hs hd hp
      · next hn =>
        have hdown : ∀ c', w₁.cloud.Deletes svc c' → CloudChanges key w c' := by
          intro c' hd'
          rcases hcase with he | ⟨entry, he, hne⟩
          · exact .tearDown svc hs (he ▸ hd')
          · exact .sweep svc entry _ hs (by simpa using hn) he hne hd hd'
        exact comes_tearDown_cloud.mono (fun _ _ w' => hdown w'.cloud) fun _ w' => hdown w'.cloud
    refine .bind ?_
    cases he : w.cache.get? key with
    | none => exact comes_pure (hrest none _ _ (.inl (.refl _)) (.inl rfl))
    | some entry =>
      by_cases hsame : entry.uid = some uid
      · simp only [sameIdentity, if_pos hsame]
        exact comes_pure (hrest _ _ _ (.inl (.refl _)) (.inl rfl))
      · simp only [sameIdentity, if_neg hsame]
        refine .bind (comes_delete_cloud.mono (fun _ _ _ hd => comes_pure ?_) fun _ _ ha => .idle ha)
        exact hrest none _ _ hd (.inr ⟨entry, he, fun h => hsame (h.trans hu)⟩)

/-- Whatever fails in it, a sync that runs by itself calls for one service only. -/
theorem sync_cloudChanges (settings : SyncSettings) (key : ServiceKey) (w : World) (time : Nat) :
    CloudChanges key w ((program settings key).talk (World.answer time) [] w).2.2.cloud := by
  have hreconcile : Comes time (reconcile settings key) [] w (fun _ _ w' => CloudChanges key w w'.cloud)
      (fun _ w' => CloudChanges key w w'.cloud) := by
    refine comes_reading (fun _ _ _ => .idle (.refl _)) (fun svc _ hs => comes_update_cloud hs)
      (fun entry _ hs he => ?_) fun _ _ _ => .idle (.refl _)
    exact comes_delete_cloud.mono (fun _ _ _ h => .gone entry hs he h) fun _ _ h => .idle h
  have hall := comes_program hreconcile (fun _ _ _ _ ha h => ha.cloud ▸ h) fun _ _ _ _ ha h => ha.cloud ▸ h
  exact hall.always

/-! ### What others find -/

/-- The services that a key stands for: the one that the cluster has, and the one that is remembered. -/
def World.known (w : World) (key : ServiceKey) : List Service :=
  (w.cluster.service? key.ns key.name).toList ++ ((w.cache.get? key).map CacheEntry.service).toList

/-- Whether none of the services that a key stands for finds a balancer. -/
def World.Disowns (w : World) (key : ServiceKey) (b : Balancer) : Prop :=
  ∀ svc ∈ w.known key, ∀ found ∈ (w.cloud.find? svc).join, found.id ≠ b.id

instance (w : World) (key : ServiceKey) (b : Balancer) : Decidable (w.Disowns key b) :=
  inferInstanceAs (Decidable (∀ svc ∈ _, ∀ found ∈ _, _))

theorem World.Disowns.live {b found : Balancer} (h : w.Disowns key b)
    (hs : w.cluster.service? key.ns key.name = some svc) (hf : w.cloud.find? svc = some (some found)) : found.id ≠ b.id :=
  h svc (by simp [World.known, hs]) found (by simp [hf])

theorem World.Disowns.remembered {b found : Balancer} {entry : CacheEntry} (h : w.Disowns key b)
    (he : w.cache.get? key = some entry) (hf : w.cloud.find? entry.service = some (some found)) : found.id ≠ b.id :=
  h entry.service (by simp [World.known, he]) found (by simp [hf])

/-- Whether a balancer has gone with that of a service which wants none and has taken its name over: the two bore one
name, so that the service found this one when the first was gone, and was told to delete it too. -/
structure Swept (key : ServiceKey) (w w' : World) (b : Balancer) : Prop where
  cause : ∃ svc entry first, w.cluster.service? key.ns key.name = some svc ∧ svc.needsBalancer = false ∧
    w.cache.get? key = some entry ∧ entry.uid ≠ svc.info.uid ∧ svc.givenBalancerId? = none ∧
    w.cloud.find? svc = some (some first) ∧ first.id ≠ b.id ∧
    ({ w.cloud with balancers := w.cloud.balancers.erase first.id }).find? svc = some (some b)
  gone : w'.cloud.balancers.get? b.id = none

/-- A service that is there after a sync has the core of the one that was there before. -/
theorem Wrote.live (h : Wrote key w w') (hs : w.cluster.service? key.ns key.name = some svc) :
    ∃ now, w'.cluster.service? key.ns key.name = some now ∧ now.core = svc.core := by
  obtain ⟨writes, _, hcluster⟩ := h
  have hcore := w.cluster.core?_takeAll writes key.slot
  rw [← hcluster, MemoryCluster.core?, MemoryCluster.core?,
    show w.cluster.services.get? key.slot = some svc from hs] at hcore
  exact Option.map_eq_some_iff.mp hcore

theorem CloudChanges.spares {other : Service} {b : Balancer} (h : CloudChanges key w w'.cloud) (hw : Wrote key w w')
    (hs : w.cloud.Sound) (hf : w.cloud.find? other = some (some b)) (hbefore : w.Disowns key b)
    (hafter : w'.Disowns key b) : w'.cloud.find? other = some (some b) ∨ Swept key w w' b := by
  -- a deletion for a service of the key leaves it
  have hspared {svc : Service} {c' : MemoryCloud} (hd : w.cloud.Deletes svc c')
      (hne : w.cloud.find? svc ≠ some (some b)) : c'.find? other = some (some b) :=
    (hd.spares hs hf).resolve_right hne
  have hlive {svc : Service} (hl : w.cluster.service? key.ns key.name = some svc) : w.cloud.find? svc ≠ some (some b) :=
    fun hown => hbefore.live hl hown rfl
  cases h with
  | idle ha => exact .inl ((ha.find? other).trans hf)
  | gone entry _ he hd => exact .inl (hspared hd fun hown => hbefore.remembered he hown rfl)
  | tearDown svc hl hd => exact .inl (hspared hd (hlive hl))
  | converge svc c hl hd hp =>
    refine .inl ((hp.spares (hd.sound hs) (hspared hd (hlive hl))).resolve_right ?_)
    rintro ⟨found, hfound, hid⟩
    obtain ⟨now, hnow, hcore⟩ := hw.live hl
    have hfind : w'.cloud.find? now = w'.cloud.find? svc := Service.eq_of_core w'.cloud.find? (fun _ => rfl) hcore
    exact hafter.live hnow (hfind.trans hfound) hid
  | sweep svc entry c hl hn he hu hd hd' =>
    by_cases hkept : w'.cloud.find? other = some (some b)
    · exact .inl hkept
    · have hc := hspared hd (hlive hl)
      have hnow : c.find? svc = some (some b) := (hd'.spares (hd.sound hs) hc).resolve_left hkept
      obtain ⟨hg, first, hfirst, hnext⟩ := hd.next hs hnow fun found => hbefore.live hl
      exact .inr ⟨⟨svc, entry, first, hl, hn, he, hu, hg, hfirst, hbefore.live hl hfirst, hnext⟩,
        hd'.gone (hd.sound hs) hg hc hkept⟩

/-- A balancer of the controller is the first of its name, and so goes with no other. -/
theorem Swept.userManaged {b : Balancer} (h : Swept key w w' b) (hsole : ∀ name, w.cloud.Sole name) :
    b.userManaged = true := by
  obtain ⟨svc, entry, first, _, _, _, _, hg, hfirst, hne, hnext⟩ := h.cause
  refine (Bool.not_eq_false _).mp fun hown => hne ?_
  have hname := MemoryCloud.name_of_find? hg hnext
  simp only [MemoryCloud.find?, hg, hname, Option.map_some, Option.some.injEq] at hfirst hnext
  obtain ⟨id, _, hid⟩ := MemoryCloud.mem_erase_balancer (List.mem_of_find?_eq_some hnext)
  have hsame := (hsole b.name b (SortedMap.mem_values.mpr ⟨id, hid⟩) rfl hown).symm.trans hfirst
  rw [Option.some.inj hsame]

end Simulation
end ServiceBalancer
