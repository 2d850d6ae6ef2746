import ServiceBalancer.Proofs.Simulation.Outcomes

/-! The calls that one sync makes of the cloud, and their order. They depend on what the cluster has under the key and
on the UID that is remembered; a balancer that is in use is never torn down. -/
namespace ServiceBalancer
namespace Simulation
open Sync

variable {time : Nat} {settings : SyncSettings} {key : ServiceKey} {svc : Service} {uid : String} {n : Nat}
  {log log' log'' : Log} {w w' w'' : World}

theorem calls_answer (time : Nat) (w : World) (q : Request) :
    (w.answer time q).2.cloud.calls = w.cloud.calls ++ calls q := by
  rw [w.answer_cloud time q]
  cases q with
  | lookup svc => exact (w.cloud.notes_lookup svc).calls
  | ensure svc nodes => exact (w.cloud.notes_ensure svc nodes).calls
  | delete svc => exact (w.cloud.notes_delete svc).calls
  | _ => exact (List.append_nil _).symm

/-! ### Deletions -/

/-- Whether a sync was told that the balancer of a service is deleted. -/
def Deleted (svc : Service) (log : Log) : Prop := ⟨.delete svc, .ok ()⟩ ∈ log

theorem Quiet.deleted (h : Quiet log w log' w') : Deleted svc log' ↔ Deleted svc log :=
  h.mem_log (by simp [calls])

structure Tried (svc : Service) (n : Nat) (log : Log) (w : World) (log' : Log) (w' : World) : Prop where
  told : ∀ s, Deleted s log' ↔ Deleted s log
  calls : w'.cloud.calls = w.cloud.calls ++ List.replicate n (.delete (svc.info.uid.getD ""))
  cloud : w.cloud.Alike w'.cloud
  cache : w'.cache = w.cache
  cluster : w'.cluster = w.cluster
  faults : w'.faults = w.faults

/-- What a deletion leaves, after the tries that failed: the service is forgotten. -/
structure Removed (svc : Service) (log : Log) (w : World) (log' : Log) (w' : World) : Prop where
  told : ∀ s, Deleted s log' ↔ s = svc ∨ Deleted s log
  calls : ∃ n, w'.cloud.calls = w.cloud.calls ++ List.replicate (n + 1) (.delete (svc.info.uid.getD ""))
  cloud : ∃ c, w.cloud.Alike c ∧ (c.delete svc).1 = some (.ok ()) ∧ w'.cloud = (c.delete svc).2
  cache : w'.cache = w.cache.erase (.ofService svc)
  cluster : w'.cluster = w.cluster
  faults : w'.faults = w.faults

theorem Tried.refl (svc : Service) (log : Log) (w : World) : Tried svc 0 log w log w :=
  ⟨fun _ => Iff.rfl, by simp, ⟨rfl, rfl⟩, rfl, rfl, rfl⟩

theorem Tried.aside (h : Tried svc n log w log' w') (ha : Aside log' w' log'' w'') : Tried svc n log w log'' w'' where
  told s := ha.toQuiet.deleted.trans (h.told s)
  calls := by rw [ha.cloud, h.calls]
  cloud := by rw [ha.cloud]; exact h.cloud
  cache := ha.cache.trans h.cache
  cluster := ha.cluster.trans h.cluster
  faults := ha.faults.trans h.faults

theorem Removed.aside (h : Removed svc log w log' w') (ha : Aside log' w' log'' w'') :
    Removed svc log w log'' w'' where
  told s := ha.toQuiet.deleted.trans (h.told s)
  calls := by rw [ha.cloud]; exact h.calls
  cloud := by rw [ha.cloud]; exact h.cloud
  cache := ha.cache.trans h.cache
  cluster := ha.cluster.trans h.cluster
  faults := ha.faults.trans h.faults

/-- One more try that fails. -/
theorem Tried.again (h : Tried svc n log w log' w') (hr : (w'.answer time (.delete svc)).1 ≠ some (.ok ()))
    (hlog : ∀ s, Deleted s log'' ↔ Deleted s log') :
    Tried svc (n + 1) log w log'' (w'.answer time (.delete svc)).2 := by
  obtain ⟨journal, he⟩ := w'.answer_delete_whole time svc
  have hcalls := calls_answer time w' (.delete svc)
  rw [he] at hr hcalls ⊢
  have halike := MemoryCloud.delete_failed hr
  refine ⟨fun s => (hlog s).trans (h.told s), ?_, ?_, h.cache, h.cluster, h.faults⟩
  · rw [hcalls, h.calls, List.replicate_succ', List.append_assoc]
    rfl
  · exact ⟨halike.1.trans h.cloud.1, halike.2.trans h.cloud.2⟩

theorem comes_deleteOnce (h : Tried svc n log w log' w') :
    Comes time (deleteOnce svc) log' w' (fun _ => Removed svc log w) (Tried svc (n + 1) log w) := by
  refine .bind (comes_ask (fun r hr => ?_) fun hr => ?_)
  · rcases r with e | ⟨⟩
    · have hfailed : Tried svc (n + 1) log w (⟨.delete svc, .error e⟩ :: log') (w'.answer time (.delete svc)).2 :=
        h.again (by simp [hr]) fun s => by simp [Deleted]
      refine .bind (comes_note rfl fun _ log₂ w₂ ha => comes_throw ?_)
      exact hfailed.aside ha
    · obtain ⟨journal, he⟩ := w'.answer_delete_whole time svc
      have hcalls := calls_answer time w' (.delete svc)
      rw [he] at hr hcalls ⊢
      refine .bind (comes_note rfl fun _ log₁ w₁ ha₁ => .bind (comes_note rfl fun _ log₂ w₂ ha₂ => ?_))
      have ha := ha₁.trans ha₂
      refine comes_ask (fun _ _ => ?_) fun hn => by cases hn
      refine ⟨fun s => ?_, ⟨n, ?_⟩, ⟨w'.cloud, h.cloud, hr, ha.cloud⟩, ?_, ha.cluster.trans h.cluster,
        ha.faults.trans h.faults⟩
      · have hforget : Deleted s (⟨.forget (.ofService svc), ()⟩ :: log₂) ↔ Deleted s log₂ := by simp [Deleted]
        have hdelete : Deleted s (⟨.delete svc, .ok ()⟩ :: log') ↔ s = svc ∨ Deleted s log' := by
          simp [Deleted]
        rw [hforget, ha.toQuiet.deleted, hdelete, h.told s]
      · change w₂.cloud.calls = _
        rw [ha.cloud, hcalls, h.calls, List.replicate_succ', List.append_assoc]
        rfl
      · change w₂.cache.erase _ = _
        rw [ha.cache, ← h.cache]
  · exact h.again (by simp [hr]) fun _ => Iff.rfl

/-- A deletion is tried at least once, and the service is forgotten as soon as a try succeeds. -/
theorem comes_delete : Comes time (delete settings svc) log w (fun _ => Removed svc log w)
    (fun log' w' => ∃ n, Tried svc (n + 1) log w log' w') := by
  refine Comes.retrying (fun log' w' => ∃ n, Tried svc n log w log' w') ?_ ?_ ?_ ⟨0, .refl svc log w⟩
  · rintro log' w' ⟨n, h⟩
    exact ⟨n + 1, h⟩
  · rintro log' w' log'' ha ⟨n, h⟩
    exact ⟨n, h.aside ha⟩
  · rintro log' w' ⟨n, h⟩
    exact (comes_deleteOnce h).mono (fun _ _ _ h => h) fun _ _ h => ⟨n, h⟩

/-! ### Parts without a call -/

theorem comes_publish {status : BalancerStatus} :
    Comes time (publish settings key svc status) log w (fun _ => Quiet log w) (Quiet log w) := by
  unfold publish
  split
  · exact comes_pure (.refl log w)
  · refine Comes.retrying (Quiet log w) (fun _ _ h => h) (fun _ _ _ ha h => h.trans ha.toQuiet) ?_ (.refl log w)
    intro log' w' h
    refine .bind (comes_ask (fun r _ => ?_) fun hn => by cases hn)
    have hquiet := h.trans (quiet_ask time log' w' (.writeStatus svc status) rfl (fun _ => rfl) r)
    rcases r with (_ | _ | e) | _
    · exact comes_pure hquiet
    · exact comes_throw hquiet
    · exact comes_throw hquiet
    · exact comes_pure hquiet

theorem comes_stampHash : Comes time (stampHash settings svc) log w (fun _ => Quiet log w) (Quiet log w) := by
  simp only [stampHash]
  split
  · exact comes_pure (.refl log w)
  · change Comes time (ask (.setHash svc (svc.hash settings.digest)) >>= fun r => ExceptT.mk (.done r)) _ _ _ _
    refine .bind (comes_ask (fun r _ => ?_) fun hn => by cases hn)
    have hquiet := quiet_ask time log w (.setHash svc (svc.hash settings.digest)) rfl (fun _ => rfl) r
    cases r <;> exact hquiet

theorem comes_clearHash : Comes time (clearHash svc) log w (fun _ => Quiet log w) (Quiet log w) := by
  unfold clearHash
  split
  · change Comes time (ask (.removeHash svc) >>= fun r => ExceptT.mk (.done r)) _ _ _ _
    refine .bind (comes_ask (fun r _ => ?_) fun hn => by cases hn)
    have hquiet := quiet_ask time log w (.removeHash svc) rfl (fun _ => rfl) r
    cases r <;> exact hquiet
  · exact comes_pure (.refl log w)

/-! ### Parts with calls -/

structure Called (made : List CloudCall) (log : Log) (w : World) (log' : Log) (w' : World) : Prop where
  told : ∀ s, Deleted s log' ↔ Deleted s log
  calls : w'.cloud.calls = w.cloud.calls ++ made

theorem Quiet.called (h : Quiet log w log' w') : Called [] log w log' w' :=
  ⟨fun _ => h.deleted, by rw [h.cloud, List.append_nil]⟩

theorem Called.trans {made made' : List CloudCall} (h : Called made log w log' w') (h' : Called made' log' w' log'' w'') :
    Called (made ++ made') log w log'' w'' :=
  ⟨fun s => (h'.told s).trans (h.told s), by rw [h'.calls, h.calls, List.append_assoc]⟩

theorem Called.quiet {made : List CloudCall} (h : Called made log w log' w') (hq : Quiet log' w' log'' w'') :
    Called made log w log'' w'' := by
  have htrans := h.trans hq.called
  rwa [List.append_nil] at htrans

theorem called_ask (time : Nat) (log : Log) (w : World) (q : Request) (a : Answer q)
    (hq : ∀ s, q ≠ .delete s) : Called (calls q) log w (⟨q, a⟩ :: log) (w.answer time q).2 where
  told s := by
    refine ⟨fun hm => (List.mem_cons.mp hm).resolve_left fun he => ?_, .tail _⟩
    exact hq s (congrArg Program.Exchange.request he).symm
  calls := calls_answer time w q

theorem called_broken (time : Nat) (log : Log) (w : World) (q : Request) :
    Called (calls q) log w log (w.answer time q).2 := ⟨fun _ => Iff.rfl, calls_answer time w q⟩

theorem comes_push {nodes : List Node} : Comes time (push key svc nodes) log w
    (fun _ => Called [.ensure (svc.info.uid.getD "") (nodes.map Node.name)] log w)
    (Called [.ensure (svc.info.uid.getD "") (nodes.map Node.name)] log w) := by
  unfold push
  split
  case' isTrue =>
    refine .bind (comes_note rfl fun _ _ _ ha => ?_)
    have hquiet := ha.toQuiet
  case' isFalse => have hquiet := Quiet.refl log w
  all_goals
    refine .bind (comes_ask (fun r _ => ?_) fun _ => ?_)
    · have hcalled := hquiet.called.trans (called_ask time _ _ (.ensure svc nodes) r (by simp))
      refine .bind (comes_note rfl fun _ _ _ ha₂ => ?_)
      cases r with
      | error e => exact .bind (comes_note rfl fun _ _ _ ha₃ => comes_throw (hcalled.quiet (ha₂.trans ha₃).toQuiet))
      | ok status => exact .bind (comes_note rfl fun _ _ _ ha₃ => comes_pure (hcalled.quiet (ha₂.trans ha₃).toQuiet))
    · exact hquiet.called.trans (called_broken time _ _ (.ensure svc nodes))

/-- What making sure of a balancer calls for: it is created or updated at most once, and if nothing is remembered of it
the nodes alone can be in the way. -/
def Assured (svc : Service) (cached : Option CacheEntry) (log : Log) (w : World) (log' : Log) (w' : World) : Prop :=
  ∃ made, Called made log w log' w' ∧ (made = [] ∨ ∃ names, made = [.ensure (svc.info.uid.getD "") names]) ∧
    (cached = none → w.faults.nodes = [] → made ≠ [])

theorem Assured.quiet {cached : Option CacheEntry} (h : Assured svc cached log w log' w')
    (hq : Quiet log' w' log'' w'') : Assured svc cached log w log'' w'' := by
  obtain ⟨made, hcalled, hmade, hmust⟩ := h
  exact ⟨made, hcalled.quiet hq, hmade, hmust⟩

theorem comes_ensure {cached : Option CacheEntry} : Comes time (ensure settings key svc cached) log w
    (fun _ => Assured svc cached log w) (Assured svc cached log w) := by
  refine .bind (comes_nodes (fun _ => ?_) fun hf e faults => ?_)
  · have hquiet : Quiet log w (⟨.nodes, .ok w.cluster.nodes.values⟩ :: log) w := ⟨⟨[_], rfl, by simp [calls]⟩, rfl, rfl⟩
    dsimp only
    split
    · next entry hfilter =>
      refine comes_pure ⟨[], hquiet.called, .inl rfl, fun hnone => ?_⟩
      rw [hnone] at hfilter
      cases hfilter
    · have hassured : ∀ nodes log₁ w₁, Called [.ensure (svc.info.uid.getD "") nodes]
          (⟨.nodes, .ok w.cluster.nodes.values⟩ :: log) w log₁ w₁ → Assured svc cached log w log₁ w₁ :=
        fun nodes log₁ w₁ h => ⟨_, hquiet.called.trans h, .inr ⟨nodes, rfl⟩, fun _ _ => by simp⟩
      refine .bind (comes_push.mono (fun status log₁ w₁ h₁ => ?_) fun _ _ h => hassured _ _ _ h)
      refine .bind (comes_stampHash.mono (fun _ log₂ w₂ h₂ => comes_pure ?_) fun _ _ h₂ => ?_)
      · exact hassured _ _ _ (h₁.quiet h₂)
      · exact hassured _ _ _ (h₁.quiet h₂)
  · have hquiet : Quiet log w (⟨.nodes, .error e⟩ :: log) { w with faults } := ⟨⟨[_], rfl, by simp [calls]⟩, rfl, rfl⟩
    exact ⟨[], hquiet.called, .inl rfl, fun _ hcalm => absurd hcalm hf⟩

theorem comes_converge {cached : Option CacheEntry} : Comes time (converge settings key svc uid cached) log w
    (fun _ log' w' => Assured svc cached log w log' w') (Assured svc cached log w) := by
  refine .bind (comes_ensure.mono (fun ensured log₁ w₁ h₁ => ?_) fun _ _ h => h)
  refine .bind (comes_publish.mono (fun _ log₂ w₂ h₂ => ?_) fun _ _ h₂ => h₁.quiet h₂)
  refine comes_ask (fun _ _ => ?_) fun hn => by cases hn
  obtain ⟨made, hcalled, hmade, hmust⟩ := h₁.quiet h₂
  have hremember : Called [] log₂ w₂ _ _ :=
    called_ask time log₂ w₂ (.remember key ⟨svc, some uid, ensured.status, some ensured.fingerprint⟩) () (by simp)
  have hall := hcalled.trans hremember
  rw [List.append_nil] at hall
  exact ⟨made, hall, hmade, hmust⟩

/-- What a teardown calls for: it looks for the balancer, and may try to delete it. -/
def Dismantled (svc : Service) (log : Log) (w : World) (log' : Log) (w' : World) : Prop :=
  (∀ s, Deleted s log → Deleted s log') ∧ ∃ n, w'.cloud.calls =
    w.cloud.calls ++ .lookup (svc.info.uid.getD "") :: List.replicate n (.delete (svc.info.uid.getD ""))

theorem Dismantled.called (h : Dismantled svc log w log' w') (hc : Called [] log' w' log'' w'') :
    Dismantled svc log w log'' w'' := by
  obtain ⟨htold, n, hcalls⟩ := h
  exact ⟨fun s hs => (hc.told s).mpr (htold s hs), n, by rw [hc.calls, hcalls, List.append_nil]⟩

theorem comes_deleteExisting : Comes time (deleteExisting settings svc) log w (fun _ => Dismantled svc log w)
    (Dismantled svc log w) := by
  refine .bind (comes_ask (fun r _ => ?_) fun _ => ?_)
  · have hlookup := called_ask time log w (.lookup svc) r (by simp)
    have hnone : Dismantled svc log w (⟨.lookup svc, r⟩ :: log) (w.answer time (.lookup svc)).2 :=
      ⟨fun s => (hlookup.told s).mpr, 0, hlookup.calls⟩
    rcases r with e | _ | found
    · exact comes_throw hnone
    · exact comes_pure hnone
    · refine comes_delete.mono (fun _ log₁ w₁ h₁ => ?_) fun log₁ w₁ h₁ => ?_
      · obtain ⟨n, hcalls⟩ := h₁.calls
        refine ⟨fun s hs => (h₁.told s).mpr (.inr ((hlookup.told s).mpr hs)), n + 1, ?_⟩
        rw [hcalls, hlookup.calls, List.append_assoc]
        rfl
      · obtain ⟨n, h₁⟩ := h₁
        refine ⟨fun s hs => (h₁.told s).mpr ((hlookup.told s).mpr hs), n + 1, ?_⟩
        rw [h₁.calls, hlookup.calls, List.append_assoc]
        rfl
  · have hbroken := called_broken time log w (.lookup svc)
    exact ⟨fun s => (hbroken.told s).mpr, 0, hbroken.calls⟩

theorem comes_tearDown : Comes time (tearDown settings key svc) log w
    (fun _ => Dismantled svc log w) (Dismantled svc log w) := by
  refine .bind (comes_deleteExisting.mono (fun _ log₁ w₁ h₁ => ?_) fun _ _ h => h)
  refine .bind (comes_ask (fun _ _ => ?_) fun hn => by cases hn)
  have h₂ := h₁.called (called_ask time log₁ w₁ (.forget key) () (by simp))
  refine .bind (comes_clearHash.mono (fun _ log₃ w₃ h₃ => ?_) fun _ _ h₃ => h₂.called h₃.called)
  have h₄ := h₂.called h₃.called
  exact comes_publish.mono (fun _ _ _ h₅ => h₄.called h₅.called) fun _ _ h₅ => h₄.called h₅.called

/-! ### Whole syncs -/

/-- What a sync calls for on behalf of a service that is remembered under its UID, or not at all. -/
inductive Visits (svc : Service) (uid : String) : List CloudCall → Prop where
  | spare : svc.needsBalancer = true → Visits svc uid []
  | push (names : List String) : svc.needsBalancer = true → Visits svc uid [.ensure uid names]
  | tearDown (n : Nat) : svc.needsBalancer = false → Visits svc uid (.lookup uid :: List.replicate n (.delete uid))

inductive Bill (key : ServiceKey) (w : World) (log : Log) (w' : World) : Prop where
  /-- The service could not be read, or there is nothing to be done for it. -/
  | idle : (w.faults.service ≠ [] ∨ w.cluster.service? key.ns key.name = none ∧ w.cache.get? key = none ∨
      ∃ svc, w.cluster.service? key.ns key.name = some svc ∧ svc.info.uid = none) →
    w'.cloud.calls = w.cloud.calls → w'.cluster.writes = w.cluster.writes → Bill key w log w'
  /-- The service is gone. -/
  | gone (entry : CacheEntry) (n : Nat) : w.faults.service = [] → w.cluster.service? key.ns key.name = none →
    w.cache.get? key = some entry →
    w'.cloud.calls = w.cloud.calls ++ List.replicate (n + 1) (.delete (entry.service.info.uid.getD "")) → Bill key w log w'
  /-- The service is remembered under its UID, or not at all. -/
  | known (svc : Service) (uid : String) (made : List CloudCall) : w.faults.service = [] →
    w.cluster.service? key.ns key.name = some svc → svc.info.uid = some uid →
    (∀ entry, w.cache.get? key = some entry → entry.uid = some uid) → Visits svc uid made →
    w'.cloud.calls = w.cloud.calls ++ made → Bill key w log w'
  /-- The service is remembered under another UID, and its balancer could not be deleted. -/
  | stuck (svc : Service) (uid : String) (entry : CacheEntry) (n : Nat) : w.faults.service = [] →
    w.cluster.service? key.ns key.name = some svc → svc.info.uid = some uid → w.cache.get? key = some entry →
    entry.uid ≠ some uid → ¬Deleted svc log →
    w'.cloud.calls = w.cloud.calls ++ List.replicate (n + 1) (.delete uid) → Bill key w log w'
  /-- The service was remembered under another UID. -/
  | replaced (svc : Service) (uid : String) (entry : CacheEntry) (n : Nat) (made : List CloudCall) :
    w.faults.service = [] → w.cluster.service? key.ns key.name = some svc → svc.info.uid = some uid → w.cache.get? key = some entry →
    entry.uid ≠ some uid → Deleted svc log → Visits svc uid made →
    (svc.needsBalancer = true → w.faults.nodes = [] → made ≠ []) →
    w'.cloud.calls = w.cloud.calls ++ (List.replicate (n + 1) (.delete uid) ++ made) → Bill key w log w'

theorem Bill.aside (h : Bill key w log' w') (ha : Aside log' w' log'' w'') : Bill key w log'' w'' := by
  have hcalls : w''.cloud.calls = w'.cloud.calls := by rw [ha.cloud]
  have hwrites : w''.cluster.writes = w'.cluster.writes := by rw [ha.cluster]
  cases h with
  | idle hwhy hc hw => exact .idle hwhy (hcalls.trans hc) (hwrites.trans hw)
  | gone entry n hf hs he hc => exact .gone entry n hf hs he (hcalls.trans hc)
  | known svc uid made hf hs hu he hv hc => exact .known svc uid made hf hs hu he hv (hcalls.trans hc)
  | stuck svc uid entry n hf hs hu he hne hd hc =>
    exact .stuck svc uid entry n hf hs hu he hne (fun hd' => hd (ha.toQuiet.deleted.mp hd')) (hcalls.trans hc)
  | replaced svc uid entry n made hf hs hu he hne hd hv hm hc =>
    exact .replaced svc uid entry n made hf hs hu he hne (ha.toQuiet.deleted.mpr hd) hv hm (hcalls.trans hc)

/-- What was called for on behalf of a service. If nothing is remembered of one that wants a balancer, the nodes alone
can be in the way of a call. -/
def Visited (svc : Service) (uid : String) (cached : Option CacheEntry) (log : Log) (w : World) (log' : Log)
    (w' : World) : Prop :=
  (∀ s, Deleted s log → Deleted s log') ∧ ∃ made, Visits svc uid made ∧ w'.cloud.calls = w.cloud.calls ++ made ∧
    (cached = none → svc.needsBalancer = true → w.faults.nodes = [] → made ≠ [])

/-- What a sync calls for once the memory is of the present UID. -/
theorem comes_visit {cached : Option CacheEntry} (hu : svc.info.uid = some uid) :
    Comes time (if svc.needsBalancer then converge settings key svc uid cached else tearDown settings key svc) log w
      (fun _ => Visited svc uid cached log w) (Visited svc uid cached log w) := by
  have huid : svc.info.uid.getD "" = uid := by rw [hu]; rfl
  split
  · next hn =>
    have hpush : ∀ log' w', Assured svc cached log w log' w' → Visited svc uid cached log w log' w' := by
      rintro log' w' ⟨made, hcalled, hmade, hmust⟩
      refine ⟨fun s => (hcalled.told s).mpr, made, ?_, hcalled.calls, fun hc _ => hmust hc⟩
      rcases hmade with rfl | ⟨names, rfl⟩
      · exact .spare hn
      · exact huid ▸ .push names hn
    exact comes_converge.mono (fun _ => hpush) hpush
  · next hn =>
    have hdown : ∀ log' w', Dismantled svc log w log' w' → Visited svc uid cached log w log' w' := by
      rintro log' w' ⟨htold, n, hcalls⟩
      rw [huid] at hcalls
      exact ⟨htold, _, .tearDown n (by simpa using hn), hcalls, fun _ hn' => absurd hn' hn⟩
    exact comes_tearDown.mono (fun _ => hdown) hdown

theorem comes_update (hf : w.faults.service = []) (hs : w.cluster.service? key.ns key.name = some svc)
    (hl : ¬Deleted svc log) :
    Comes time (update settings key (w.cache.get? key) svc) log w (fun _ => Bill key w) (Bill key w) := by
  unfold update
  split
  · next hu => exact comes_throw (.idle (.inr (.inr ⟨svc, hs, hu⟩)) rfl rfl)
  · next uid hu =>
    have huid : svc.info.uid.getD "" = uid := by rw [hu]; rfl
    -- an entry of the present UID stays, and so does the absence of one
    have known : ∀ cached, (∀ entry, w.cache.get? key = some entry → entry.uid = some uid) →
        Comes time (if svc.needsBalancer then converge settings key svc uid cached else tearDown settings key svc) log w
          (fun _ => Bill key w) (Bill key w) := by
      intro cached he
      have hbill : ∀ log₂ w₂, Visited svc uid cached log w log₂ w₂ → Bill key w log₂ w₂ := by
        rintro log₂ w₂ ⟨_, made, hv, hc, _⟩
        exact .known svc uid made hf hs hu he hv hc
      exact (comes_visit hu).mono (fun _ => hbill) hbill
    cases he : w.cache.get? key with
    | none => exact .bind (comes_pure (known none (by simp [he])))
    | some entry =>
      by_cases hsame : entry.uid = some uid
      · refine .bind ?_
        simp only [sameIdentity, if_pos hsame]
        refine comes_pure (known (some entry) fun x hx => ?_)
        obtain rfl := Option.some.inj (he.symm.trans hx)
        exact hsame
      · refine .bind ?_
        simp only [sameIdentity, if_neg hsame]
        refine .bind (comes_delete.mono (fun _ log₁ w₁ h₁ => comes_pure ?_) fun log₁ w₁ h₁ => ?_)
        · obtain ⟨n, hcalls⟩ := h₁.calls
          have hdeleted : Deleted svc log₁ := (h₁.told svc).mpr (.inl rfl)
          have hbill : ∀ log₂ w₂, Visited svc uid none log₁ w₁ log₂ w₂ → Bill key w log₂ w₂ := by
            rintro log₂ w₂ ⟨htold, made, hv, hc, hmust⟩
            rw [h₁.faults] at hmust
            refine .replaced svc uid entry n made hf hs hu he hsame (htold svc hdeleted) hv (hmust rfl) ?_
            rw [hc, hcalls, huid, List.append_assoc]
          exact (comes_visit hu).mono (fun _ => hbill) hbill
        · obtain ⟨n, h₁⟩ := h₁
          refine .stuck svc uid entry n hf hs hu he hsame (fun hd => hl ((h₁.told svc).mp hd)) ?_
          rw [h₁.calls, huid]

theorem comes_reconcile : Comes time (reconcile settings key) [] w (fun _ => Bill key w) (Bill key w) := by
  refine comes_reading (fun hf e faults => .idle (.inl hf) rfl rfl) (fun svc hcalm hs => ?_) (fun entry hcalm hs he => ?_)
    fun _ hs he => .idle (.inr (.inl ⟨hs, he⟩)) rfl rfl
  · exact comes_update hcalm hs (by simp [Deleted])
  · refine comes_delete.mono (fun _ log₁ w₁ h₁ => ?_) fun log₁ w₁ h₁ => ?_
    · obtain ⟨n, hcalls⟩ := h₁.calls
      exact .gone entry n hcalm hs he hcalls
    · obtain ⟨n, h₁⟩ := h₁
      exact .gone entry n hcalm hs he h₁.calls

/-- The calls of a sync that has gone from one world to another, with its exchanges. -/
structure CallsInOrder (key : ServiceKey) (w : World) (log : Log) (w' : World) : Prop where
  /-- A balancer in use is created or updated at most, and not even looked for. -/
  spared : ∀ svc, w.cluster.service? key.ns key.name = some svc → svc.needsBalancer = true →
    (∀ entry, w.cache.get? key = some entry → entry.uid = svc.info.uid) →
    w'.cloud.calls = w.cloud.calls ∨ ∃ names, w'.cloud.calls = w.cloud.calls ++ [.ensure (svc.info.uid.getD "") names]
  /-- None is made for a service that wants none, or is gone. -/
  unwanted : (∀ svc, w.cluster.service? key.ns key.name = some svc → svc.needsBalancer = false) →
    ∃ made, w'.cloud.calls = w.cloud.calls ++ made ∧ ∀ uid names, .ensure uid names ∉ made
  /-- A service that is remembered under another UID is deleted first. More is called for only if that succeeds, and
  what was remembered does not stand in for it. -/
  replaced : ∀ svc uid entry, w.cluster.service? key.ns key.name = some svc → svc.info.uid = some uid →
    w.cache.get? key = some entry → entry.uid ≠ some uid → w.faults.service = [] →
    ∃ n rest, w'.cloud.calls = w.cloud.calls ++ (List.replicate (n + 1) (.delete uid) ++ rest) ∧
      (rest ≠ [] → Deleted svc log) ∧
      (svc.needsBalancer = true → (rest = [] ∨ ∃ names, rest = [.ensure uid names]) ∧
        (Deleted svc log → w.faults.nodes = [] → rest ≠ []))
  /-- Where there is nothing to be done for a service, or it cannot be read, nothing is called for or written. -/
  idle : (w.faults.service ≠ [] ∨ w.cluster.service? key.ns key.name = none ∧ w.cache.get? key = none ∨
      ∃ svc, w.cluster.service? key.ns key.name = some svc ∧ svc.info.uid = none) →
    w'.cloud.calls = w.cloud.calls ∧ w'.cluster.writes = w.cluster.writes

theorem Bill.spared (h : Bill key w log w') (hs : w.cluster.service? key.ns key.name = some svc)
    (hn : svc.needsBalancer = true) (he : ∀ entry, w.cache.get? key = some entry → entry.uid = svc.info.uid) :
    w'.cloud.calls = w.cloud.calls ∨ ∃ names, w'.cloud.calls = w.cloud.calls ++ [.ensure (svc.info.uid.getD "") names] := by
  cases h with
  | idle _ hc _ => exact .inl hc
  | gone _ _ _ hs' => cases hs.symm.trans hs'
  | known svc' uid made _ hs' hu _ hv hc =>
    obtain rfl := Option.some.inj (hs.symm.trans hs')
    cases hv with
    | spare => exact .inl (by rw [hc, List.append_nil])
    | push names => exact .inr ⟨names, by rw [hc, hu]; rfl⟩
    | tearDown n hn' => cases hn.symm.trans hn'
  | stuck svc' uid entry n _ hs' hu he' hne =>
    obtain rfl := Option.some.inj (hs.symm.trans hs')
    exact absurd ((he entry he').trans hu) hne
  | replaced svc' uid entry n made _ hs' hu he' hne =>
    obtain rfl := Option.some.inj (hs.symm.trans hs')
    exact absurd ((he entry he').trans hu) hne

theorem Visits.unwanted {made : List CloudCall} (h : Visits svc uid made) (hn : svc.needsBalancer = false) (uid' : String)
    (names : List String) : .ensure uid' names ∉ made := by
  cases h with
  | spare hn' => cases hn.symm.trans hn'
  | push names hn' => cases hn.symm.trans hn'
  | tearDown n => simp [List.mem_replicate]

theorem Bill.unwanted (h : Bill key w log w')
    (hn : ∀ svc, w.cluster.service? key.ns key.name = some svc → svc.needsBalancer = false) :
    ∃ made, w'.cloud.calls = w.cloud.calls ++ made ∧ ∀ uid names, .ensure uid names ∉ made := by
  cases h with
  | idle _ hc _ => exact ⟨[], by rw [hc, List.append_nil], by simp⟩
  | gone entry n _ _ _ hc => exact ⟨_, hc, by simp [List.mem_replicate]⟩
  | known svc uid made _ hs _ _ hv hc => exact ⟨made, hc, hv.unwanted (hn svc hs)⟩
  | stuck svc uid entry n _ _ _ _ _ _ hc => exact ⟨_, hc, by simp [List.mem_replicate]⟩
  | replaced svc uid entry n made _ hs _ _ _ _ hv _ hc =>
    refine ⟨_, hc, fun uid' names hm => ?_⟩
    rcases List.mem_append.mp hm with hm | hm
    · simp [List.mem_replicate] at hm
    · exact hv.unwanted (hn svc hs) uid' names hm

theorem Bill.replaces {entry : CacheEntry} (h : Bill key w log w') (hs : w.cluster.service? key.ns key.name = some svc)
    (hu : svc.info.uid = some uid) (he : w.cache.get? key = some entry) (hne : entry.uid ≠ some uid)
    (hf : w.faults.service = []) :
    ∃ n rest, w'.cloud.calls = w.cloud.calls ++ (List.replicate (n + 1) (.delete uid) ++ rest) ∧
      (rest ≠ [] → Deleted svc log) ∧
      (svc.needsBalancer = true → (rest = [] ∨ ∃ names, rest = [.ensure uid names]) ∧
        (Deleted svc log → w.faults.nodes = [] → rest ≠ [])) := by
  cases h with
  | idle hwhy =>
    rcases hwhy with hf' | ⟨hs', _⟩ | ⟨svc', hs', hu'⟩
    · exact absurd hf hf'
    · cases hs.symm.trans hs'
    · obtain rfl := Option.some.inj (hs.symm.trans hs')
      cases hu.symm.trans hu'
  | gone _ _ _ hs' => cases hs.symm.trans hs'
  | known svc' uid' made _ hs' hu' he' =>
    obtain rfl := Option.some.inj (hs.symm.trans hs')
    obtain rfl := Option.some.inj (hu.symm.trans hu')
    exact absurd (he' entry he) hne
  | stuck svc' uid' entry' n _ hs' hu' _ _ hd hc =>
    obtain rfl := Option.some.inj (hs.symm.trans hs')
    obtain rfl := Option.some.inj (hu.symm.trans hu')
    exact ⟨n, [], by rw [hc, List.append_nil], fun h => absurd rfl h, fun _ => ⟨.inl rfl, fun hd' => absurd hd' hd⟩⟩
  | replaced svc' uid' entry' n made _ hs' hu' _ _ hd hv hm hc =>
    obtain rfl := Option.some.inj (hs.symm.trans hs')
    obtain rfl := Option.some.inj (hu.symm.trans hu')
    refine ⟨n, made, hc, fun _ => hd, fun hn => ⟨?_, fun _ => hm hn⟩⟩
    cases hv with
    | spare => exact .inl rfl
    | push names => exact .inr ⟨names, rfl⟩
    | tearDown n hn' => cases hn.symm.trans hn'

theorem Bill.rests (h : Bill key w log w') (hwhy : w.faults.service ≠ [] ∨
      w.cluster.service? key.ns key.name = none ∧ w.cache.get? key = none ∨
      ∃ svc, w.cluster.service? key.ns key.name = some svc ∧ svc.info.uid = none) :
    w'.cloud.calls = w.cloud.calls ∧ w'.cluster.writes = w.cluster.writes := by
  -- any service that there is has a UID
  have live : ∀ svc uid, w.faults.service = [] → w.cluster.service? key.ns key.name = some svc → svc.info.uid = some uid →
      w'.cloud.calls = w.cloud.calls ∧ w'.cluster.writes = w.cluster.writes := by
    intro svc uid hf hs hu
    rcases hwhy with hf' | ⟨hs', _⟩ | ⟨svc', hs', hu'⟩
    · exact absurd hf hf'
    · cases hs.symm.trans hs'
    · obtain rfl := Option.some.inj (hs.symm.trans hs')
      cases hu.symm.trans hu'
  cases h with
  | idle _ hc hw => exact ⟨hc, hw⟩
  | gone entry n hf hs he =>
    rcases hwhy with hf' | ⟨_, he'⟩ | ⟨svc', hs', _⟩
    · exact absurd hf hf'
    · cases he.symm.trans he'
    · cases hs.symm.trans hs'
  | known svc uid made hf hs hu => exact live svc uid hf hs hu
  | stuck svc uid entry n hf hs hu => exact live svc uid hf hs hu
  | replaced svc uid entry n made hf hs hu => exact live svc uid hf hs hu

/-- Whatever cluster, cloud and memory a sync meets that runs by itself, and whatever fails in it, its calls are in
order. -/
theorem sync_calls_in_order (time : Nat) (settings : SyncSettings) (key : ServiceKey) (w : World) :
    CallsInOrder key w ((program settings key).talk (World.answer time) [] w).2.1
      ((program settings key).talk (World.answer time) [] w).2.2 := by
  have hcomes : Comes time (ExceptT.mk (program settings key)) [] w (fun _ => Bill key w) (Bill key w) :=
    comes_program comes_reconcile (fun _ _ _ _ ha h => h.aside ha) fun _ _ _ _ ha h => h.aside ha
  have hbill := hcomes.always
  exact ⟨fun svc => hbill.spared, hbill.unwanted, fun svc uid entry => hbill.replaces, hbill.rests⟩

end Simulation
end ServiceBalancer
