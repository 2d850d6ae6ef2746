import ServiceBalancer.Proofs.Simulation.Calls
import ServiceBalancer.Proofs.Simulation.Reading
import ServiceBalancer.Proofs.Sync.Account
import ServiceBalancer.Worker

/-! What one sync does to the cache, wherever it fails: it forgets a service only when no balancer is left, and remembers
one only at its good end, as it was read and pushed by then. -/
namespace ServiceBalancer.Simulation
open Sync

variable {settings : SyncSettings} {key : ServiceKey} {svc : Service} {entry : CacheEntry} {time : Nat}
  {log log' : Log} {w w' : World} {c : Course} {a : Account} {q : Request} {x : Answer q}

structure Housed (key : ServiceKey) (w : World) : Prop where
  service : ∀ svc, w.cluster.service? key.ns key.name = some svc → .ofService svc = key
  entry : ∀ entry, w.cache.get? key = some entry → .ofService entry.service = key

theorem housed_of_proper (hkeyed : w.cluster.Keyed) (hkey : key.Proper)
    (hproper : ∀ svc, w.cluster.service? key.ns key.name = some svc → (ServiceKey.ofService svc).Proper)
    (hown : ∀ entry, w.cache.get? key = some entry → .ofService entry.service = key) : Housed key w := by
  refine ⟨fun svc hs => ?_, hown⟩
  have hslot : svc.info.key = key.slot := hkeyed _ _ hs
  exact (hproper svc hs).slot_injective hkey ((hproper svc hs).slot_eq.symm.trans hslot)

/-- Whether a sync was told that no balancer is left: it was deleted, or there was none of a service that wants none. -/
def Cleared (key : ServiceKey) (w : World) (log : Log) : Prop :=
  (∃ svc, Deleted svc log) ∨ ∃ svc, w.cluster.service? key.ns key.name = some svc ∧ svc.needsBalancer = false ∧
    ⟨.lookup svc, .ok none⟩ ∈ log

/-- Whether an entry is of the service and the nodes that a sync has met. Its status is what the cloud told, unless the
fingerprint was remembered already, with that status. -/
structure Written (settings : SyncSettings) (key : ServiceKey) (w : World) (log : Log) (entry : CacheEntry) : Prop where
  service : w.cluster.service? key.ns key.name = some entry.service
  wanted : entry.service.needsBalancer = true
  uid : entry.uid = entry.service.info.uid
  fingerprint : entry.fingerprint =
    some (entry.service.fingerprint settings.digest (entry.service.availableNodes w.cluster.nodes.values))
  status : ⟨.ensure entry.service (entry.service.availableNodes w.cluster.nodes.values), .ok entry.status⟩ ∈ log ∨
    ∃ old, w.cache.get? key = some old ∧ old.uid = entry.uid ∧ old.fingerprint = entry.fingerprint ∧
      old.status = entry.status

theorem Cleared.mono (h : Cleared key w log) (hl : log ⊆ log') : Cleared key w log' := by
  rcases h with ⟨svc, hd⟩ | ⟨svc, hs, hn, hm⟩
  · exact .inl ⟨svc, hl hd⟩
  · exact .inr ⟨svc, hs, hn, hl hm⟩

theorem Written.mono (h : Written settings key w log entry) (hl : log ⊆ log') : Written settings key w log' entry :=
  ⟨h.service, h.wanted, h.uid, h.fingerprint, h.status.imp_left fun hm => hl hm⟩

/-! ### What the cache has -/

/-- Whether a cache is as a sync has made it: only its own key has changed. -/
structure Recollection (key : ServiceKey) (w : World) (c : Course) (cache : Cache) : Prop where
  recalled : ∀ cached, c.recalled = some cached → cached = w.cache.get? key
  others : ∀ k, k ≠ key → cache.get? k = w.cache.get? k
  own : cache.get? key = c.kept.or (if c.forgot then none else w.cache.get? key)

theorem Recollection.start (key : ServiceKey) (w : World) : Recollection key w {} w.cache :=
  ⟨(fun _ h => by cases h), fun _ _ => rfl, rfl⟩

theorem Recollection.exchange (h : Recollection key w c w'.cache) (hq : c.Allows settings key q)
    (howed : ∀ svc, c.owed = some svc → .ofService svc = key) (hx : (w'.answer time q).1 = some x) :
    Recollection key w (c.note q x) (World.cacheAfter w'.cache q) := by
  cases q with
  | «recall» k =>
    obtain ⟨rfl, rfl⟩ := hq
    obtain rfl : w'.cache.get? k = x := Option.some.inj hx
    refine ⟨fun cached hc => ?_, h.others, h.own⟩
    rw [← Option.some.inj hc]
    exact h.own
  | remember k entry =>
    obtain ⟨rfl, _⟩ := hq
    refine ⟨h.recalled, fun k' hk => ?_, ?_⟩
    · rw [World.cacheAfter, SortedMap.get?_insert, if_neg (Ne.symm hk), h.others k' hk]
    · rw [World.cacheAfter, SortedMap.get?_insert, if_pos rfl]
      rfl
  | forget k =>
    obtain ⟨_, _, hkept, hwhy⟩ := hq
    obtain rfl : k = key := by
      rcases hwhy with ⟨svc, hs, rfl⟩ | ⟨_, rfl, _⟩
      · exact howed svc hs
      · rfl
    refine ⟨h.recalled, fun k' hk => ?_, ?_⟩
    · rw [World.cacheAfter, SortedMap.get?_erase, if_neg (Ne.symm hk), h.others k' hk]
    · rw [World.cacheAfter, SortedMap.get?_erase, if_pos rfl]
      simp [Course.note, hkept]
  | _ =>
    refine ⟨?_, h.others, ?_⟩
    · rw [Course.recalled_note (by simp)]
      exact h.recalled
    · rw [Course.kept_note (by simp), Course.forgot_note (by simp)]
      exact h.own

/-! ### What tells for it -/

structure Evidence (settings : SyncSettings) (key : ServiceKey) (w : World) (a : Account) (log : Log) : Prop where
  pushed : ∀ p, a.course.pushed = some p → ⟨.ensure p.service p.nodes, .ok p.status⟩ ∈ log
  owed : ∀ svc, a.course.owed = some svc → .ofService svc = key
  cleared : a.cleared = true → Cleared key w log
  forgot : a.course.forgot = true → Cleared key w log
  kept : ∀ entry, a.course.kept = some entry → ⟨.remember key entry, ()⟩ ∈ log ∧ Written settings key w log entry
  remembered : ∀ k entry, ⟨.remember k entry, ()⟩ ∈ log → k = key ∧ a.course.kept = some entry

theorem Evidence.start (settings : SyncSettings) (key : ServiceKey) (w : World) : Evidence settings key w {} [] :=
  ⟨(fun _ h => by cases h), (fun _ h => by cases h), (fun h => by cases h), (fun h => by cases h),
    (fun _ h => by cases h), fun _ _ h => by cases h⟩

/-- An exchange that remembers nothing takes nothing away. -/
theorem Evidence.later (h : Evidence settings key w a log) (hq : ∀ k entry, q ≠ .remember k entry) (x : Answer q) :
    Evidence settings key w a (⟨q, x⟩ :: log) where
  pushed p hp := .tail _ (h.pushed p hp)
  owed := h.owed
  cleared hc := (h.cleared hc).mono (List.subset_cons_self _ _)
  forgot hf := (h.forgot hf).mono (List.subset_cons_self _ _)
  kept entry he := ⟨.tail _ (h.kept entry he).1, (h.kept entry he).2.mono (List.subset_cons_self _ _)⟩
  remembered k entry hm := by
    rcases List.mem_cons.mp hm with he | hm
    · exact absurd (congrArg Program.Exchange.request he).symm (hq k entry)
    · exact h.remembered k entry hm

/-- An entry that a sync remembers is of what it has read and pushed. -/
theorem Evidence.written (h : Evidence settings key w a log) (hr : Reads key w a.course w')
    (hm : Recollection key w a.course w'.cache) {k : ServiceKey} (hq : a.course.Allows settings key (.remember k entry)) :
    Written settings key w log entry := by
  obtain ⟨_, _, svc, nodes, status, hens, rfl⟩ := hq
  obtain rfl := hr.nodes nodes hens.read
  refine ⟨(hr.found _ hens.about.2.1).symm, hens.wanted, rfl, rfl, ?_⟩
  rcases hens.made with hp | ⟨_, old, hold, hcurrent, hstatus⟩
  · exact .inl (h.pushed _ hp)
  · refine .inr ⟨old, ?_, hcurrent.1, hcurrent.2, hstatus⟩
    unfold Course.memory at hold
    split at hold
    · cases hold
    · obtain ⟨cached, hrecalled⟩ := Option.isSome_iff_exists.mp hens.about.1
      rw [hrecalled, Option.join_some] at hold
      rw [← hm.recalled cached hrecalled, hold]

theorem Evidence.exchange (h : Evidence settings key w a log) (hw : Housed key w) (hr : Reads key w a.course w')
    (hm : Recollection key w a.course w'.cache) (hq : (bookkeeping settings key).Allows a q) (x : Answer q) :
    Evidence settings key w (a.note q x) (⟨q, x⟩ :: log) := by
  by_cases hkeep : ∃ k entry, q = .remember k entry
  · obtain ⟨k, entry, rfl⟩ := hkeep
    have hwritten := (h.written hr hm hq.1).mono (List.subset_cons_self ⟨.remember k entry, x⟩ _)
    obtain ⟨⟨rfl, hnone, _⟩, _⟩ := hq
    refine ⟨fun p hp => .tail _ (h.pushed p hp), h.owed, fun hc => ?_, fun hf => ?_, fun _ he => ?_, fun k' e hm' => ?_⟩
    · exact (h.cleared hc).mono (List.subset_cons_self _ _)
    · exact (h.forgot hf).mono (List.subset_cons_self _ _)
    · obtain rfl := Option.some.inj he
      exact ⟨.head _, hwritten⟩
    · rcases List.mem_cons.mp hm' with he | hm'
      · cases he
        exact ⟨rfl, rfl⟩
      · cases hnone.symm.trans (h.remembered k' e hm').2
  · have h' := h.later (fun k entry he => hkeep ⟨k, entry, he⟩) x
    obtain ⟨hq, hbooks⟩ := hq
    cases q with
    | remember k entry => exact absurd ⟨k, entry, rfl⟩ hkeep
    | lookup svc =>
      refine ⟨h'.pushed, h'.owed, fun hc => ?_, h'.forgot, h'.kept, h'.remembered⟩
      rcases x with e | _ | found
      · exact h'.cleared hc
      · exact .inr ⟨svc, (hr.found _ hq.2.1.2.1).symm, hq.2.2, .head _⟩
      · cases hc
    | ensure svc nodes =>
      rcases x with e | status
      · exact h'
      · refine ⟨fun p hp => ?_, h'.owed, (fun hc => by cases hc), h'.forgot, h'.kept, h'.remembered⟩
        obtain rfl := Option.some.inj hp
        exact .head _
    | delete svc =>
      rcases x with e | ⟨⟩
      · exact h'
      · refine ⟨h'.pushed, fun s hs => ?_, fun _ => .inl ⟨svc, .head _⟩, h'.forgot, h'.kept, h'.remembered⟩
        obtain rfl := Option.some.inj hs
        obtain ⟨_, ⟨habout, _⟩ | ⟨_, entry, hrecalled, rfl⟩⟩ := hq
        · exact hw.service svc (hr.found _ habout.2.1).symm
        · exact hw.entry entry (hm.recalled _ hrecalled).symm
    | forget k =>
      exact ⟨h'.pushed, (fun _ hs => by cases hs), h'.cleared, fun _ => h'.cleared hbooks, h'.kept, h'.remembered⟩
    | service k => cases x <;> exact ⟨h'.pushed, h'.owed, h'.cleared, h'.forgot, h'.kept, h'.remembered⟩
    | nodes => cases x <;> exact ⟨h'.pushed, h'.owed, h'.cleared, h'.forgot, h'.kept, h'.remembered⟩
    | _ => exact ⟨h'.pushed, h'.owed, h'.cleared, h'.forgot, h'.kept, h'.remembered⟩

/-! ### Whole syncs -/

/-- What a sync has done to the cache by its end. -/
structure CacheChanges (settings : SyncSettings) (key : ServiceKey) (w : World) (outcome : SyncOutcome) (log : Log)
    (w' : World) : Prop where
  others : ∀ k, k ≠ key → w'.cache.get? k = w.cache.get? k
  /-- A sync that does not end well leaves the entry or drops it. -/
  failed : outcome ≠ some (.ok ()) → w'.cache.get? key = w.cache.get? key ∨ w'.cache.get? key = none
  dropped : w.cache.get? key ≠ none → w'.cache.get? key = none → Cleared key w log
  remembered : ∀ k entry, ⟨.remember k entry, ()⟩ ∈ log →
    k = key ∧ outcome = some (.ok ()) ∧ w'.cache.get? key = some entry ∧ Written settings key w log entry
  /-- An entry that was there before stays only if no other is remembered. -/
  origin : ∀ entry, w'.cache.get? key = some entry →
    ⟨.remember key entry, ()⟩ ∈ log ∨ w.cache.get? key = some entry ∧ ∀ k e, ⟨.remember k e, ()⟩ ∉ log
  /-- A sync that ends well has remembered a service that wants a balancer. -/
  vouched : outcome = some (.ok ()) → ∀ svc, w.cluster.service? key.ns key.name = some svc → svc.needsBalancer = true →
    ∃ entry, w'.cache.get? key = some entry ∧ ⟨.remember key entry, ()⟩ ∈ log

theorem cacheChanges_of_account {outcome : SyncOutcome} (hm : Recollection key w a.course w'.cache)
    (he : Evidence settings key w a log) (hkept : a.course.kept.isSome → outcome = some (.ok ()))
    (hvouched : outcome = some (.ok ()) → ∀ svc, w.cluster.service? key.ns key.name = some svc →
      svc.needsBalancer = true → a.course.kept.isSome) : CacheChanges settings key w outcome log w' := by
  have hown := hm.own
  constructor
  · exact hm.others
  · intro hne
    have hnone : a.course.kept = none := Option.not_isSome_iff_eq_none.mp fun hk => hne (hkept hk)
    rw [hnone, Option.none_or] at hown
    split at hown
    · exact .inr hown
    · exact .inl hown
  · intro hpresent hgone
    obtain ⟨_, hleft⟩ := Option.or_eq_none_iff.mp (hown.symm.trans hgone)
    split at hleft
    · next hforgot => exact he.forgot hforgot
    · exact absurd hleft hpresent
  · intro k entry hlog
    obtain ⟨rfl, hentry⟩ := he.remembered k entry hlog
    rw [hentry, Option.some_or] at hown
    exact ⟨rfl, hkept (by rw [hentry]; rfl), hown, (he.kept entry hentry).2⟩
  · intro entry hentry
    cases hk : a.course.kept with
    | some kept =>
      rw [hk, Option.some_or] at hown
      obtain rfl := Option.some.inj (hown.symm.trans hentry)
      exact .inl (he.kept _ hk).1
    | none =>
      rw [hk, Option.none_or] at hown
      split at hown
      · cases hown.symm.trans hentry
      · refine .inr ⟨hown.symm.trans hentry, fun k e hlog => ?_⟩
        cases hk.symm.trans (he.remembered k e hlog).2
  · intro hok svc hs hn
    obtain ⟨entry, hk⟩ := Option.isSome_iff_exists.mp (hvouched hok svc hs hn)
    rw [hk, Option.some_or] at hown
    exact ⟨entry, hown, (he.kept entry hk).1⟩

structure Midway (settings : SyncSettings) (key : ServiceKey) (w : World) (log : Log) (w' : World) : Prop where
  reads : Reads key w ((bookkeeping settings key).noted {} log).course w'
  memory : Recollection key w ((bookkeeping settings key).noted {} log).course w'.cache
  evidence : Evidence settings key w ((bookkeeping settings key).noted {} log) log

/-- Where a sync stands that has broken off: it has remembered nothing. -/
structure Broken (settings : SyncSettings) (key : ServiceKey) (w : World) (log : Log) (w' : World) : Prop where
  memory : Recollection key w ((bookkeeping settings key).noted {} log).course w'.cache
  evidence : Evidence settings key w ((bookkeeping settings key).noted {} log) log
  kept : ((bookkeeping settings key).noted {} log).course.kept = none

theorem Midway.exchange (h : Midway settings key w log w') (hw : Housed key w)
    (hq : (bookkeeping settings key).Allows ((bookkeeping settings key).noted {} log) q)
    (hx : (w'.answer time q).1 = some x) : Midway settings key w (⟨q, x⟩ :: log) (w'.answer time q).2 where
  reads := h.reads.exchange hq.1 hx
  memory := by
    rw [w'.answer_cache time q]
    exact h.memory.exchange hq.1 h.evidence.owed hx
  evidence := h.evidence.exchange hw h.reads h.memory hq x

theorem Midway.breaks (h : Midway settings key w log w')
    (hq : (bookkeeping settings key).Allows ((bookkeeping settings key).noted {} log) q)
    (hx : (w'.answer time q).1 = none) : Broken settings key w log (w'.answer time q).2 where
  memory := by
    rw [w'.answer_cache time q, World.cacheAfter_of_broken hx]
    exact h.memory
  evidence := h.evidence
  kept := kept_of_broken hq.1 hx

/-- Whatever cluster, cloud and cache a sync meets that runs by itself, and whatever fails in it, if what there is under
its key is of a service of that key, then no other entry is changed; its own stays, or is dropped where no balancer is
left, or is written at a good end. -/
theorem sync_changes_cache (hkeyed : w.cluster.Keyed) (hkey : key.Proper)
    (hproper : ∀ svc, w.cluster.service? key.ns key.name = some svc → (ServiceKey.ofService svc).Proper)
    (hown : ∀ entry, w.cache.get? key = some entry → .ofService entry.service = key) (settings : SyncSettings)
    (time : Nat) :
    CacheChanges settings key w ((program settings key).talk (World.answer time) [] w).1
      ((program settings key).talk (World.answer time) [] w).2.1
      ((program settings key).talk (World.answer time) [] w).2.2 := by
  have hw : Housed key w := housed_of_proper hkeyed hkey hproper hown
  have hstart : Midway settings key w [] w := ⟨.start key w, .start key w, .start settings key w⟩
  have hend := (obeys_bookkeeping settings key).talk_log (World.answer time) (Midway settings key w)
    (Broken settings key w) (fun _ _ _ _ hq h hx => h.exchange hw hq hx) (fun _ _ _ hq h hx => h.breaks hq hx) hstart
  rcases ht : (program settings key).talk (World.answer time) [] w with ⟨_ | result, log, w'⟩
  all_goals rw [ht] at hend
  · refine cacheChanges_of_account hend.memory hend.evidence (fun hk => ?_) fun hok => by cases hok
    rw [hend.kept] at hk
    cases hk
  · obtain ⟨⟨hends, _⟩, h⟩ := hend
    refine cacheChanges_of_account h.memory h.evidence (fun hk => congrArg some (hends.kept hk)) ?_
    intro hok svc hs hn
    have hok : result = .ok () := Option.some.inj hok
    obtain ⟨found, hfound⟩ := Option.isSome_iff_exists.mp (hends.asked hok).2
    obtain rfl := (h.reads.found found hfound).trans hs
    obtain ⟨_, _, _, hkept⟩ := hends.vouched hok svc hfound hn
    exact Option.isSome_of_eq_some hkept

def interrupted : World := { takenOver with cluster := takenOver.cluster.failStatus .conflict }

/-- The sync drops the former entry and pushes the new service, and yet remembers nothing when it fails. -/
theorem sync_changes_cache_interrupted : ∃ outcome log w',
    (program {} ⟨"default", "kiosk"⟩).talk (World.answer 0) [] interrupted = (outcome, log, w') ∧
      outcome.any Except.isOk = false ∧ w'.cloud.calls = [.delete "u2", .ensure "u2" ["n1"]] ∧
      interrupted.cache.get? ⟨"default", "kiosk"⟩ ≠ none ∧ w'.cache.get? ⟨"default", "kiosk"⟩ = none ∧
      Cleared ⟨"default", "kiosk"⟩ interrupted log := by
  have hkeyed : interrupted.cluster.Keyed := (MemoryCluster.Reachable.failStatus .conflict reachable_takenOver).keyed
  have hkey : (ServiceKey.mk "default" "kiosk").Proper := by decide
  have hproper : ∀ svc, interrupted.cluster.service? "default" "kiosk" = some svc → (ServiceKey.ofService svc).Proper := by
    have hlive : (interrupted.cluster.service? "default" "kiosk").map ServiceKey.ofService = some ⟨"default", "kiosk"⟩ := by
      decide +kernel
    intro svc hs
    rw [hs] at hlive
    rw [Option.some.inj hlive]
    exact hkey
  have hown : ∀ entry, interrupted.cache.get? ⟨"default", "kiosk"⟩ = some entry →
      .ofService entry.service = ServiceKey.mk "default" "kiosk" := by
    intro entry he
    obtain rfl := Option.some.inj he
    decide
  have hchanges := sync_changes_cache hkeyed hkey hproper hown {} 0
  have hrun : (fun u : Upshot Unit => u.1.any Except.isOk = false ∧
      u.2.2.cloud.calls = [.delete "u2", .ensure "u2" ["n1"]] ∧ u.2.2.cache.get? ⟨"default", "kiosk"⟩ = none)
      ((program {} ⟨"default", "kiosk"⟩).talk (World.answer 0) [] interrupted) := by
    decide +kernel
  obtain ⟨hfailed, hcalls, hgone⟩ := hrun
  have hpresent : interrupted.cache.get? ⟨"default", "kiosk"⟩ ≠ none := by decide
  exact ⟨_, _, _, rfl, hfailed, hcalls, hpresent, hgone, hchanges.dropped hpresent hgone⟩

end ServiceBalancer.Simulation
