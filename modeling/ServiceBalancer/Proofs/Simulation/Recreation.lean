import ServiceBalancer.Proofs.Cloud.Names
import ServiceBalancer.Proofs.Simulation.Calls
import ServiceBalancer.Proofs.Simulation.Reading
import ServiceBalancer.Proofs.Sync.Conduct

/-! A service that was deleted and created anew under its old name, in one go. Every call of its next sync is made for
the new one, so the balancer that was made for the former one under a name of its own stays where it is. -/
namespace ServiceBalancer
namespace MemoryCloud
variable {c c' c'' : MemoryCloud} {svc : Service} {name : String} {nodes : List Node}

/-- Whether all balancers of a name have stayed, and no other has come to it. At most the one that a service names by
its id is changed. -/
structure Preserves (svc : Service) (name : String) (c c' : MemoryCloud) : Prop where
  stays : ∀ id b, c.balancers.get? id = some b → b.name = name → ∃ b', c'.balancers.get? id = some b' ∧
    b'.name = name ∧ b'.userManaged = b.userManaged ∧ (svc.givenBalancerId? ≠ some id → b' = b)
  comes : ∀ id b', c'.balancers.get? id = some b' → b'.name = name → ∃ b, c.balancers.get? id = some b ∧
    b.name = name ∧ b'.userManaged = b.userManaged

theorem Preserves.refl (svc : Service) (name : String) (c : MemoryCloud) : c.Preserves svc name c :=
  ⟨fun _ b hb hn => ⟨b, hb, hn, rfl, fun _ => rfl⟩, fun _ b hb hn => ⟨b, hb, hn, rfl⟩⟩

theorem Preserves.trans (h : c.Preserves svc name c') (h' : c'.Preserves svc name c'') : c.Preserves svc name c'' := by
  constructor
  · intro id b hb hn
    obtain ⟨b', hb', hn', hu', hsame⟩ := h.stays id b hb hn
    obtain ⟨b'', hb'', hn'', hu'', hsame'⟩ := h'.stays id b' hb' hn'
    exact ⟨b'', hb'', hn'', hu''.trans hu', fun hid => (hsame' hid).trans (hsame hid)⟩
  · intro id b'' hb'' hn''
    obtain ⟨b', hb', hn', hu'⟩ := h'.comes id b'' hb'' hn''
    obtain ⟨b, hb, hn, hu⟩ := h.comes id b' hb' hn'
    exact ⟨b, hb, hn, hu'.trans hu⟩

theorem Alike.preserves (h : c.Alike c') : c.Preserves svc name c' := by
  constructor
  · intro id b hb hn
    exact ⟨b, h.1 ▸ hb, hn, rfl, fun _ => rfl⟩
  · intro id b hb hn
    exact ⟨b, h.1 ▸ hb, hn, rfl⟩

theorem Preserves.bears (h : c.Preserves svc name c') : c'.Bears name ↔ c.Bears name := by
  constructor
  · rintro ⟨b', hm, hn, hu⟩
    obtain ⟨id, hb'⟩ := SortedMap.mem_values.mp hm
    obtain ⟨b, hb, hbn, hbu⟩ := h.comes id b' hb' hn
    exact ⟨b, SortedMap.mem_values.mpr ⟨id, hb⟩, hbn, hbu.symm.trans hu⟩
  · rintro ⟨b, hm, hn, hu⟩
    obtain ⟨id, hb⟩ := SortedMap.mem_values.mp hm
    obtain ⟨b', hb', hbn, hbu, _⟩ := h.stays id b hb hn
    exact ⟨b', SortedMap.mem_values.mpr ⟨id, hb'⟩, hbn, hbu.trans hu⟩

/-- Whether a service does not find its balancer by a name. -/
def Elsewhere (svc : Service) (name : String) : Prop := svc.givenBalancerId? = none → svc.balancerName? ≠ some name

/-- What a service finds that is elsewhere has another name, or is the balancer that it names by its id. -/
theorem Elsewhere.of_find? {b : Balancer} (h : Elsewhere svc name) (hs : c.Sound) (hf : c.find? svc = some (some b)) :
    b.name ≠ name ∨ svc.givenBalancerId? = some b.id := by
  rcases hs.place_of_find? hf with hid | ⟨hg, hname⟩
  · exact .inr hid
  · exact .inl fun hn => h hg (hn ▸ hname)

/-- A balancer that is changed in place. -/
theorem Elsewhere.update {old b : Balancer} (h : Elsewhere svc name) (hs : c.Sound) (hf : c.find? svc = some (some old))
    (hi : b.id = old.id) (hn : b.name = old.name) (hu : b.userManaged = old.userManaged) (n : Nat) :
    c.Preserves svc name { c with allocated := n, balancers := c.balancers.insert b.id b } := by
  have hold := hs.get?_of_find? hf
  constructor
  · intro id x hx hxn
    by_cases hid : b.id = id
    · have hid' : old.id = id := hi ▸ hid
      obtain rfl : old = x := Option.some.inj (hold.symm.trans (hid' ▸ hx))
      have hgiven := (h.of_find? hs hf).resolve_left fun hne => hne hxn
      exact ⟨b, by simp [hid], hn.trans hxn, hu, fun hne => absurd (hid' ▸ hgiven) hne⟩
    · exact ⟨x, by simp [hid, hx], hxn, rfl, fun _ => rfl⟩
  · intro id x hx hxn
    dsimp only at hx
    rw [SortedMap.get?_insert] at hx
    split at hx
    · next hid =>
      obtain rfl := Option.some.inj hx
      exact ⟨old, hid ▸ hi ▸ hold, hn ▸ hxn, hu⟩
    · exact ⟨x, hx, hxn, rfl⟩

theorem Elsewhere.ensure (h : Elsewhere svc name) (hs : c.Sound) (nodes : List Node) :
    c.Preserves svc name (c.ensure svc nodes).2 := by
  rcases c.ensure_cases svc nodes with
    ⟨ha, _⟩ | ⟨c₁, b, n, ha, _, _, _, he, ⟨_, old, hf, hi, hn, hu⟩ | ⟨rfl, hf, hi, hg, hn, _⟩⟩
  · exact ha.preserves
  · rw [he]
    exact ha.preserves.trans (h.update (ha.sound hs) hf hi hn hu n)
  · rw [he]
    have hfree : c₁.balancers.get? b.id = none := hi ▸ (ha.sound hs).fresh _ (Nat.lt_succ_self _)
    have hbn : b.name ≠ name := fun hbn => h hg (hbn ▸ hn)
    refine ha.preserves.trans ⟨fun id x hx hxn => ?_, fun id x hx hxn => ?_⟩
    · have hid : b.id ≠ id := by
        rintro rfl
        cases hfree.symm.trans hx
      exact ⟨x, by simp [hid, hx], hxn, rfl, fun _ => rfl⟩
    · dsimp only at hx
      rw [SortedMap.get?_insert] at hx
      split at hx
      · obtain rfl := Option.some.inj hx
        exact absurd hxn hbn
      · exact ⟨x, hx, hxn, rfl⟩

theorem Elsewhere.delete (h : Elsewhere svc name) (hs : c.Sound) : c.Preserves svc name (c.delete svc).2 := by
  rcases c.delete_cases svc with ⟨ha, _⟩ | ⟨c₁, b, ha, hf, _, ⟨hg, he⟩ | ⟨_, he⟩⟩
  · exact ha.preserves
  · rw [he]
    have hb := (ha.sound hs).get?_of_find? hf
    have hbn : b.name ≠ name := (h.of_find? (ha.sound hs) hf).resolve_right (by simp [hg])
    refine ha.preserves.trans ⟨fun id x hx hxn => ?_, fun id x hx hxn => ?_⟩
    · have hid : b.id ≠ id := by
        rintro rfl
        obtain rfl := Option.some.inj (hb.symm.trans hx)
        exact hbn hxn
      exact ⟨x, by simp [hid, hx], hxn, rfl, fun _ => rfl⟩
    · dsimp only at hx
      rw [SortedMap.get?_erase] at hx
      split at hx
      · cases hx
      · exact ⟨x, hx, hxn, rfl⟩
  · rw [he]
    exact ha.preserves.trans
      (h.update (b := { b with listeners := [], backends := [] }) (ha.sound hs) hf rfl rfl rfl c₁.allocated)

end MemoryCloud

namespace Simulation
open Sync MemoryCloud

variable {settings : SyncSettings} {key : ServiceKey} {svc : Service} {name : String} {time : Nat} {log : Log}
  {w w' : World} {q : Request} {a : Answer q}

/-- Where a sync of a live service stands: all it has called for is about that one. -/
structure Devoted (settings : SyncSettings) (key : ServiceKey) (svc : Service) (name : String) (w : World) (log : Log)
    (w' : World) : Prop where
  sound : w'.cloud.Sound
  reads : Reads key w ((protocol settings key).noted {} log) w'
  kept : w.cloud.Preserves svc name w'.cloud
  told : ∀ s, Deleted s log → s = svc

/-- A service whose balancer is called for is the one that was read. -/
theorem Devoted.target (h : Devoted settings key svc name w log w')
    (hs : w.cluster.service? key.ns key.name = some svc)
    (hq : ((protocol settings key).noted {} log).Allows settings key q) :
    (∀ s nodes, q = .ensure s nodes → s = svc) ∧ ∀ s, q = .delete s → s = svc := by
  have about : ∀ s, ((protocol settings key).noted {} log).About s → s = svc := fun s habout =>
    Option.some.inj ((h.reads.found _ habout.2.1).trans hs)
  constructor
  · rintro s nodes rfl
    exact about s hq.1
  · rintro s rfl
    obtain ⟨_, ⟨habout, _⟩ | ⟨hgone, _⟩⟩ := hq
    · exact about s habout
    · cases (h.reads.found _ hgone).trans hs

theorem Devoted.preserves (h : Devoted settings key svc name w log w')
    (hs : w.cluster.service? key.ns key.name = some svc) (he : Elsewhere svc name)
    (hq : ((protocol settings key).noted {} log).Allows settings key q) :
    w.cloud.Preserves svc name (w'.answer time q).2.cloud := by
  obtain ⟨hensure, hdelete⟩ := h.target hs hq
  refine h.kept.trans ?_
  rw [w'.answer_cloud time q]
  cases q with
  | lookup s => exact (w'.cloud.lookup_alike s).preserves
  | ensure s nodes =>
    obtain rfl := hensure s nodes rfl
    exact he.ensure h.sound nodes
  | delete s =>
    obtain rfl := hdelete s rfl
    exact he.delete h.sound
  | _ => exact .refl svc name w'.cloud

theorem Devoted.exchange (h : Devoted settings key svc name w log w')
    (hs : w.cluster.service? key.ns key.name = some svc) (he : Elsewhere svc name)
    (hq : ((protocol settings key).noted {} log).Allows settings key q) (ha : (w'.answer time q).1 = some a) :
    Devoted settings key svc name w (⟨q, a⟩ :: log) (w'.answer time q).2 := by
  have hsound : (w'.answer time q).2.cloud.Sound := by
    rw [w'.answer_cloud time q]
    exact World.sound_cloudAfter h.sound q
  refine ⟨hsound, h.reads.exchange hq ha, h.preserves hs he hq, fun s hdeleted => ?_⟩
  rcases List.mem_cons.mp hdeleted with hx | hdeleted
  · exact (h.target hs hq).2 s (congrArg Program.Exchange.request hx).symm
  · exact h.told s hdeleted

/-- Whatever is remembered under the key of a live service, and whatever comes of its sync, balancers of another name
than its own stay as they are, but for one that it names by its id; so the balancer of a former service is left in the
cloud if and only if it was there. All that the sync deletes is of the live service. -/
theorem former_balancer_stays {w : World} (hc : w.cloud.Sound) (hs : w.cluster.service? key.ns key.name = some svc)
    (he : Elsewhere svc name) (settings : SyncSettings) (time : Nat) :
    w.cloud.Preserves svc name ((program settings key).talk (World.answer time) [] w).2.2.cloud ∧
      (((program settings key).talk (World.answer time) [] w).2.2.cloud.Bears name ↔ w.cloud.Bears name) ∧
      ∀ s, Deleted s ((program settings key).talk (World.answer time) [] w).2.1 → s = svc := by
  have hstart : Devoted settings key svc name w [] w :=
    ⟨hc, .start key w, .refl svc name w.cloud, fun _ h => by cases h⟩
  have hend := (obeys_program settings key).talk_log (World.answer time) (Devoted settings key svc name w)
    (fun log w' => w.cloud.Preserves svc name w'.cloud ∧ ∀ s, Deleted s log → s = svc)
    (fun _ _ _ _ hq h ha => h.exchange hs he hq ha) (fun _ _ _ hq h _ => ⟨h.preserves hs he hq, h.told⟩) hstart
  have hall : w.cloud.Preserves svc name ((program settings key).talk (World.answer time) [] w).2.2.cloud ∧
      ∀ s, Deleted s ((program settings key).talk (World.answer time) [] w).2.1 → s = svc := by
    rcases ht : (program settings key).talk (World.answer time) [] w with ⟨_ | result, log, w'⟩
    all_goals rw [ht] at hend
    · exact hend
    · exact ⟨hend.2.kept, hend.2.told⟩
  exact ⟨hall.1, hall.1.bears, hall.2⟩

/-- A world in which a balancer was made for a service whose name another one has taken over. -/
def inherited : World := { takenOver with cloud := (({} : MemoryCloud).ensure (kiosk "u1") []).2 }

/-- The service that has the name now, as the cluster has it. -/
def heir : Service := { kiosk "u2" with info := { (kiosk "u2").info with resourceVersion := some "1" } }

/-- A sync of the new service goes well, and the balancer of the former one is still there. -/
theorem former_balancer_stays_inherited :
    (inherited.cloud.Sound ∧ inherited.cluster.service? "default" "kiosk" = some heir ∧ Elsewhere heir "au1") ∧
      inherited.cloud.Bears "au1" ∧
      ((program {} ⟨"default", "kiosk"⟩).talk (World.answer 0) [] inherited).1.any Except.isOk = true ∧
      ((program {} ⟨"default", "kiosk"⟩).talk (World.answer 0) [] inherited).2.2.cloud.Bears "au1" := by
  have hc : inherited.cloud.Sound := (MemoryCloud.Reachable.ensure (kiosk "u1") [] (.new _)).sound
  have hs : inherited.cluster.service? "default" "kiosk" = some heir := by decide +kernel
  have he : Elsewhere heir "au1" := fun _ => by decide
  have hb : inherited.cloud.Bears "au1" := by decide +kernel
  obtain ⟨_, hstays, _⟩ := @former_balancer_stays ⟨"default", "kiosk"⟩ heir "au1" inherited hc hs he {} 0
  exact ⟨⟨hc, hs, he⟩, hb, by decide +kernel, hstays.mpr hb⟩

/-- The entry of the former service tells whose balancer is left, and yet the sync does not delete it. -/
theorem former_balancer_left_inherited :
    inherited.cache.get? ⟨"default", "kiosk"⟩ = some ⟨kiosk "u1", some "u1", {}, none⟩ ∧
      (kiosk "u1").balancerName? = some "au1" ∧ inherited.cloud.Bears "au1" ∧
      inherited.cluster.service? "default" "kiosk" = some heir ∧ heir.info.uid = some "u2" ∧
      heir.balancerName? = some "au2" ∧
      ¬(((program {} ⟨"default", "kiosk"⟩).run (World.answer 0) inherited).1.any Except.isOk = true →
        ¬((program {} ⟨"default", "kiosk"⟩).run (World.answer 0) inherited).2.cloud.Bears "au1") := by
  decide +kernel

end Simulation
end ServiceBalancer
