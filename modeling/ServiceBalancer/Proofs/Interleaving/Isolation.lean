import ServiceBalancer.Proofs.Cloud.Order
import ServiceBalancer.Proofs.Interleaving.NodeChanges
import ServiceBalancer.Proofs.Interleaving.Order
import ServiceBalancer.Proofs.Interleaving.Turns
import ServiceBalancer.Proofs.Simulation.CloudChanges

/-! What one sync leaves of all that is not its own. Whatever came before, each service is where it is looked up and each
entry is of the service of its key, so a sync changes no other entry, no other service, and no balancer of another. The
one exception is a balancer that bears the name of a second one. -/
namespace ServiceBalancer.Simulation
open Sync

variable {settings : SyncSettings} {key : ServiceKey} {svc : Service} {entry : CacheEntry} {time : Nat} {w : World}
  {c : Course} {q : Request} {a : Answer q}

/-- Whether everything is in its place: the services of the cluster, the entries of the cache, and the balancers of a
cloud that has only been used. -/
structure World.Placed (w : World) : Prop where
  services : ∀ slot svc, w.cluster.core? slot = some svc →
    (ServiceKey.ofService svc).Plain ∧ slot = (ServiceKey.ofService svc).slot
  entries : ∀ key entry, w.cache.get? key = some entry → ServiceKey.ofService entry.service = key
  cloud : w.cloud.Reachable

/-- What the cluster gives for a key is the service of that key. -/
theorem World.Placed.of_service? (h : w.Placed) (hs : w.cluster.service? key.ns key.name = some svc) :
    ServiceKey.ofService svc = key ∧ key.Plain := by
  have hstored : w.cluster.services.get? key.slot = some svc := hs
  obtain ⟨hplain, hslot⟩ := h.services key.slot svc.core (by rw [MemoryCluster.core?, hstored]; rfl)
  have hplain : (ServiceKey.ofService svc).Plain := hplain
  obtain rfl := hplain.eq_of_slot hslot
  exact ⟨rfl, hplain⟩

structure Homed (key : ServiceKey) (c : Course) : Prop where
  found : ∀ svc, c.found = some (some svc) → ServiceKey.ofService svc = key
  recalled : ∀ entry, c.recalled = some (some entry) → ServiceKey.ofService entry.service = key
  owed : ∀ svc, c.owed = some svc → ServiceKey.ofService svc = key

theorem homed_new : Homed key {} := ⟨(fun _ h => by cases h), (fun _ h => by cases h), fun _ h => by cases h⟩

/-- What a sync forgets or remembers is under its key, and what it remembers is of the service of that key. -/
theorem Homed.cacheAfter (h : Homed key c) (hq : c.Allows settings key q) (cache : Cache) {k : ServiceKey}
    (he : (World.cacheAfter cache q).get? k = some entry) (hold : cache.get? k ≠ some entry) :
    k = key ∧ ServiceKey.ofService entry.service = key := by
  cases q with
  | remember other new =>
    obtain ⟨rfl, _, svc, nodes, status, hens, rfl⟩ := hq
    rw [World.cacheAfter, SortedMap.get?_insert] at he
    split at he
    · next hk =>
      obtain rfl := Option.some.inj he
      exact ⟨hk.symm, h.found svc hens.about.2.1⟩
    · exact absurd he hold
  | forget other =>
    rw [World.cacheAfter, SortedMap.get?_erase] at he
    split at he
    · cases he
    · exact absurd he hold
  | _ => exact absurd he hold

theorem Homed.cacheAfter_other (h : Homed key c) (hq : c.Allows settings key q) (cache : Cache) {k : ServiceKey}
    (hk : k ≠ key) : (World.cacheAfter cache q).get? k = cache.get? k := by
  cases q with
  | remember other new =>
    obtain ⟨rfl, _⟩ := hq
    rw [World.cacheAfter, SortedMap.get?_insert, if_neg (Ne.symm hk)]
  | forget other =>
    obtain ⟨_, _, _, ⟨svc, howed, rfl⟩ | ⟨_, rfl, _⟩⟩ := hq
    · rw [World.cacheAfter, SortedMap.get?_erase, if_neg fun he => hk (he.symm.trans (h.owed svc howed))]
    · rw [World.cacheAfter, SortedMap.get?_erase, if_neg (Ne.symm hk)]
  | _ => rfl

theorem Homed.exchange (h : Homed key c) (hw : w.Placed) (hq : c.Allows settings key q)
    (ha : (w.answer time q).1 = some a) : Homed key (c.note q a) := by
  cases q with
  | «recall» k =>
    obtain ⟨rfl, rfl⟩ := hq
    obtain rfl : w.cache.get? k = a := Option.some.inj ha
    exact ⟨h.found, fun entry he => hw.entries k entry (Option.some.inj he), h.owed⟩
  | service k =>
    obtain ⟨rfl, entry, rfl⟩ := hq
    rcases a with e | found
    · exact h
    · obtain rfl := World.answer_service ha
      exact ⟨fun svc hs => (hw.of_service? (Option.some.inj hs)).1, h.recalled, h.owed⟩
  | nodes => cases a <;> exact ⟨h.found, h.recalled, h.owed⟩
  | ensure svc nodes => cases a <;> exact ⟨h.found, h.recalled, h.owed⟩
  | delete svc =>
    rcases a with e | ⟨⟩
    · exact h
    · refine ⟨h.found, h.recalled, fun s hs => ?_⟩
      obtain rfl := Option.some.inj hs
      obtain ⟨_, ⟨habout, _⟩ | ⟨_, entry, hrecalled, rfl⟩⟩ := hq
      · exact h.found svc habout.2.1
      · exact h.recalled entry hrecalled
  | forget k => exact ⟨h.found, h.recalled, fun _ hs => by cases hs⟩
  | _ => exact ⟨h.found, h.recalled, h.owed⟩

theorem World.reachable_cloudAfter {cloud : MemoryCloud} (h : cloud.Reachable) (q : Request) :
    (cloudAfter cloud q).Reachable := by
  cases q with
  | lookup svc => exact .lookup svc h
  | ensure svc nodes => exact .ensure svc nodes h
  | delete svc => exact .delete svc h
  | _ => exact h

/-- A sync that has met the service of its key only keeps everything in its place. -/
theorem World.Placed.answer (hw : w.Placed) (h : Homed key c) (hq : c.Allows settings key q) (time : Nat) :
    (w.answer time q).2.Placed where
  services slot svc hs := hw.services slot svc (((w.answer_cluster time q).2 slot).symm.trans hs)
  entries k entry he := by
    rw [w.answer_cache time q] at he
    by_cases hold : w.cache.get? k = some entry
    · exact hw.entries k entry hold
    · obtain ⟨rfl, hentry⟩ := h.cacheAfter hq w.cache he hold
      exact hentry
  cloud := by
    rw [w.answer_cloud time q]
    exact World.reachable_cloudAfter hw.cloud q

/-- A sync leaves the entries of all other keys. -/
theorem World.Placed.others_after (hw : w.Placed) (settings : SyncSettings) (key : ServiceKey) (time : Nat)
    {k : ServiceKey} (hk : k ≠ key) :
    ((program settings key).talk (World.answer time) [] w).2.2.cache.get? k = w.cache.get? k := by
  have hstep {c : Course} {w' : World} {q : Request} (hq : c.Allows settings key q)
      (h : Homed key c ∧ w'.Placed ∧ w'.cache.get? k = w.cache.get? k) : (w'.answer time q).2.Placed ∧
      (w'.answer time q).2.cache.get? k = w.cache.get? k := by
    refine ⟨h.2.1.answer h.1 hq time, ?_⟩
    rw [w'.answer_cache time q, h.1.cacheAfter_other hq w'.cache hk]
    exact h.2.2
  have hend := (obeys_program settings key).talk (World.answer time) []
    (fun c w' => Homed key c ∧ w'.Placed ∧ w'.cache.get? k = w.cache.get? k)
    (fun _ w' => w'.cache.get? k = w.cache.get? k)
    (fun c w₁ q a w₂ hq h ha => by
      obtain rfl := congrArg Prod.snd ha
      exact ⟨h.1.exchange h.2.1 hq (congrArg Prod.fst ha), hstep hq h⟩)
    (fun c w₁ q w₂ hq h ha => by
      obtain rfl := congrArg Prod.snd ha
      exact (hstep hq h).2) rfl ⟨homed_new, hw, rfl⟩
  rcases ht : (program settings key).talk (World.answer time) [] w with ⟨_ | result, log, w'⟩
  all_goals rw [ht] at hend
  · exact hend
  · exact hend.2.2.2

/-- A sync leaves the services of all other keys, and the nodes. -/
theorem World.Placed.stored_after (hw : w.Placed) (settings : SyncSettings) (key : ServiceKey) (time : Nat) :
    ((program settings key).talk (World.answer time) [] w).2.2.cluster.nodes = w.cluster.nodes ∧
    ∀ k, k ≠ key → ((program settings key).talk (World.answer time) [] w).2.2.cluster.service? k.ns k.name =
      w.cluster.service? k.ns k.name := by
  obtain ⟨writes, htargets, hcluster⟩ := sync_wrote settings key w time
  obtain ⟨hnodes, hservices⟩ := w.cluster.takeAll_frame writes
  rw [hcluster]
  refine ⟨hnodes, fun k hk => hservices k.slot fun write hwrite hslot => ?_⟩
  obtain ⟨hkey, hplain⟩ := hw.of_service? (htargets write hwrite)
  have hown : write.target.info.key = key.slot := by
    rw [← hkey] at hplain ⊢
    exact hplain.1.slot_eq
  exact hk (hplain.eq_of_slot (hslot.symm.trans hown))

namespace Scene
variable {s t : Scene} {move : Move}

def Move.Plain : Move → Prop
  | .putService svc => (ServiceKey.ofService svc).Plain
  | _ => True

instance : (move : Move) → Decidable move.Plain
  | .putService svc => inferInstanceAs (Decidable (ServiceKey.ofService svc).Plain)
  | .removeService _ | .putNode _ | .dropNode _ | .putEndpoints _ | .tell _ | .react _ | .resync | .failCloud _
  | .failStatus _ | .failCluster _ _ | .fire _ _ | .get _ | .exchange _ _ | .finish .. => .isTrue trivial

/-- The scenes that can come to be, from the start on: services have plain keys, and balancers may come up that the
controller does not own. -/
inductive Attained (settings : SyncSettings) : Scene → Prop where
  | start {s : Scene} : s.Start → s.world.cloud.Reachable → Attained settings s
  | seed {s : Scene} (name : String) : Attained settings s →
    Attained settings { s with world.cloud := (s.world.cloud.seed name).2 }
  | act {s t : Scene} {move : Move} : Attained settings s → s.act? settings move = some t → move.Plain →
    Attained settings t

/-- A scene with everything in its place, and syncs that have met the services of their keys only. -/
structure Placed (settings : SyncSettings) (s : Scene) : Prop where
  world : s.world.Placed
  regular : s.Regular settings
  jobs : ∀ who job, s.jobs who = some job → Homed job.key job.course

theorem Start.world_placed (h : s.Start) (hc : s.world.cloud.Reachable) : s.world.Placed where
  services slot svc hs := by simp [MemoryCluster.core?, h.services] at hs
  entries key entry he := by simp [h.cache] at he
  cloud := hc

theorem placed_putService (h : s.world.Placed) {svc : Service} (hp : (ServiceKey.ofService svc).Plain) :
    (s.putService svc).world.Placed := by
  refine ⟨fun slot x hx => ?_, h.entries, h.cloud⟩
  have hx : (s.world.cluster.upsertService svc).2.core? slot = some x := hx
  rw [MemoryCluster.core?_upsertService] at hx
  split at hx
  · next hslot =>
    obtain rfl := Option.some.inj hx
    exact ⟨hp, hslot.symm.trans hp.1.slot_eq⟩
  · exact h.services slot x hx

theorem placed_removeService (h : s.world.Placed) (ht : s.removeService key = some t) : t.world.Placed := by
  obtain ⟨old, _, rfl⟩ := Option.map_eq_some_iff.mp ht
  refine ⟨fun slot x hx => ?_, h.entries, h.cloud⟩
  obtain ⟨svc, hsvc, rfl⟩ := Option.map_eq_some_iff.mp hx
  dsimp only [MemoryCluster.deleteService] at hsvc
  rw [SortedMap.get?_erase] at hsvc
  split at hsvc
  · cases hsvc
  · exact h.services slot svc.core (by rw [MemoryCluster.core?, hsvc]; rfl)

theorem placed_react (h : s.world.Placed) (r : Reaction) : (s.react r).world.Placed := by
  cases r with
  | enqueue k => exact h
  | record e => exact ⟨h.services, h.entries, h.cloud⟩
  | keepDeleted svc =>
    refine ⟨h.services, fun k entry he => ?_, h.cloud⟩
    dsimp only [Scene.react] at he
    rw [SortedMap.get?_insert] at he
    split at he
    · next hk =>
      obtain rfl := Option.some.inj he
      exact hk
    · exact h.entries k entry he
  | markStale stale =>
    refine ⟨h.services, fun k entry he => ?_, h.cloud⟩
    dsimp only [Scene.react, Cache.markStale] at he
    rw [SortedMap.get?_modify] at he
    obtain ⟨old, hold, rfl⟩ := Option.map_eq_some_iff.mp he
    split <;> exact h.entries k old hold

theorem placed_resync (h : s.world.Placed) : s.resync.world.Placed := by
  refine ⟨h.services, fun k entry he => ?_, h.cloud⟩
  dsimp only [Scene.resync, Controller.resync, Cache.markAllStale] at he
  rw [SortedMap.get?_mapValues] at he
  obtain ⟨old, hold, rfl⟩ := Option.map_eq_some_iff.mp he
  exact h.entries k old hold

/-- Every move keeps everything in its place. -/
theorem Placed.world_act (h : s.Placed settings) (ht : s.act? settings move = some t) (hp : move.Plain) :
    t.world.Placed := by
  have hw := h.world
  cases move with
  | putService svc =>
    obtain rfl := Option.some.inj ht
    exact placed_putService hw hp
  | removeService k => exact placed_removeService hw ht
  | putNode node =>
    obtain rfl := Option.some.inj ht
    exact ⟨hw.services, hw.entries, hw.cloud⟩
  | dropNode name =>
    obtain ⟨node, _, rfl⟩ := Option.map_eq_some_iff.mp ht
    exact ⟨hw.services, hw.entries, hw.cloud⟩
  | putEndpoints δ =>
    obtain rfl := Option.some.inj ht
    exact hw
  | tell index =>
    obtain ⟨item, _, rfl⟩ := Option.map_eq_some_iff.mp ht
    obtain ⟨world, todo, he, hcluster, hcloud, hcache, _⟩ := decide_frame { s with news := s.news.eraseIdx index } item
    rw [he]
    exact ⟨hcluster ▸ hw.services, hcache ▸ hw.entries, hcloud ▸ hw.cloud⟩
  | react index =>
    obtain ⟨r, _, rfl⟩ := Option.map_eq_some_iff.mp ht
    exact placed_react (s := { s with todo := s.todo.eraseIdx index }) hw r
  | resync =>
    obtain rfl := Option.some.inj ht
    exact placed_resync hw
  | failCloud message =>
    obtain rfl := Option.some.inj ht
    exact ⟨hw.services, hw.entries, .inject message hw.cloud⟩
  | failStatus e =>
    obtain rfl := Option.some.inj ht
    exact ⟨hw.services, hw.entries, hw.cloud⟩
  | failCluster call e =>
    obtain rfl := Option.some.inj ht
    exact ⟨hw.services, hw.entries, hw.cloud⟩
  | fire k deadline =>
    obtain rfl := Option.some.inj ht
    exact hw
  | get who =>
    obtain ⟨_, _, _, _, rfl⟩ := get_eq_some ht
    exact hw
  | exchange who time =>
    obtain ⟨k, q, next, course, hj, hcase⟩ := exchange_eq_some ht
    have hq : course.Allows settings k q := (h.regular who _ hj).1
    have hplaced := hw.answer (h.jobs who _ hj) hq time
    rcases hcase with ⟨a, _, rfl⟩ | ⟨_, rfl⟩
    · exact hplaced
    · exact hplaced
  | finish who now clock errorDelay backoff =>
    obtain ⟨_, _, _, _, _, _, _, _, rfl⟩ := finish_eq_some ht
    exact hw

/-- Every move lets the syncs go on with the services of their keys. -/
theorem Placed.homed_act (h : s.Placed settings) (ht : s.act? settings move = some t) {who : Nat} {job : Job}
    (hj : t.jobs who = some job) : Homed job.key job.course := by
  rcases act_cases ht with ⟨hs, _⟩ | ⟨_, ht, _⟩ | ⟨_, time, ht, _⟩ | ⟨_, _, _, _, _, ht, _⟩
  · exact h.jobs who job (hs.jobs ▸ hj)
  · obtain ⟨k, queue, _, _, rfl⟩ := get_eq_some ht
    rcases setJob_eq_some hj with ⟨_, he⟩ | ⟨_, hj⟩
    · obtain rfl := Option.some.inj he
      exact homed_new
    · exact h.jobs who job hj
  · obtain ⟨k, q, next, course, hold, hcase⟩ := exchange_eq_some ht
    have hq : course.Allows settings k q := (h.regular _ _ hold).1
    have hhomed : Homed k course := h.jobs _ _ hold
    rcases hcase with ⟨a, ha, rfl⟩ | ⟨_, rfl⟩
    · rcases setJob_eq_some hj with ⟨_, he⟩ | ⟨_, hj⟩
      · obtain rfl := Option.some.inj he
        exact hhomed.exchange h.world hq ha
      · exact h.jobs who job hj
    · rcases setJob_eq_some hj with ⟨_, he⟩ | ⟨_, hj⟩
      · obtain rfl := Option.some.inj he
        exact hhomed
      · exact h.jobs who job hj
  · obtain ⟨_, _, _, _, _, _, _, _, rfl⟩ := finish_eq_some ht
    rcases setJob_eq_some hj with ⟨_, he⟩ | ⟨_, hj⟩
    · cases he
    · exact h.jobs who job hj

theorem Attained.placed (h : Attained settings s) : s.Placed settings := by
  induction h with
  | start hs hc => exact ⟨hs.world_placed hc, hs.regular, fun who job hj => by cases (hs.jobs who).symm.trans hj⟩
  | seed name _ ih =>
    exact ⟨⟨ih.world.services, ih.world.entries, .seed name ih.world.cloud⟩, ih.regular, ih.jobs⟩
  | act _ ht hp ih => exact ⟨ih.world_act ht hp, ih.regular.act ht, fun _ _ hj => ih.homed_act ht hj⟩

theorem Attained.play {moves : List Move} {log : List (Scene × Move)} (h : Attained settings s)
    (hp : ∀ move ∈ moves, move.Plain) (ht : s.play settings moves = some (log, t)) : Attained settings t := by
  induction moves generalizing s log with
  | nil =>
    cases Option.some.inj ht
    exact h
  | cons move moves ih =>
    obtain ⟨u, hu, ht⟩ := Option.bind_eq_some_iff.mp ht
    obtain ⟨⟨rest, last⟩, hrest, ht⟩ := Option.bind_eq_some_iff.mp ht
    cases Option.some.inj ht
    exact ih (h.act hu (hp move (.head _))) (fun m hm => hp m (.tail _ hm)) hrest

/-- Whatever came before, whatever fails in it and however it ends, a sync leaves the entries and the services of all
other keys, and all nodes. A balancer that some service finds, and no service of the key does before or after, stays as
it is and is found as before, unless it goes with one of its name; and such a one is not the controller's own. -/
theorem sync_isolated (h : Attained settings s) (plan : SyncSettings) (key : ServiceKey) (time : Nat) :
    let w' := ((program plan key).talk (World.answer time) [] s.world).2.2
    (∀ k, k ≠ key → w'.cache.get? k = s.world.cache.get? k ∧
      w'.cluster.service? k.ns k.name = s.world.cluster.service? k.ns k.name) ∧
    w'.cluster.nodes = s.world.cluster.nodes ∧
    ∀ other b, s.world.cloud.find? other = some (some b) → s.world.Disowns key b → w'.Disowns key b →
      (w'.cloud.find? other = some (some b) ↔ ¬Swept key s.world w' b) ∧
      (Swept key s.world w' b → s.world.cloud.allocated < MemoryCloud.idRoom - 1 → b.userManaged = true) := by
  intro w'
  have hw := h.placed.world
  obtain ⟨hnodes, hservices⟩ := hw.stored_after plan key time
  refine ⟨fun k hk => ⟨hw.others_after plan key time hk, hservices k hk⟩, hnodes, ?_⟩
  intro other b hf hbefore hafter
  have hwrote := sync_wrote plan key s.world time
  have hspared := (sync_cloudChanges plan key s.world time).spares hwrote hw.cloud.sound hf hbefore hafter
  refine ⟨⟨fun hkept hswept => ?_, hspared.resolve_right⟩, fun hswept hroom => ?_⟩
  · have hsound : w'.cloud.Sound := (sync_cloudChanges plan key s.world time).sound hw.cloud.sound
    cases hswept.gone.symm.trans (hsound.get?_of_find? hkept)
  · exact hswept.userManaged fun name => hw.cloud.sole (by omega) name

def borrowed : Scene := { world := { cloud := ((({} : MemoryCloud).seed "au1").2.seed "au1").2 } }

def namesake : Service := { kiosk "u1" with spec := some { type := some "ClusterIP" } }

def lodger : Service where
  info :=
    { name := some "shop", ns := some "default", uid := some "u2",
      annotations := some (.ofList [(WellKnown.loadBalancerId, "lb-00000002")]) }
  spec := shop.spec

def takingOver : List Move :=
  [.putService (kiosk "u0"), .removeService ⟨"default", "kiosk"⟩, .tell 1, .react 0, .putService namesake,
    .putService lodger]

def movingIn : List Move :=
  [Move.tell 2, .react 1, .get 0] ++ List.replicate 11 (Move.exchange 0 0) ++
  [Move.finish 0 .zero .zero .zero ⟨{}, none, none⟩]

private def namesakeKey : ServiceKey := ⟨"default", "kiosk"⟩
private def lodgerKey : ServiceKey := ⟨"default", "shop"⟩

private def leftBy (key : ServiceKey) (s : Scene) : World := ((program {} key).talk (World.answer 0) [] s.world).2.2

private theorem attained_borrowed : Attained {} borrowed :=
  .start ⟨rfl, .seed (.seed MemoryCloud.sound_empty "au1") "au1", rfl, ⟨"", rfl⟩, fun _ => rfl, rfl, rfl, fun _ => rfl⟩
    (.seed "au1" (.seed "au1" (.new _)))

/-- A sync of the third service makes the second balancer its own, and the first stays, which the second service
finds. -/
theorem sync_isolated_lodger : ∃ s first, Attained {} s ∧ s.world.cloud.find? namesake = some (some first) ∧
    (leftBy lodgerKey s).cloud.calls = [.ensure "u2" []] ∧ (leftBy lodgerKey s).cache.get? lodgerKey ≠ none ∧
    (leftBy lodgerKey s).cloud.find? namesake = some (some first) ∧
    (leftBy lodgerKey s).cache.get? namesakeKey = s.world.cache.get? namesakeKey := by
  have hrun : (((borrowed.play {} takingOver).map Prod.snd).any fun s =>
      (s.world.cloud.find? namesake).join.any fun first => Decidable.decide (
        (∀ svc ∈ s.world.cluster.service? lodgerKey.ns lodgerKey.name, svc.needsBalancer = true) ∧
        s.world.Disowns lodgerKey first ∧ (leftBy lodgerKey s).Disowns lodgerKey first ∧
        (leftBy lodgerKey s).cloud.calls = [.ensure "u2" []] ∧ (leftBy lodgerKey s).cache.get? lodgerKey ≠ none)) =
      true := by
    decide +kernel
  obtain ⟨s, hended, hrun⟩ := (Option.any_eq_true _ _).mp hrun
  obtain ⟨⟨log, s⟩, hplay, rfl⟩ := Option.map_eq_some_iff.mp hended
  obtain ⟨first, hfirst, hrun⟩ := (Option.any_eq_true _ _).mp hrun
  obtain ⟨hwants, hbefore, hafter, hcalls, hkept⟩ := of_decide_eq_true hrun
  have hfirst := Option.join_eq_some_iff.mp hfirst
  have hs : Attained {} s := attained_borrowed.play (by decide) hplay
  obtain ⟨hothers, _, hfound⟩ := sync_isolated hs {} lodgerKey 0
  refine ⟨s, first, hs, hfirst, hcalls, hkept, (hfound namesake first hfirst hbefore hafter).1.mpr fun hswept => ?_,
    (hothers namesakeKey (by decide)).1⟩
  obtain ⟨svc, _, _, hlive, hunwanted, _⟩ := hswept.cause
  cases (hwants svc hlive).symm.trans hunwanted

/-- A sync of the second service takes both balancers away, though it has found the first one only and the other is
that of the third service. -/
theorem not_sync_isolated_namesake :
    ¬∀ (settings plan : SyncSettings) (s : Scene) (key k : ServiceKey) (entry : CacheEntry) (b : Balancer) (time : Nat),
      Attained settings s → s.world.cloud.allocated < MemoryCloud.idRoom - 1 → key.Plain → k.Plain → k ≠ key →
      (∀ svc ∈ s.world.known key ++ s.world.known k, (svc.info.uid.getD "").toList.all (·.toNat < 128) = true) →
      s.world.cache.get? k = some entry → s.world.cloud.find? entry.service = some (some b) → s.world.Disowns key b →
      ((program plan key).talk (World.answer time) [] s.world).2.2.Disowns key b →
      ((program plan key).talk (World.answer time) [] s.world).2.2.cloud.find? entry.service = some (some b) := by
  have hrun : (((borrowed.play {} (takingOver ++ movingIn)).map Prod.snd).any fun s =>
      (s.world.cache.get? lodgerKey).any fun entry => (s.world.cloud.find? entry.service).join.any fun b =>
        Decidable.decide (s.world.cloud.allocated < MemoryCloud.idRoom - 1 ∧
          (∀ svc ∈ s.world.known namesakeKey ++ s.world.known lodgerKey,
            (svc.info.uid.getD "").toList.all (·.toNat < 128) = true) ∧
          s.world.Disowns namesakeKey b ∧ (leftBy namesakeKey s).Disowns namesakeKey b ∧
          (leftBy namesakeKey s).cloud.find? entry.service = some none)) = true := by
    decide +kernel
  obtain ⟨s, hended, hrun⟩ := (Option.any_eq_true _ _).mp hrun
  obtain ⟨⟨log, s⟩, hplay, rfl⟩ := Option.map_eq_some_iff.mp hended
  obtain ⟨entry, he, hrun⟩ := (Option.any_eq_true _ _).mp hrun
  obtain ⟨b, hb, hrun⟩ := (Option.any_eq_true _ _).mp hrun
  obtain ⟨hfew, hascii, hbefore, hafter, hgone⟩ := of_decide_eq_true hrun
  have hs : Attained {} s := attained_borrowed.play (by decide) hplay
  intro hisolated
  have hkept := hisolated {} {} s namesakeKey lodgerKey entry b 0 hs hfew (by decide) (by decide) (by decide) hascii he
    (Option.join_eq_some_iff.mp hb) hbefore hafter
  cases hkept.symm.trans hgone

end Scene
end ServiceBalancer.Simulation
