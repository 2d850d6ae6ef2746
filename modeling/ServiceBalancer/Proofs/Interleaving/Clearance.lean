import ServiceBalancer.Proofs.Cloud.Names
import ServiceBalancer.Proofs.Interleaving.Turns
import ServiceBalancer.Proofs.Sync.Account

/-! What the syncs of a key know of the balancer that the controller has under the name of its service. What a sync was
told stays true, whoever else is at work, as long as none of them has a balancer made under that name. -/
namespace ServiceBalancer

/-- Whether the services of an identity find their balancer by a name. -/
def Identity.Named (i : Identity) (name : String) : Prop :=
  i.balancerId = none ∧ balancerNameOf? (i.uid.getD "") = some name

theorem Identity.Fits.named {i : Identity} {svc : Service} {name : String} (h : i.Fits svc) (hn : i.Named name) :
    svc.givenBalancerId? = none ∧ svc.balancerName? = some name := by
  refine ⟨?_, ?_⟩
  · rw [Service.givenBalancerId?, h.balancerId, hn.1]
    rfl
  · rw [Service.balancerName?, h.uid, hn.2]

instance (i : Identity) (svc : Service) : Decidable (i.Fits svc) :=
  decidable_of_iff (_ ∧ _ ∧ _ ∧ _) ⟨fun ⟨hk, hs, hu, hb⟩ => ⟨hk, hs, hu, hb⟩, fun h => ⟨h.key, h.slot, h.uid, h.balancerId⟩⟩

def CacheEntry.Of (i : Identity) (entry : CacheEntry) : Prop := i.Fits entry.service ∧ entry.uid = i.uid

namespace Sync

variable {settings : SyncSettings} {i : Identity} {name : String} {c : Course} {q : Request} {svc : Service}

namespace Course

def Strange (i : Identity) (c : Course) : Prop := ∃ entry, c.recalled = some (some entry) ∧ ¬entry.Of i

/-- Whether a sync clears up after what is not of an identity, as it has found no service. -/
def Astray (i : Identity) (c : Course) : Prop := c.found = some none ∧ c.Strange i

end Course

/-- Whether what a sync knows is so: it has found a service of an identity, may delete what it has deleted, and if it
was told that no balancer is left, the controller has none under the name. -/
structure Account.Holds (i : Identity) (name : String) (a : Account) (cloud : MemoryCloud) : Prop where
  found : ∀ svc, a.course.found = some (some svc) → i.Fits svc
  owed : ∀ svc, a.course.owed = some svc → a.course.MayDelete svc
  cleared : a.cleared = true → a.course.Astray i ∨ ¬cloud.Bears name

variable {a : Account} {cloud cloud' : MemoryCloud}

theorem Account.holds_new : Account.Holds i name {} cloud :=
  ⟨(fun _ h => by cases h), (fun _ h => by cases h), fun h => by cases h⟩

/-- What a sync knows stays so as long as no balancer is made. -/
theorem Account.Holds.frame (h : a.Holds i name cloud) (hb : cloud'.Bears name → cloud.Bears name) :
    a.Holds i name cloud' :=
  ⟨h.found, h.owed, fun hc => (h.cleared hc).imp_right fun hn hb' => hn (hb hb')⟩

theorem Course.MayDelete.note {x : Answer q} (h : c.MayDelete svc) (hr : ∀ k, q ≠ .recall k) (hs : ∀ k, q ≠ .service k) :
    (c.note q x).MayDelete svc := by
  simp only [MayDelete, About, recalled_note hr, found_note hs]
  exact h

/-- A request that asks neither for what is remembered nor for the service, nor deletes, adds no debt. -/
theorem Account.Holds.quiet {x : Answer q} (h : a.Holds i name cloud) (hb : cloud'.Bears name → cloud.Bears name)
    (hr : ∀ k, q ≠ .recall k) (hs : ∀ k, q ≠ .service k)
    (ho : ∀ svc, (a.course.note q x).owed = some svc → a.course.owed = some svc)
    (hc : Account.clears a.cleared q x = true → a.cleared = true) : (a.note q x).Holds i name cloud' where
  found svc hf := h.found svc ((Course.found_note hs).symm.trans hf)
  owed svc hd := (h.owed svc (ho svc hd)).note hr hs
  cleared hcl := by
    refine (h.cleared (hc hcl)).imp (fun hastray => ?_) fun hn hb' => hn (hb hb')
    obtain ⟨hnone, entry, hentry, hof⟩ := hastray
    exact ⟨(Course.found_note hs).trans hnone, entry, (Course.recalled_note hr).trans hentry, hof⟩

end Sync

namespace Simulation
open Sync
variable {settings : SyncSettings} {i : Identity} {name : String} {a : Account} {w w' : World} {time : Nat} {q : Request}

theorem World.sole_cloudAfter {cloud : MemoryCloud} (h : cloud.Sole name) (hs : cloud.Sound) (q : Request) :
    (cloudAfter cloud q).Sole name := by
  cases q with
  | lookup svc => exact (cloud.lookup_alike svc).sole h
  | ensure svc nodes => exact h.ensure hs svc nodes
  | delete svc => exact h.delete hs svc
  | _ => exact h

theorem World.bears_cloudAfter {cloud : MemoryCloud} (hs : cloud.Sound) (h : (cloudAfter cloud q).Bears name) :
    cloud.Bears name ∨ q.Makes name := by
  cases q with
  | lookup svc => exact .inl ((cloud.lookup_alike svc).bears.mp h)
  | ensure svc nodes => exact MemoryCloud.bears_of_ensure hs h
  | delete svc => exact .inl (MemoryCloud.bears_of_delete hs h)
  | _ => exact .inl h

/-- An answer comes with no new balancer, unless to a request that has one made. -/
theorem World.bears_answer (hs : w.cloud.Sound) (hm : ¬q.Makes name) (h : (w.answer time q).2.cloud.Bears name) :
    w.cloud.Bears name :=
  (World.bears_cloudAfter hs (w.answer_cloud time q ▸ h)).resolve_right hm

theorem World.answer_ensure_failed {svc : Service} {nodes : List Node} {e : CloudError}
    (hx : (w.answer time (.ensure svc nodes)).1 = some (.error e)) :
    w.cloud.Alike (w.answer time (.ensure svc nodes)).2.cloud := by
  rw [World.answer_cloud]
  refine MemoryCloud.ensure_failed fun status hr => ?_
  rw [World.answer_ensure, hr] at hx
  cases Option.some.inj hx

/-- What a sync has found is of the identity. -/
theorem holds_service {k : ServiceKey} {x : Answer (.service k)} (h : a.Holds i name w.cloud)
    (hq : (bookkeeping settings i.key).Allows a (.service k)) (hx : (w.answer time (.service k)).1 = some x)
    (hlive : ∀ svc, w.cluster.core? i.slot = some svc → i.Fits svc) (hsound : w.cloud.Sound) :
    (a.note (.service k) x).Holds i name (w.answer time (.service k)).2.cloud := by
  obtain ⟨rfl, entry, hnew⟩ := hq.1
  have hsame : (w.answer time (.service i.key)).2.cloud.Bears name → w.cloud.Bears name := World.bears_answer hsound id
  rcases x with e | found
  · exact h.frame hsame
  have howed : a.course.owed = none := by rw [hnew]
  have hfound : a.course.found = none := by rw [hnew]
  refine ⟨fun svc hf => ?_, (fun svc ho => by cases howed.symm.trans ho), fun hc => .inr fun hb => ?_⟩
  · obtain rfl := Option.some.inj hf
    have hread : w.cluster.services.get? i.slot = some svc := (World.answer_service hx).symm
    exact Identity.fits_core.mp (hlive svc.core (by simp [MemoryCluster.core?, hread]))
  · refine (h.cleared hc).elim (fun hastray => ?_) fun hnone => hnone (hsame hb)
    cases hfound.symm.trans hastray.1

/-- A sync that has deleted what it may has cleared up, unless it has gone astray. -/
theorem holds_delete {svc : Service} {x : Answer (.delete svc)} (h : a.Holds i name w.cloud)
    (hq : (bookkeeping settings i.key).Allows a (.delete svc)) (hx : (w.answer time (.delete svc)).1 = some x)
    (hsound : w.cloud.Sound) (hsole : w.cloud.Sole name) (hn : i.Named name) :
    (a.note (.delete svc) x).Holds i name (w.answer time (.delete svc)).2.cloud := by
  obtain ⟨_, hmay⟩ := hq.1
  rcases x with e | _
  · exact h.quiet (World.bears_answer hsound id) (by simp) (by simp) (fun _ ho => ho) id
  rw [World.answer_delete] at hx
  have hgone (hfits : i.Fits svc) : ¬(w.answer time (.delete svc)).2.cloud.Bears name := by
    obtain ⟨hg, hname⟩ := hfits.named hn
    rw [World.answer_cloud]
    exact hsole.not_bears_of_delete hsound hg hname hx
  refine ⟨h.found, ?_, fun _ => ?_⟩
  · rintro _ ⟨⟩
    exact hmay
  · rcases hmay with ⟨habout, _⟩ | ⟨hnone, entry, hentry, rfl⟩
    · exact .inr (hgone (h.found svc habout.2.1))
    · by_cases hof : entry.Of i
      · exact .inr (hgone hof.1)
      · exact .inl ⟨hnone, entry, hentry, hof⟩

/-- What a sync is told is so. -/
theorem holds_exchange {x : Answer q} (h : a.Holds i name w.cloud) (hq : (bookkeeping settings i.key).Allows a q)
    (hx : (w.answer time q).1 = some x) (hlive : ∀ svc, w.cluster.core? i.slot = some svc → i.Fits svc)
    (hsound : w.cloud.Sound) (hsole : w.cloud.Sole name) (hn : i.Named name) :
    (a.note q x).Holds i name (w.answer time q).2.cloud := by
  have hsame : ¬q.Makes name → (w.answer time q).2.cloud.Bears name → w.cloud.Bears name := World.bears_answer hsound
  cases q with
  | «recall» k =>
    obtain ⟨rfl, hnew⟩ := hq.1
    have howed : a.course.owed = none := by rw [hnew]
    have hfound : a.course.found = none := by rw [hnew]
    refine ⟨h.found, (fun svc ho => by cases howed.symm.trans ho), fun hc => .inr ?_⟩
    refine (h.cleared hc).resolve_left fun hastray => ?_
    cases hfound.symm.trans hastray.1
  | service k => exact holds_service h hq hx hlive hsound
  | lookup svc =>
    obtain ⟨hg, hname⟩ := (h.found svc hq.1.2.1.2.1).named hn
    rcases x with e | _ | found
    · exact h.quiet (hsame id) (by simp) (by simp) (fun _ ho => ho) id
    · rw [World.answer_lookup] at hx
      refine ⟨h.found, h.owed, fun _ => .inr ?_⟩
      rw [World.answer_cloud]
      exact MemoryCloud.not_bears_of_lookup hg hname hx
    · exact ⟨h.found, h.owed, fun hc => by cases hc⟩
  | nodes =>
    cases x <;> exact h.quiet (hsame id) (by simp) (by simp) (fun _ ho => ho) id
  | ensure svc nodes =>
    rcases x with e | status
    · exact h.quiet (World.answer_ensure_failed hx).bears.mp (by simp) (by simp) (fun _ ho => ho) id
    · exact ⟨h.found, h.owed, fun hc => by cases hc⟩
  | delete svc => exact holds_delete h hq hx hsound hsole hn
  | forget k =>
    exact h.quiet (hsame id) (by simp) (by simp) (fun _ ho => by cases ho) id
  | _ => exact h.quiet (hsame id) (by simp) (by simp) (fun _ ho => ho) id

namespace Scene
variable {s t : Scene} {move : Move}

/-- The cloud changes by what a sync asks of it, if at all. -/
theorem cloud_act (ht : s.act? settings move = some t) : s.world.cloud.Alike t.world.cloud ∨
    ∃ who time key q next course, move = .exchange who time ∧ s.jobs who = some ⟨key, some (.ask q next), course⟩ ∧
      t.world.cloud = World.cloudAfter s.world.cloud q := by
  have alike : s.world.cloud.Alike s.world.cloud := ⟨rfl, rfl⟩
  cases move with
  | removeService k =>
    obtain ⟨svc, _, rfl⟩ := Option.map_eq_some_iff.mp ht
    exact .inl alike
  | dropNode node =>
    obtain ⟨node, _, rfl⟩ := Option.map_eq_some_iff.mp ht
    exact .inl alike
  | tell index =>
    obtain ⟨item, _, rfl⟩ := Option.map_eq_some_iff.mp ht
    obtain ⟨world, todo, he, _, hcloud, _, _⟩ := decide_frame { s with news := s.news.eraseIdx index } item
    rw [he]
    exact .inl (hcloud ▸ alike)
  | react index =>
    obtain ⟨r, _, rfl⟩ := Option.map_eq_some_iff.mp ht
    cases r <;> exact .inl alike
  | get who =>
    obtain ⟨_, _, _, _, rfl⟩ := get_eq_some ht
    exact .inl alike
  | exchange who time =>
    obtain ⟨key, q, next, course, hj, hcase⟩ := exchange_eq_some ht
    have hcloud : t.world.cloud = World.cloudAfter s.world.cloud q := by
      rcases hcase with ⟨_, _, rfl⟩ | ⟨_, rfl⟩ <;> exact s.world.answer_cloud time q
    exact .inr ⟨who, time, key, q, next, course, rfl, hj, hcloud⟩
  | finish who now clock errorDelay backoff =>
    obtain ⟨_, _, _, _, _, _, _, _, rfl⟩ := finish_eq_some ht
    exact .inl alike
  | _ =>
    obtain rfl := Option.some.inj ht
    exact .inl alike

theorem sound_act (ht : s.act? settings move = some t) (h : s.world.cloud.Sound) : t.world.cloud.Sound := by
  rcases cloud_act ht with ha | ⟨_, _, _, q, _, _, _, _, he⟩
  · exact ha.sound h
  · exact he ▸ World.sound_cloudAfter h q

theorem sole_act (ht : s.act? settings move = some t) (h : s.world.cloud.Sound) (hsole : s.world.cloud.Sole name) :
    t.world.cloud.Sole name := by
  rcases cloud_act ht with ha | ⟨_, _, _, q, _, _, _, _, he⟩
  · exact ha.sole hsole
  · exact he ▸ World.sole_cloudAfter hsole h q

/-- Whether a move is a request of another key's sync that forgets a key, or has a balancer made under a name. -/
def Move.Meddles (s : Scene) (key : ServiceKey) (name : String) (move : Move) : Prop :=
  move.Asks s fun k q => k ≠ key ∧ (q.Forgets key ∨ q.Makes name)

instance (s : Scene) (key : ServiceKey) (name : String) (move : Move) : Decidable (move.Meddles s key name) :=
  inferInstanceAs (Decidable (move.Asks s _))

/-- What others do has no balancer made under a name, unless they meddle. -/
theorem bears_aside {key : ServiceKey} (hs : s.world.cloud.Sound) (ht : s.act? settings move = some t)
    (hf : ∀ who time job, move = .exchange who time → s.jobs who = some job → job.key ≠ key)
    (hm : ¬move.Meddles s key name) (hb : t.world.cloud.Bears name) : s.world.cloud.Bears name := by
  rcases cloud_act ht with ha | ⟨who, time, k, q, next, course, rfl, hj, hcloud⟩
  · exact ha.bears.mp hb
  · refine (World.bears_cloudAfter hs (hcloud ▸ hb)).resolve_right fun hmakes => hm ?_
    exact (asks_exchange hj).mpr ⟨hf who time _ rfl hj, .inr hmakes⟩

structure Tidy (settings : SyncSettings) (i : Identity) (name : String) (s : Scene) : Prop where
  sound : s.world.cloud.Sound
  sole : s.world.cloud.Sole name
  jobs : ∀ job, s.At i.key job → ∃ a : Account, a.course = job.course ∧ a.Holds i name s.world.cloud ∧
    ∀ rest, job.rest = some rest → Program.Obeys (bookkeeping settings i.key)
      (fun a result => a.course.Ends settings result ∧ (result = .ok () → a.Ends)) a rest

def Keeps (s : Scene) (i : Identity) : Prop := ∀ svc, s.world.cluster.core? i.slot = some svc → i.Fits svc

instance Keeps.decidable (s : Scene) (i : Identity) : Decidable (s.Keeps i) :=
  inferInstanceAs (Decidable (∀ svc ∈ s.world.cluster.core? i.slot, i.Fits svc))

theorem Tidy.act (h : s.Tidy settings i name) (hs : s.Staffed) (ht : s.act? settings move = some t) (hk : s.Keeps i)
    (hn : i.Named name) (hm : ¬move.Meddles s i.key name) : t.Tidy settings i name := by
  refine ⟨sound_act ht h.sound, sole_act ht h.sound h.sole, ?_⟩
  cases turn hs ht i.key with
  | aside foreign jobs past called =>
    intro job hj
    obtain ⟨a, ha, hholds, hobeys⟩ := h.jobs job ((jobs job).mp hj)
    exact ⟨a, ha, hholds.frame (bears_aside h.sound ht foreign hm), hobeys⟩
  | starts nobody jobs world past =>
    intro job hj
    obtain rfl := (jobs job).mp hj
    refine ⟨{}, rfl, Account.holds_new, ?_⟩
    rintro _ ⟨⟩
    exact obeys_bookkeeping settings i.key
  | exchange who time q next c job made before answered after world past called =>
    intro j hj
    obtain rfl := (after j).mp hj
    obtain ⟨a, rfl, hholds, hobeys⟩ := h.jobs _ ((before _).mpr rfl)
    obtain ⟨hq, hnext⟩ := hobeys _ rfl
    rcases answered with ⟨x, hx, rfl⟩ | ⟨hx, rfl⟩
    · refine ⟨a.note q x, rfl, ?_, ?_⟩
      · rw [world]
        exact holds_exchange hholds hq hx hk h.sound h.sole hn
      · rintro _ ⟨⟩
        exact hnext x
    · refine ⟨a, rfl, hholds.frame fun hb => ?_, fun _ hr => by cases hr⟩
      rw [world, World.answer_cloud] at hb
      exact (World.alike_of_broken hx).bears.mp hb
  | ends job outcome before ended nobody world past called failed => exact fun j hj => absurd hj (nobody j)

theorem Tidy.asks {q : Request} {next : Answer q → Program Answer (Except Error Unit)} {c : Course}
    (h : s.Tidy settings i name) (hj : s.At i.key ⟨i.key, some (.ask q next), c⟩) :
    ∃ a : Account, a.course = c ∧ a.Holds i name s.world.cloud ∧ (bookkeeping settings i.key).Allows a q := by
  obtain ⟨a, ha, hholds, hobeys⟩ := h.jobs _ hj
  exact ⟨a, ha, hholds, (hobeys _ rfl).1⟩

theorem Tidy.ends {job : Job} {result : Except Error Unit} (h : s.Tidy settings i name) (hj : s.At i.key job)
    (ho : job.outcome? = some (some result)) : ∃ a : Account, a.course = job.course ∧ a.Holds i name s.world.cloud ∧
      a.course.Ends settings result ∧ (result = .ok () → a.Ends) := by
  obtain ⟨a, ha, hholds, hobeys⟩ := h.jobs job hj
  obtain ⟨k, rest, c⟩ := job
  match rest with
  | none => cases ho
  | some (.done r) =>
    obtain rfl := Option.some.inj (Option.some.inj ho)
    exact ⟨a, ha, hholds, hobeys _ rfl⟩
  | some (.ask q next) => cases ho

end Scene
end Simulation
end ServiceBalancer
