import ServiceBalancer.Proofs.Cloud.Names
import ServiceBalancer.Proofs.Program.Attempts
import ServiceBalancer.Proofs.Simulation.Calls
import ServiceBalancer.Proofs.Sync.Announcements
import ServiceBalancer.Proofs.Sync.Conduct

/-! What is on record of the writes of the cloud. The cloud keeps its calls and the recorder its events, each for itself;
after any syncs, one after another, the two tell the same. -/
namespace ServiceBalancer

theorem Service.Ascii.of_core {a b : Service} (h : a.Ascii) (hcore : a.core = b.core) : b.Ascii := by
  have huid : a.info.uid = b.info.uid := Service.eq_of_core (·.info.uid) (fun _ => rfl) hcore
  rwa [Service.Ascii, ← huid]

namespace Sync

def onRecord (e : Event) : String × Simulation.Deed := (e.object.text, .event e.type e.reason e.message)

namespace Work

def service : Work → Service
  | ensure svc _ _ => svc
  | delete svc _ => svc

def call : Work → CloudCall
  | ensure svc nodes _ => .ensure (svc.info.uid.getD "") (nodes.map Node.name)
  | delete svc _ => .delete (svc.info.uid.getD "")

def deed : Work → String × Simulation.Deed
  | ensure svc nodes result =>
    ((ServiceKey.ofService svc).text, .ensure (svc.info.uid.getD "") (nodes.map Node.name) result)
  | delete svc result => ((ServiceKey.ofService svc).text, .delete (svc.info.uid.getD "") result)

/-- What is on record of a write when it is done: it comes between its warning, if there is one, and its outcome. -/
def entries (work : Work) : List (String × Simulation.Deed) :=
  work.warnings.map onRecord ++ [work.deed, onRecord work.outcome]

end Work

def Due.entries : Due → List (String × Simulation.Deed)
  | nothing => []
  | push e => [onRecord e]
  | outcome work => work.warnings.map onRecord ++ [work.deed]

def Due.calls : Due → List CloudCall
  | outcome work => [work.call]
  | nothing | push _ => []

def Tally.entries (t : Tally) : List (String × Simulation.Deed) := t.works.flatMap Work.entries ++ t.due.entries

def Tally.calls (t : Tally) : List CloudCall := t.works.map Work.call ++ t.due.calls

def puts : (q : Request) → Answer q → List (String × Simulation.Deed)
  | .ensure svc nodes, (result : Except CloudError BalancerStatus) => [(Work.ensure svc nodes result).deed]
  | .delete svc, (result : Except CloudError Unit) => [(Work.delete svc result).deed]
  | .record e, _ => [onRecord e]
  | _, _ => []

variable {t : Tally} {q : Request}

theorem Tally.entries_note (hq : t.Allows q) (a : Answer q) : (t.note q a).entries = t.entries ++ puts q a := by
  obtain ⟨works, due⟩ := t
  cases q with
  | ensure svc nodes =>
    cases nodes with
    | nil =>
      obtain rfl : due = .push (noNodes svc) := hq
      simp [entries, note, puts, Due.entries, Work.warnings]
    | cons node rest =>
      obtain rfl : due = .nothing := hq
      simp [entries, note, puts, Due.entries, Work.warnings]
  | delete svc =>
    obtain rfl : due = .nothing := hq
    simp [entries, note, puts, Due.entries, Work.warnings]
  | record e =>
    rcases hq with ⟨hdue, _⟩ | ⟨work, hdue, rfl⟩
    · obtain rfl : due = .nothing := hdue
      simp [entries, note, puts, Due.entries]
    · obtain rfl : due = .outcome work := hdue
      simp [entries, note, puts, Due.entries, Work.entries]
  | _ => exact (List.append_nil _).symm

theorem Tally.calls_note (hq : t.Allows q) (a : Answer q) :
    (t.note q a).calls = t.calls ++ (Simulation.calls q).filter CloudCall.isWrite := by
  obtain ⟨works, due⟩ := t
  cases q with
  | ensure svc nodes =>
    have hdue : due.calls = [] := by
      rw [show due = _ from hq]
      split <;> rfl
    rw [calls, calls, hdue, List.append_nil]
    rfl
  | delete svc =>
    obtain rfl : due = .nothing := hq
    rw [calls, calls, Due.calls, List.append_nil]
    rfl
  | record e =>
    rcases hq with ⟨hdue, _⟩ | ⟨work, hdue, rfl⟩
    · obtain rfl : due = .nothing := hdue
      simp [calls, note, Simulation.calls, Due.calls]
    · obtain rfl : due = .outcome work := hdue
      simp [calls, note, Simulation.calls, Due.calls]
  | _ => exact (List.append_nil _).symm

end Sync

namespace Simulation
open Sync Program

def Deed.isRecorded : Deed → Bool
  | ensure _ _ _ | delete _ _ | event _ _ _ => true
  | _ => false

/-- What a journal has on record of writes and events: the object of each and the deed, without the time. -/
def recorded (journal : List JournalEntry) : List (String × Deed) :=
  (journal.filter (·.deed.isRecorded)).map fun x => (x.subject, x.deed)

def cloudWrites (w : World) : List CloudCall := w.cloud.calls.filter CloudCall.isWrite

variable {time : Nat} {settings : SyncSettings} {key : ServiceKey} {w w₀ w' : World} {c : Course} {t : Tally}
  {q : Request}

/-! ### One exchange -/

theorem cloudWrites_answer (time : Nat) (w : World) (q : Request) :
    cloudWrites (w.answer time q).2 = cloudWrites w ++ (calls q).filter CloudCall.isWrite := by
  rw [cloudWrites, calls_answer, List.filter_append, cloudWrites]

theorem recorded_note (w : World) (time : Nat) (svc : Service) (deed : Deed) : recorded (w.note time svc deed).journal =
    recorded w.journal ++ if deed.isRecorded then [((ServiceKey.ofService svc).text, deed)] else [] := by
  simp only [recorded, World.note, List.filter_append, List.map_append]
  cases deed <;> rfl

/-- A call of the cloud that does not break down is noted with its outcome. -/
theorem recorded_callCloud {α : Type} {svc : Service} {call : MemoryCloud → MemoryCloud.Outcome α × MemoryCloud}
    {deed : Except CloudError α → Deed} {result : Except CloudError α} (h : (call w.cloud).1 = some result) :
    recorded (w.callCloud time svc call deed).2.journal = recorded w.journal ++
      if (deed result).isRecorded then [((ServiceKey.ofService svc).text, deed result)] else [] := by
  rcases hc : call w.cloud with ⟨outcome, cloud⟩
  rw [hc] at h
  obtain rfl : outcome = some result := h
  simp only [World.callCloud, hc]
  exact recorded_note { w with cloud } time svc (deed result)

/-- An exchange puts on record the write that it is, or the event. -/
theorem recorded_answer {a : Answer q} (ha : (w.answer time q).1 = some a) :
    recorded (w.answer time q).2.journal = recorded w.journal ++ puts q a := by
  cases q with
  | ensure svc nodes => exact recorded_callCloud ((World.answer_ensure svc nodes).symm.trans ha)
  | delete svc => exact recorded_callCloud ((World.answer_delete svc).symm.trans ha)
  | lookup svc => exact recorded_callCloud ((World.answer_lookup svc).symm.trans ha)
  | record e => simp [World.answer, World.reply, World.record, recorded, Deed.isRecorded, puts, onRecord]
  | writeStatus svc status => exact recorded_note { w with cluster := (w.cluster.updateStatus svc status).2 } time svc _
  | setHash svc hash =>
    simp only [World.answer, World.reply, World.atOnce, World.setHash]
    split <;> exact recorded_note _ time svc _
  | removeHash svc =>
    simp only [World.answer, World.reply, World.atOnce, World.removeHash]
    split <;> exact recorded_note _ time svc _
  | service key =>
    simp only [World.answer, World.reply, World.atOnce, World.service]
    split <;> exact (List.append_nil _).symm
  | nodes =>
    simp only [World.answer, World.reply, World.atOnce, World.nodes]
    split <;> exact (List.append_nil _).symm
  | sleep pause =>
    simp only [World.answer, World.reply]
    split <;> exact (List.append_nil _).symm
  | _ => exact (List.append_nil _).symm

/-! ### Services that can be looked for -/

/-- Whether the services that are stored and remembered under a key have UIDs of ASCII characters. -/
structure World.AsciiAt (key : ServiceKey) (w : World) : Prop where
  stored : ∀ svc, w.cluster.service? key.ns key.name = some svc → svc.Ascii
  remembered : ∀ entry, w.cache.get? key = some entry → entry.service.Ascii

structure Heard (key : ServiceKey) (c : Course) (w : World) : Prop where
  world : w.AsciiAt key
  found : ∀ svc, c.found = some (some svc) → svc.Ascii
  recalled : ∀ entry, c.recalled = some (some entry) → entry.service.Ascii

/-- What is written of a service does not change its UID. -/
theorem World.AsciiAt.sameCores {cluster : MemoryCluster} {svc : Service} (h : w.AsciiAt key)
    (hc : World.SameCores w.cluster cluster) (hs : cluster.service? key.ns key.name = some svc) : svc.Ascii := by
  have hcore : w.cluster.core? (MemoryCluster.lookupKey key.ns key.name) = some svc.core := by
    rw [← hc.2, MemoryCluster.core?, show cluster.services.get? _ = some svc from hs, Option.map_some]
  obtain ⟨old, hold, he⟩ := Option.map_eq_some_iff.mp hcore
  exact (h.stored old hold).of_core he

theorem Heard.answer (h : Heard key c w) (hq : c.Allows settings key q) {a : Answer q}
    (ha : (w.answer time q).1 = some a) : Heard key (c.note q a) (w.answer time q).2 := by
  refine ⟨⟨fun svc => h.world.sameCores (w.answer_cluster time q), fun entry he => ?_⟩, fun svc hs => ?_,
    fun entry he => ?_⟩
  · rw [w.answer_cache time q] at he
    cases q with
    | remember k entry' =>
      rw [World.cacheAfter, SortedMap.get?_insert] at he
      split at he
      · obtain ⟨_, _, svc, nodes, status, hensured, rfl⟩ := hq
        obtain rfl := Option.some.inj he
        exact h.found svc hensured.about.2.1
      · exact h.world.remembered entry he
    | forget k =>
      rw [World.cacheAfter, SortedMap.get?_erase] at he
      split at he
      · cases he
      · exact h.world.remembered entry he
    | _ => exact h.world.remembered entry he
  · by_cases hservice : ∃ k, q = .service k
    · obtain ⟨k, rfl⟩ := hservice
      obtain ⟨rfl, _⟩ := hq
      cases a with
      | error e => exact h.found svc hs
      | ok found =>
        obtain rfl : found = some svc := Option.some.inj hs
        exact h.world.stored svc (World.answer_service ha).symm
    · rw [Course.found_note fun k he => hservice ⟨k, he⟩] at hs
      exact h.found svc hs
  · by_cases hrecall : ∃ k, q = .recall k
    · obtain ⟨k, rfl⟩ := hrecall
      obtain ⟨rfl, _⟩ := hq
      obtain rfl : w.cache.get? k = a := Option.some.inj ha
      exact h.world.remembered entry (Option.some.inj he)
    · rw [Course.recalled_note fun k he => hrecall ⟨k, he⟩] at he
      exact h.recalled entry he

/-- Every request of such a sync is answered. -/
theorem Heard.answers (h : Heard key c w) (hq : c.Allows settings key q) (time : Nat) :
    ∃ a, (w.answer time q).1 = some a := by
  refine Option.isSome_iff_exists.mp ?_
  cases q with
  | lookup svc => exact World.answer_lookup svc ▸ w.cloud.isSome_lookup (h.found svc hq.2.1.2.1)
  | ensure svc nodes => exact World.answer_ensure svc nodes ▸ w.cloud.isSome_ensure (h.found svc hq.1.2.1) nodes
  | delete svc =>
    have hascii : svc.Ascii := by
      rcases hq.2 with ⟨habout, _⟩ | ⟨_, entry, hentry, rfl⟩
      · exact h.found svc habout.2.1
      · exact h.recalled entry hentry
    exact World.answer_delete svc ▸ w.cloud.isSome_delete hascii
  | sleep pause =>
    simp only [World.answer, World.reply]
    split <;> rfl
  | _ => rfl

/-! ### Syncs, one after another -/

/-- What others do: anything to the cluster and the cache, the failures that are to come included, but nothing that is
on record. -/
structure Untold (w w' : World) : Prop where
  recorded : recorded w'.journal = recorded w.journal
  writes : cloudWrites w' = cloudWrites w

/-- What others do beside a sync of a key. -/
structure Beside (key : ServiceKey) (w w' : World) : Prop extends Untold w w' where
  ascii : w.AsciiAt key → w'.AsciiAt key

theorem Beside.refl (key : ServiceKey) (w : World) : Beside key w w := ⟨⟨rfl, rfl⟩, id⟩

structure Mirrors (w₀ : World) (t : Tally) (w : World) : Prop where
  entries : recorded w.journal = recorded w₀.journal ++ t.entries
  calls : cloudWrites w = cloudWrites w₀ ++ t.calls

theorem Mirrors.others (h : Mirrors w₀ t w) (hu : Untold w w') : Mirrors w₀ t w' :=
  ⟨hu.recorded.trans h.entries, hu.writes.trans h.calls⟩

theorem Mirrors.answer (h : Mirrors w₀ t w) (hq : t.Allows q) {a : Answer q} (ha : (w.answer time q).1 = some a) :
    Mirrors w₀ (t.note q a) (w.answer time q).2 where
  entries := by rw [recorded_answer ha, h.entries, Tally.entries_note hq a, List.append_assoc]
  calls := by rw [cloudWrites_answer, h.calls, Tally.calls_note hq a, List.append_assoc]

private def busy : World := { takenOver with cloud := takenOver.cloud.inject "Throttling" }

private def once : SyncSettings := { deleteRetry := { steps := 1 }, digest := fun _ => "0" }

end Simulation
end ServiceBalancer
