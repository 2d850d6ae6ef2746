import ServiceBalancer.Proofs.Program.Protocol
import ServiceBalancer.Sync

/-! The course of a sync: what it has read and done so far. A sync asks in a fixed order, calls the
cloud for what it has read only, and remembers a service only after its balancer was made sure of. -/
namespace ServiceBalancer.Sync

/-- What a successful call made of a balancer, and the status it told. -/
structure Push where
  service : Service
  nodes : List Node
  status : BalancerStatus

structure Course where
  /-- What was remembered of the service at the start. -/
  recalled : Option (Option CacheEntry) := none
  /-- The service, if the cluster has it. -/
  found : Option (Option Service) := none
  nodes : Option (List Node) := none
  pushed : Option Push := none
  /-- A service whose balancer is deleted while it is still remembered. -/
  owed : Option Service := none
  /-- Whether what was remembered is forgotten. -/
  forgot : Bool := false
  kept : Option CacheEntry := none

namespace Course

def note (c : Course) : (q : Request) → Answer q → Course
  | .recall _, (entry : Option CacheEntry) => { c with recalled := some entry }
  | .service _, (.ok svc : Except Error (Option Service)) => { c with found := some svc }
  | .nodes, (.ok nodes : Except Error (List Node)) => { c with nodes := some nodes }
  | .ensure svc nodes, (.ok status : Except CloudError BalancerStatus) =>
    { c with pushed := some ⟨svc, nodes, status⟩ }
  | .delete svc, (.ok () : Except CloudError Unit) => { c with owed := some svc }
  | .forget _, _ => { c with owed := none, forgot := true }
  | .remember _ entry, _ => { c with kept := some entry }
  | _, _ => c

def memory (c : Course) : Option CacheEntry := if c.forgot then none else c.recalled.join

def About (c : Course) (svc : Service) : Prop :=
  c.recalled.isSome ∧ c.found = some (some svc) ∧ svc.info.uid.isSome

structure Idle (c : Course) : Prop where
  nodes : c.nodes = none
  pushed : c.pushed = none
  owed : c.owed = none
  kept : c.kept = none

def Clear (c : Course) : Prop := c.owed = none ∧ c.kept = none

def Current (settings : SyncSettings) (svc : Service) (nodes : List Node) (entry : CacheEntry) : Prop :=
  entry.uid = svc.info.uid ∧ entry.fingerprint = some (svc.fingerprint settings.digest (svc.availableNodes nodes))

/-- Whether a service wants a balancer, and its balancer was made sure of: it was pushed, or what is
remembered of it is current. -/
structure Ensured (settings : SyncSettings) (c : Course) (svc : Service) (nodes : List Node)
    (status : BalancerStatus) : Prop where
  about : c.About svc
  wanted : svc.needsBalancer = true
  read : c.nodes = some nodes
  owed : c.owed = none
  made : c.pushed = some ⟨svc, svc.availableNodes nodes, status⟩ ∨
    c.pushed = none ∧ ∃ entry, c.memory = some entry ∧ Current settings svc nodes entry ∧ entry.status = status

/-- Whether a balancer may be deleted: that of a service which wants none or is remembered under another
UID, or that of a service which is gone. -/
def MayDelete (c : Course) (svc : Service) : Prop :=
  c.About svc ∧ (svc.needsBalancer = false ∨ ∃ entry, c.recalled = some (some entry) ∧ entry.uid ≠ svc.info.uid) ∨
    c.found = some none ∧ ∃ entry, c.recalled = some (some entry) ∧ entry.service = svc

def Allows (settings : SyncSettings) (key : ServiceKey) (c : Course) : Request → Prop
  | .recall k => k = key ∧ c = {}
  | .service k => k = key ∧ ∃ entry, c = { recalled := some entry }
  | .nodes => c.Idle ∧ ∃ svc, c.About svc ∧ svc.needsBalancer = true
  | .lookup svc => c.Idle ∧ c.About svc ∧ svc.needsBalancer = false
  | .ensure svc nodes => c.About svc ∧ svc.needsBalancer = true ∧ c.pushed = none ∧ c.owed = none ∧ c.kept = none ∧
    ∃ all, c.nodes = some all ∧ nodes = svc.availableNodes all ∧ ∀ entry, c.memory = some entry →
      ¬Current settings svc all entry
  | .delete svc => c.Idle ∧ c.MayDelete svc
  | .writeStatus svc status => c.kept = none ∧ ((∃ nodes, Ensured settings c svc nodes status) ∨
    c.Idle ∧ c.About svc ∧ svc.needsBalancer = false ∧ c.forgot = true ∧ status = {})
  | .setHash svc hash => c.kept = none ∧ hash = svc.hash settings.digest ∧
    ∃ nodes status, Ensured settings c svc nodes status ∧ c.pushed.isSome
  | .removeHash svc => c.Idle ∧ c.About svc ∧ svc.needsBalancer = false ∧ c.forgot = true
  | .remember k entry => k = key ∧ c.kept = none ∧ ∃ svc nodes status, Ensured settings c svc nodes status ∧
    entry = ⟨svc, svc.info.uid, status, some (svc.fingerprint settings.digest (svc.availableNodes nodes))⟩
  | .forget k => c.nodes = none ∧ c.pushed = none ∧ c.kept = none ∧ ((∃ svc, c.owed = some svc ∧ k = .ofService svc) ∨
    c.owed = none ∧ k = key ∧ ∃ svc, c.About svc ∧ svc.needsBalancer = false)
  | _ => True

/-- What holds at the end of a sync. Only a sync that succeeds remembers a service, and if the service
wants a balancer it does. -/
structure Ends (settings : SyncSettings) (c : Course) (result : Except Error Unit) : Prop where
  owed : c.owed = none
  kept : c.kept.isSome → result = .ok ()
  asked : result = .ok () → c.recalled.isSome ∧ c.found.isSome
  vouched : result = .ok () → ∀ svc, c.found = some (some svc) → svc.needsBalancer = true →
    ∃ nodes status, Ensured settings c svc nodes status ∧
      c.kept = some ⟨svc, svc.info.uid, status, some (svc.fingerprint settings.digest (svc.availableNodes nodes))⟩

/-! ### What an exchange leaves -/

section Note
variable {c : Course} {q : Request} {a : Answer q}

theorem recalled_note (hq : ∀ k, q ≠ .recall k) : (c.note q a).recalled = c.recalled := by
  cases q with
  | «recall» k => exact absurd rfl (hq k)
  | service k => cases a <;> rfl
  | nodes => cases a <;> rfl
  | ensure svc nodes => cases a <;> rfl
  | delete svc => cases a <;> rfl
  | _ => rfl

theorem found_note (hq : ∀ k, q ≠ .service k) : (c.note q a).found = c.found := by
  cases q with
  | service k => exact absurd rfl (hq k)
  | nodes => cases a <;> rfl
  | ensure svc nodes => cases a <;> rfl
  | delete svc => cases a <;> rfl
  | _ => rfl

/-- Without a push, what was pushed before is all. -/
theorem pushed_note (hne : ∀ svc nodes, q ≠ .ensure svc nodes) : (c.note q a).pushed = c.pushed := by
  cases q with
  | service k => cases a <;> rfl
  | nodes => cases a <;> rfl
  | ensure svc nodes => exact absurd rfl (hne svc nodes)
  | delete svc => cases a <;> rfl
  | _ => rfl

theorem kept_note (hne : ∀ k entry, q ≠ .remember k entry) : (c.note q a).kept = c.kept := by
  cases q with
  | service k => cases a <;> rfl
  | nodes => cases a <;> rfl
  | ensure svc nodes => cases a <;> rfl
  | delete svc => cases a <;> rfl
  | remember k entry => exact absurd rfl (hne k entry)
  | _ => rfl

theorem kept_note_isSome (h : c.kept.isSome) : (c.note q a).kept.isSome := by
  by_cases hq : ∃ k entry, q = .remember k entry
  · obtain ⟨k, entry, rfl⟩ := hq
    rfl
  · rwa [kept_note fun k entry he => hq ⟨k, entry, he⟩]

theorem forgot_note (hq : ∀ k, q ≠ .forget k) : (c.note q a).forgot = c.forgot := by
  cases q with
  | service k => cases a <;> rfl
  | nodes => cases a <;> rfl
  | ensure svc nodes => cases a <;> rfl
  | delete svc => cases a <;> rfl
  | forget k => exact absurd rfl (hq k)
  | _ => rfl

theorem forgot_note_true (h : c.forgot = true) : (c.note q a).forgot = true := by
  by_cases hq : ∃ k, q = .forget k
  · obtain ⟨k, rfl⟩ := hq
    rfl
  · rwa [forgot_note fun k he => hq ⟨k, he⟩]

end Note

end Course

def protocol (settings : SyncSettings) (key : ServiceKey) : Program.Protocol Answer Course where
  note := Course.note
  Allows := Course.Allows settings key

end ServiceBalancer.Sync
