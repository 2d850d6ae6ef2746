import ServiceBalancer.Proofs.Sync.Conduct

/-! What a sync can account for beside its course: whether the cloud has told that no balancer is left, and which
status was taken by the cluster. A sync forgets a service only when no balancer is left, and
calls for a balancer only if it remembers nothing of another UID. -/
namespace ServiceBalancer.Sync
open Program

structure Account where
  course : Course := {}
  /-- Whether no balancer is left. -/
  cleared : Bool := false
  /-- The status that was taken last. -/
  told : Option BalancerStatus := none
  /-- Whether a status was written to a service that was gone. -/
  missed : Bool := false

namespace Account

def clears (before : Bool) : (q : Request) → Answer q → Bool
  | .lookup _, (.ok found : Except CloudError (Option BalancerDescriptor)) => found.isNone
  | .ensure _ _, (.ok _ : Except CloudError BalancerStatus) => false
  | .delete _, (.ok () : Except CloudError Unit) => true
  | _, _ => before

def tells (before : Option BalancerStatus) : (q : Request) → Answer q → Option BalancerStatus
  | .writeStatus _ status, (.ok () : Except StatusWriteError Unit) => some status
  | _, _ => before

def misses (before : Bool) : (q : Request) → Answer q → Bool
  | .writeStatus _ _, (.error .notFound : Except StatusWriteError Unit) => true
  | _, _ => before

def note (a : Account) (q : Request) (answer : Answer q) : Account :=
  ⟨a.course.note q answer, clears a.cleared q answer, tells a.told q answer, misses a.missed q answer⟩

def Allows (a : Account) : Request → Prop
  | .forget _ => a.cleared = true
  | .ensure svc _ => ∀ entry, a.course.memory = some entry → entry.uid = svc.info.uid
  | _ => True

/-- Whether a status is published on a service: it was taken, or it was there, or the service is gone. -/
def Shown (a : Account) (svc : Service) (status : BalancerStatus) : Prop :=
  a.told = some status ∨ a.missed = true ∨ a.told = none ∧ svc.balancerStatus.agrees status = true

/-- What holds at the end of a sync that went well: what is remembered of a service that is gone was forgotten,
and the status that is remembered of a service that wants a balancer is published. -/
structure Ends (a : Account) : Prop where
  forgot : a.course.found = some none → ∀ entry, a.course.recalled = some (some entry) → a.course.forgot = true
  shown : ∀ svc, a.course.found = some (some svc) → svc.needsBalancer = true →
    ∃ entry, a.course.kept = some entry ∧ a.Shown svc entry.status

def discharged (a : Account) : Account :=
  { a with course := { a.course with owed := none, forgot := true }, cleared := true }

structure Alike (a b : Account) : Prop where
  found : b.course.found = a.course.found
  told : b.told = a.told
  missed : b.missed = a.missed

theorem Alike.refl (a : Account) : a.Alike a := ⟨rfl, rfl, rfl⟩

end Account

def ledger : Protocol Answer Account where
  note := Account.note
  Allows := Account.Allows

variable {settings : SyncSettings} {key : ServiceKey} {a : Account} {svc : Service} {fail : Account → Prop}

theorem tallies_record {type : EventType} {reason message : String} {post : Account → Unit → Prop} (h : post a ()) :
    Leads ledger post fail a (record svc type reason message) := leads_ask trivial fun _ => h

theorem tallies_retrying {policy : RetryPolicy} {part : Sync Unit} {post : Account → Unit → Prop}
    (h : Leads ledger post (· = a) a part) : Leads ledger post (· = a) a (retrying policy part) :=
  leads_retrying (fun _ => ⟨trivial, fun _ => rfl⟩) ⟨trivial, fun _ => rfl⟩ h

theorem tallies_delete : Leads ledger (fun a' _ => a' = a.discharged) (· = a) a (delete settings svc) := by
  refine tallies_retrying (.bind (leads_ask trivial fun r => ?_))
  cases r with
  | error e => exact .bind (tallies_record (leads_throw rfl))
  | ok =>
    refine .bind (leads_ask trivial fun _ => .bind (tallies_record (leads_ask ?_ fun _ => ?_)))
    · exact rfl
    · rfl

/-- What becomes of a status that is to be published. -/
theorem tallies_publish {status : BalancerStatus} : Leads ledger
    (fun a' _ => a' = a ∧ svc.balancerStatus.agrees status = true ∨ a' = { a with told := some status } ∨
      a' = { a with missed := true }) (· = a) a (publish settings key svc status) := by
  unfold publish
  split
  · next h => exact leads_pure (.inl ⟨rfl, h⟩)
  · refine tallies_retrying (.bind (leads_ask trivial fun r => ?_))
    rcases r with (_ | _ | e) | _
    · exact leads_pure (.inr (.inr rfl))
    · exact leads_throw rfl
    · exact leads_throw rfl
    · exact leads_pure (.inr (.inl rfl))

theorem tallies_stampHash : Leads ledger (fun a' _ => a' = a) (fun _ => True) a (stampHash settings svc) := by
  simp only [stampHash]
  split
  · exact leads_pure rfl
  · refine ⟨trivial, fun r => ?_⟩
    cases r with
    | error e => trivial
    | ok => rfl

theorem tallies_push {nodes : List Node} (hu : ∀ entry, a.course.memory = some entry → entry.uid = svc.info.uid) :
    Leads ledger (fun a' _ => a.Alike a') (fun _ => True) a (push key svc nodes) := by
  unfold push
  split
  case' isTrue => refine .bind (tallies_record ?_)
  all_goals
    refine .bind (leads_ask hu fun r => .bind (leads_ask trivial fun _ => ?_))
    cases r with
    | error e => exact .bind (tallies_record (leads_throw trivial))
    | ok status => exact .bind (tallies_record (leads_pure ⟨rfl, rfl, rfl⟩))

theorem tallies_ensure {cached : Option CacheEntry}
    (hu : ∀ entry, a.course.memory = some entry → entry.uid = svc.info.uid) :
    Leads ledger (fun a' _ => a.Alike a') (fun _ => True) a (ensure settings key svc cached) := by
  refine .bind ⟨trivial, fun r => ?_⟩
  rcases r with e | nodes
  · trivial
  refine leads_pure (a := nodes) ?_
  change Leads ledger _ _ { a with course := { a.course with nodes := some nodes } } _
  dsimp only
  split
  · exact leads_pure ⟨rfl, rfl, rfl⟩
  · refine .bind (Leads.mono (tallies_push hu) (fun a₁ status h => ?_) fun _ h => h)
    refine .bind (tallies_stampHash.mono ?_ fun _ h => h)
    rintro a₂ ⟨⟩ rfl
    exact leads_pure ⟨h.found, h.told, h.missed⟩

/-- A sync that brings a balancer up to date shows the status that it remembers. -/
theorem tallies_converge {uid : String} {cached : Option CacheEntry} (ht : a.told = none)
    (hu : ∀ entry, a.course.memory = some entry → entry.uid = svc.info.uid) :
    Leads ledger (fun a' _ => a'.course.found = a.course.found ∧ ∃ entry, a'.course.kept = some entry ∧
      a'.Shown svc entry.status) (fun _ => True) a (converge settings key svc uid cached) := by
  refine .bind ((tallies_ensure hu).mono ?_ fun _ h => h)
  rintro a₁ ⟨status, fingerprint⟩ h
  refine .bind (tallies_publish.mono (fun a₂ _ hp => leads_ask trivial fun _ => ?_) fun _ _ => trivial)
  rcases hp with ⟨rfl, hagrees⟩ | rfl | rfl
  · exact ⟨h.found, _, rfl, .inr (.inr ⟨h.told.trans ht, hagrees⟩)⟩
  · exact ⟨h.found, _, rfl, .inl rfl⟩
  · exact ⟨h.found, _, rfl, .inr (.inl rfl)⟩

theorem tallies_tearDown : Leads ledger (fun a' _ => a'.course.found = a.course.found) (fun _ => True) a
    (tearDown settings key svc) := by
  have hexisting : Leads ledger (fun a' _ => a'.course.found = a.course.found ∧ a'.cleared = true) (fun _ => True) a
      (deleteExisting settings svc) := by
    refine .bind (leads_ask trivial fun r => ?_)
    rcases r with e | _ | found
    · exact leads_throw trivial
    · exact leads_pure ⟨rfl, rfl⟩
    · refine tallies_delete.mono ?_ fun _ _ => trivial
      rintro a' ⟨⟩ rfl
      exact ⟨rfl, rfl⟩
  refine .bind (hexisting.mono (fun a₁ _ h => .bind (leads_ask h.2 fun _ => .bind ?_)) fun _ h => h)
  have hclear {a₂ : Account} : Leads ledger (fun a' _ => a' = a₂) (fun _ => True) a₂ (clearHash svc) := by
    unfold clearHash
    split
    · refine ⟨trivial, fun r => ?_⟩
      cases r with
      | error e => trivial
      | ok => rfl
    · exact leads_pure rfl
  refine hclear.mono ?_ fun _ h => h
  rintro a₂ ⟨⟩ rfl
  refine tallies_publish.mono ?_ fun _ _ => trivial
  rintro a₃ ⟨⟩ (⟨rfl, _⟩ | rfl | rfl) <;> exact h.1

/-- After an entry of another UID is dropped, nothing of another UID is remembered. -/
theorem tallies_sameIdentity {uid : String} {entry : Option CacheEntry} (hv : svc.info.uid = some uid)
    (hr : a.course.recalled = some entry) :
    Leads ledger (fun a' _ => a.Alike a' ∧ ∀ entry, a'.course.memory = some entry → entry.uid = svc.info.uid)
      (fun _ => True) a (sameIdentity settings svc uid entry) := by
  have hmemory {e : CacheEntry} (hm : a.course.memory = some e) : entry = some e := by
    simp only [Course.memory, hr, Option.join_some] at hm
    split at hm
    · cases hm
    · exact hm
  unfold sameIdentity
  split
  · refine leads_pure ⟨.refl a, fun e hm => ?_⟩
    cases hmemory hm
  · next entry =>
    split
    · next he =>
      refine leads_pure ⟨.refl a, fun e hm => ?_⟩
      rw [← Option.some.inj (hmemory hm), he, hv]
    · refine .bind (tallies_delete.mono ?_ fun _ _ => trivial)
      rintro a' ⟨⟩ rfl
      refine leads_pure ⟨⟨rfl, rfl, rfl⟩, fun e hm => ?_⟩
      cases hm

theorem tallies_update {entry : Option CacheEntry} (ht : a.told = none) (hs : a.course.found = some (some svc))
    (hr : a.course.recalled = some entry) :
    Leads ledger (fun a' _ => a'.Ends) (fun _ => True) a (update settings key entry svc) := by
  unfold update
  split
  · exact leads_throw trivial
  · next uid hv =>
    refine .bind ((tallies_sameIdentity hv hr).mono (fun a₁ cached h => ?_) fun _ h => h)
    have hfound {a' : Account} (hf : a'.course.found = a₁.course.found) : a'.course.found = some (some svc) :=
      hf.trans (h.1.found.trans hs)
    split
    · next hn =>
      refine (tallies_converge (h.1.told.trans ht) h.2).mono (fun a' _ hc => ⟨fun hnone => ?_, fun svc' hs' _ => ?_⟩)
        fun _ h => h
      · cases (hfound hc.1).symm.trans hnone
      · obtain rfl := Option.some.inj (Option.some.inj ((hfound hc.1).symm.trans hs'))
        exact hc.2
    · next hn =>
      refine tallies_tearDown.mono (fun a' _ hf => ⟨fun hnone => ?_, fun svc' hs' hn' => ?_⟩) fun _ h => h
      · cases (hfound hf).symm.trans hnone
      · obtain rfl := Option.some.inj (Option.some.inj ((hfound hf).symm.trans hs'))
        exact absurd hn' hn

/-- A sync can account for all that it does. -/
theorem obeys_ledger (settings : SyncSettings) (key : ServiceKey) :
    Obeys ledger (fun a result => result = .ok () → a.Ends) {} (program settings key) := by
  have hreconcile : Leads ledger (fun a' _ => a'.Ends) (fun _ => True) {} (reconcile settings key) := by
    refine .bind (leads_ask trivial fun entry => .bind ⟨trivial, fun r => ?_⟩)
    rcases r with e | _ | svc
    · trivial
    · cases entry with
      | none => exact leads_pure ⟨(fun _ _ hr => by cases hr), fun _ hs => by cases hs⟩
      | some entry =>
        refine tallies_delete.mono ?_ fun _ _ => trivial
        rintro a' ⟨⟩ rfl
        exact ⟨fun _ _ _ => rfl, fun _ hs => by cases hs⟩
    · exact tallies_update rfl rfl rfl
  refine .bind (Obeys.mono hreconcile fun a r hr => ⟨trivial, fun _ => ?_⟩)
  cases r with
  | error e => exact ⟨trivial, fun _ h => by cases h⟩
  | ok => exact fun _ => hr

/-! ### Course and account -/

def bookkeeping (settings : SyncSettings) (key : ServiceKey) : Protocol Answer Account where
  note := Account.note
  Allows a q := a.course.Allows settings key q ∧ a.Allows q

theorem obeys_both {p : Program Answer (Except Error Unit)} {post : Course → Except Error Unit → Prop}
    {post' : Account → Except Error Unit → Prop} (h : Obeys (protocol settings key) post a.course p)
    (h' : Obeys ledger post' a p) :
    Obeys (bookkeeping settings key) (fun a r => post a.course r ∧ post' a r) a p := by
  induction p generalizing a with
  | done r => exact ⟨h, h'⟩
  | ask q next ih => exact ⟨⟨h.1, h'.1⟩, fun answer => ih answer (h.2 answer) (h'.2 answer)⟩

theorem obeys_bookkeeping (settings : SyncSettings) (key : ServiceKey) : Obeys (bookkeeping settings key)
    (fun a result => a.course.Ends settings result ∧ (result = .ok () → a.Ends)) {} (program settings key) :=
  obeys_both (obeys_program settings key) (obeys_ledger settings key)

end ServiceBalancer.Sync
