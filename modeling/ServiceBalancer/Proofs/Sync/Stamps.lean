import ServiceBalancer.Proofs.Json.Reading
import ServiceBalancer.Proofs.Program.Amid
import ServiceBalancer.Sync

/-! What becomes of a sync that is granted all it asks for. It ends well, even if the service turns out to be gone at a
status write; but if the stamp of a hash is refused, that refusal is how the sync ends. -/
namespace ServiceBalancer.Sync
open Program

inductive Favour where
  /-- All was granted. -/
  | granted
  /-- All was granted but the stamp of a hash. -/
  | unstamped (e : Error)
  /-- Something else was not granted. -/
  | denied
  deriving DecidableEq

/-- What an answer grants of a sync of a service. That the service is gone is no denial of a status write. -/
def favour (svc : Service) : (q : Request) → Answer q → Favour
  | .recall _, (some entry : Option CacheEntry) => if entry.status.Fits then .granted else .denied
  | .service _, (.ok (some found) : Except Error (Option Service)) => if found = svc then .granted else .denied
  | .service _, _ => .denied
  | .nodes, (.error _ : Except Error (List Node)) => .denied
  | .lookup _, (.error _ : Except CloudError (Option BalancerDescriptor)) => .denied
  | .ensure _ _, (.ok status : Except CloudError BalancerStatus) => if status.Fits then .granted else .denied
  | .ensure _ _, (.error _ : Except CloudError BalancerStatus) => .denied
  | .delete _, (.error _ : Except CloudError Unit) => .denied
  | .writeStatus _ _, (.error .conflict : Except StatusWriteError Unit) => .denied
  | .writeStatus _ _, (.error (.failed _) : Except StatusWriteError Unit) => .denied
  | .setHash _ _, (.error e : Except Error Unit) => .unstamped e
  | .removeHash _, (.error _ : Except Error Unit) => .denied
  | _, _ => .granted

def Request.isWrite : Request → Bool
  | .writeStatus _ _ | .setHash _ _ | .removeHash _ => true
  | _ => false

/-- What a sync of a service asks of its writer while all is granted. A hash is stamped only on a service that wants a
balancer and has another hash. -/
def Proper (settings : SyncSettings) (svc : Service) : Request → Prop
  | .writeStatus s status => s = svc ∧ status.Fits
  | .setHash s hash => s = svc ∧ svc.needsBalancer = true ∧ hash = svc.hash settings.digest ∧
      svc.info.labelMap.get? WellKnown.serviceHash ≠ some hash
  | .removeHash s => s = svc
  | _ => True

/-- Keeps how a sync has been answered. After a refused stamp nothing is written any more. -/
def favours (settings : SyncSettings) (svc : Service) : Protocol Answer Favour where
  note g q a := match g with
    | .granted => favour svc q a
    | g => g
  Allows g q := match g with
    | .granted => Proper settings svc q
    | .unstamped _ => q.isWrite = false
    | .denied => True

variable {α β : Type} {settings : SyncSettings} {key : ServiceKey} {svc : Service} {post : α → Prop} {g : Favour}

/-- How a part of a sync ends: well while all is granted, and with the refusal of a stamp. -/
def Ends (post : α → Prop) : Favour → Except Error α → Prop
  | .granted, r => ∃ a, r = .ok a ∧ post a
  | .unstamped e, r => r = .error e
  | .denied, _ => True

def Goes (settings : SyncSettings) (svc : Service) (post : α → Prop) (part : Sync α) : Prop :=
  Obeys (favours settings svc) (Ends post) .granted part.run

theorem obeys_denied (p : Program Answer α) (post : Favour → α → Prop) (h : ∀ a, post .denied a) :
    Obeys (favours settings svc) post .denied p := by
  induction p with
  | done a => exact h a
  | ask q next ih => exact ⟨trivial, fun a => ih a⟩

theorem goes_pure {a : α} (h : post a) : Goes settings svc post (pure a : Sync α) := ⟨a, rfl, h⟩

theorem Goes.bind {part : Sync α} {next : α → Sync β} {post' : β → Prop} (h : Goes settings svc post part)
    (hnext : ∀ a, post a → Goes settings svc post' (next a)) : Goes settings svc post' (part >>= next) := by
  refine Obeys.bind (Obeys.mono h fun g r hr => ?_)
  cases g with
  | granted =>
    obtain ⟨a, rfl, ha⟩ := hr
    exact hnext a ha
  | unstamped e =>
    obtain rfl : r = .error e := hr
    exact rfl
  | denied => exact obeys_denied _ _ fun _ => trivial

/-- A part may go on as a granted answer demands. -/
theorem goes_ask {q : Request} {next : Answer q → Sync α} (hq : Proper settings svc q)
    (hstamp : ∀ a e, favour svc q a ≠ .unstamped e)
    (h : ∀ a, favour svc q a = .granted → Goes settings svc post (next a)) :
    Goes settings svc post (ask q >>= next) := by
  refine ⟨hq, fun a => ?_⟩
  rcases hf : favour svc q a with _ | e | _
  · have hnote : (favours settings svc).note .granted q a = .granted := hf
    rw [hnote]
    exact h a hf
  · exact absurd hf (hstamp a e)
  · have hnote : (favours settings svc).note .granted q a = .denied := hf
    rw [hnote]
    exact obeys_denied _ _ fun _ => trivial

/-- A request that is always granted. -/
theorem goes_tell {q : Request} {next : Answer q → Sync α} (hq : Proper settings svc q)
    (hf : ∀ a, favour svc q a = .granted) (h : ∀ a, Goes settings svc post (next a)) :
    Goes settings svc post (ask q >>= next) :=
  goes_ask hq (fun a e he => by rw [hf] at he; cases he) fun a _ => h a

private theorem tried_denied (r : Except Error Unit) :
    Retry.Tried (fun g => g = .granted ∨ g = .denied) (Ends fun _ => True) .denied r := by
  cases r with
  | ok => trivial
  | error e =>
    simp only [Retry.Tried]
    split
    · exact ⟨.inr trivial, fun _ => trivial⟩
    · trivial

/-- A retried part that stamps nothing goes as its first try does. -/
theorem goes_retrying {policy : RetryPolicy} {part : Sync Unit}
    (h : Obeys (favours settings svc) (fun g r => g = .denied ∨ g = .granted ∧ r = .ok ()) .granted part.run) :
    Goes settings svc (fun _ => True) (retrying policy part) := by
  have hkept (g : Favour) (hg : g = .granted ∨ g = .denied) (q : Request) (hq : Proper settings svc q)
      (hf : ∀ a, favour svc q a = .granted) : Obeys (favours settings svc) (fun g _ => g = .granted ∨ g = .denied) g
        (Program.request q) := by
    rcases hg with rfl | rfl
    · exact ⟨hq, fun a => .inl (hf a)⟩
    · exact ⟨trivial, fun a => .inr rfl⟩
  refine Retry.obeys_retry (fun g => g = .granted ∨ g = .denied) (fun g d hg => hkept g hg (.sleep d) trivial fun _ => rfl)
    (fun g hg => hkept g hg .draw trivial fun _ => rfl) (fun g hg => ?_) (.inl rfl)
  rcases hg with rfl | rfl
  · refine Obeys.mono h fun g r hr => ?_
    rcases hr with rfl | ⟨rfl, rfl⟩
    · exact tried_denied r
    · exact ⟨(), rfl, trivial⟩
  · exact obeys_denied _ _ tried_denied

/-! ### The parts of a sync -/

theorem goes_record {service : Service} {type : EventType} {reason message : String} :
    Goes settings svc (fun _ => True) (record service type reason message) := ⟨trivial, fun a => ⟨a, rfl, trivial⟩⟩

theorem goes_delete {service : Service} : Goes settings svc (fun _ => True) (delete settings service) := by
  refine goes_retrying ⟨trivial, fun r => ?_⟩
  cases r with
  | error e => exact obeys_denied _ _ fun _ => .inl rfl
  | ok =>
    exact ⟨trivial, fun _ => ⟨trivial, fun _ => ⟨trivial, fun _ => .inr ⟨rfl, rfl⟩⟩⟩⟩

theorem goes_publish {status : BalancerStatus} (h : status.Fits) :
    Goes settings svc (fun _ => True) (publish settings key svc status) := by
  unfold publish
  split
  · exact goes_pure trivial
  · refine goes_retrying ⟨⟨rfl, h⟩, fun r => ?_⟩
    rcases r with (_ | _ | e) | _
    · exact .inr ⟨rfl, rfl⟩
    · exact .inl rfl
    · exact .inl rfl
    · exact .inr ⟨rfl, rfl⟩

theorem goes_push {nodes : List Node} : Goes settings svc (fun status => status.Fits) (push key svc nodes) := by
  unfold push
  split
  case' isTrue => refine .bind goes_record fun _ _ => ?_
  all_goals
    refine goes_ask trivial (fun a e he => ?_) fun r hr => goes_tell trivial (fun _ => rfl) fun _ => ?_
    · cases a with
      | error => cases he
      | ok status =>
        simp only [favour] at he
        split at he <;> cases he
    · cases r with
      | error e => cases hr
      | ok status =>
        have hfits : status.Fits := by
          simp only [favour] at hr
          split at hr
          · assumption
          · cases hr
        exact .bind goes_record fun _ _ => goes_pure hfits

theorem goes_stampHash (h : svc.needsBalancer = true) :
    Goes settings svc (fun _ => True) (stampHash settings svc) := by
  simp only [stampHash]
  split
  · exact goes_pure trivial
  · next hlabel =>
    refine ⟨⟨rfl, h, rfl, hlabel⟩, fun r => ?_⟩
    cases r with
    | error e => exact rfl
    | ok => exact ⟨(), rfl, trivial⟩

theorem goes_clearHash : Goes settings svc (fun _ => True) (clearHash svc) := by
  unfold clearHash
  split
  · refine ⟨rfl, fun r => ?_⟩
    cases r with
    | error e => trivial
    | ok => exact ⟨(), rfl, trivial⟩
  · exact goes_pure trivial

theorem goes_ensure {cached : Option CacheEntry} (hneeds : svc.needsBalancer = true)
    (h : ∀ entry, cached = some entry → entry.status.Fits) :
    Goes settings svc (fun ensured => ensured.status.Fits) (ensure settings key svc cached) := by
  have hnodes : Goes settings svc (fun _ : List Node => True) (ExceptT.mk (.request Request.nodes)) := by
    refine ⟨trivial, fun r => ?_⟩
    cases r with
    | error e => trivial
    | ok nodes => exact ⟨nodes, rfl, trivial⟩
  refine .bind hnodes fun nodes _ => ?_
  dsimp only
  split
  · next entry he => exact goes_pure (h entry (Option.filter_eq_some_iff.mp he).1)
  · exact .bind goes_push fun status hs => .bind (goes_stampHash hneeds) fun _ _ => goes_pure hs

theorem goes_converge {uid : String} {cached : Option CacheEntry} (hneeds : svc.needsBalancer = true)
    (h : ∀ entry, cached = some entry → entry.status.Fits) :
    Goes settings svc (fun _ => True) (converge settings key svc uid cached) :=
  .bind (goes_ensure hneeds h) fun _ he => .bind (goes_publish he) fun _ _ =>
    ⟨trivial, fun a => ⟨a, rfl, trivial⟩⟩

theorem goes_deleteExisting : Goes settings svc (fun _ => True) (deleteExisting settings svc) := by
  refine goes_ask trivial (fun a e he => ?_) fun r hr => ?_
  · rcases a with _ | _ | _ <;> cases he
  · rcases r with _ | _ | found
    · cases hr
    · exact goes_pure trivial
    · exact goes_delete

theorem goes_tearDown : Goes settings svc (fun _ => True) (tearDown settings key svc) := by
  have hempty : BalancerStatus.Fits {} := fun l hl => by cases hl
  exact .bind goes_deleteExisting fun _ _ => goes_tell trivial (fun _ => rfl) fun _ =>
    .bind goes_clearHash fun _ _ => goes_publish hempty

theorem goes_sameIdentity {uid : String} {entry : Option CacheEntry}
    (h : ∀ e, entry = some e → e.status.Fits) :
    Goes settings svc (fun cached => ∀ e, cached = some e → e.status.Fits) (sameIdentity settings svc uid entry) := by
  unfold sameIdentity
  split
  · exact goes_pure h
  · split
    · exact goes_pure h
    · exact .bind goes_delete fun _ _ => goes_pure fun e he => by cases he

theorem goes_update {entry : Option CacheEntry} (hu : svc.info.uid ≠ none)
    (h : ∀ e, entry = some e → e.status.Fits) :
    Goes settings svc (fun _ => True) (update settings key entry svc) := by
  unfold update
  split
  · next hnone => exact absurd hnone hu
  · refine .bind (goes_sameIdentity h) fun cached hcached => ?_
    split
    · next hneeds => exact goes_converge hneeds hcached
    · exact goes_tearDown

/-- A sync that reads the service and is granted all it asks for ends well, but for the refusal of a stamp. -/
theorem goes_reconcile (hu : svc.info.uid ≠ none) :
    Goes settings svc (fun _ => True) (reconcile settings key) := by
  refine goes_ask trivial (fun a e he => ?_) fun cached hc => ?_
  · cases a with
    | none => cases he
    | some entry =>
      simp only [favour] at he
      split at he <;> cases he
  have hcached : ∀ e, cached = some e → e.status.Fits := by
    rintro e rfl
    simp only [favour] at hc
    split at hc
    · assumption
    · cases hc
  have hservice : Goes settings svc (fun found => found = some svc) (ExceptT.mk (.request (Request.service key))) := by
    refine ⟨trivial, fun r => ?_⟩
    rcases r with e | _ | found
    · trivial
    · trivial
    · by_cases hfound : found = svc
      · subst hfound
        have hnote : (favours settings found).note .granted (.service key) (.ok (some found)) = .granted := if_pos rfl
        rw [hnote]
        exact ⟨_, rfl, rfl⟩
      · have hnote : (favours settings svc).note .granted (.service key) (.ok (some found)) = .denied := if_neg hfound
        rw [hnote]
        trivial
  refine .bind hservice fun found hfound => ?_
  subst hfound
  exact goes_update hu hcached

/-- The same of the whole sync. -/
theorem obeys_favours (hu : svc.info.uid ≠ none) (key : ServiceKey) :
    Obeys (favours settings svc) (Ends (fun _ => True)) .granted (program settings key) := by
  refine .bind (Obeys.mono (goes_reconcile hu) fun g r hr => ?_)
  cases g with
  | granted =>
    obtain ⟨a, rfl, _⟩ := hr
    exact ⟨trivial, fun _ => ⟨(), rfl, trivial⟩⟩
  | unstamped e =>
    obtain rfl : r = .error e := hr
    exact ⟨rfl, fun _ => ⟨rfl, fun _ => rfl⟩⟩
  | denied => exact obeys_denied _ _ fun _ => trivial

/-! ### Refused stamps -/

def refusal? : (q : Request) → Answer q → Option Error
  | .setHash _ _, (.error e : Except Error Unit) => some e
  | _, _ => none

def stampRefusal? {σ : Type} (visits : List (Visit Answer σ)) : Option Error :=
  visits.findSome? fun v => refusal? v.request v.answer

private theorem refusal?_of_granted {q : Request} {a : Answer q} (h : favour svc q a = .granted) :
    refusal? q a = none := by
  cases q <;> first | rfl | (cases a <;> first | rfl | cases h)

private theorem refusal?_of_unstamped {q : Request} {a : Answer q} {e : Error} (h : favour svc q a = .unstamped e) :
    refusal? q a = some e := by
  unfold favour at h
  split at h
  case h_11 =>
    cases h
    rfl
  all_goals first | cases h | (split at h <;> cases h)

def favourAfter {σ : Type} (settings : SyncSettings) (svc : Service) (g : Favour) (visits : List (Visit Answer σ)) :
    Favour :=
  visits.foldl (fun g v => (favours settings svc).note g v.request v.answer) g

def Favour.refusal? : Favour → Option Error
  | .unstamped e => some e
  | _ => none

private theorem favourAfter_of_ne {σ : Type} (hg : g ≠ .granted) (visits : List (Visit Answer σ)) :
    favourAfter settings svc g visits = g := by
  induction visits with
  | nil => rfl
  | cons v rest ih =>
    have hnote : (favours settings svc).note g v.request v.answer = g := by
      cases g with
      | granted => exact absurd rfl hg
      | unstamped | denied => rfl
    rw [favourAfter, List.foldl_cons, hnote]
    exact ih

/-- Unless something else is denied, a refused stamp is told by what has been answered. -/
theorem stampRefusal?_eq {σ : Type} {visits : List (Visit Answer σ)}
    (h : favourAfter settings svc .granted visits ≠ .denied) :
    stampRefusal? visits = (favourAfter settings svc .granted visits).refusal? := by
  induction visits with
  | nil => rfl
  | cons v rest ih =>
    have hnext : favourAfter settings svc .granted (v :: rest) =
        favourAfter settings svc (favour svc v.request v.answer) rest := rfl
    rw [hnext] at h ⊢
    rw [stampRefusal?, List.findSome?_cons]
    rcases hv : favour svc v.request v.answer with _ | e | _
    · rw [hv] at h
      rw [refusal?_of_granted hv]
      exact ih h
    · rw [refusal?_of_unstamped hv, favourAfter_of_ne (g := .unstamped e) nofun]
      rfl
    · rw [hv] at h
      exact absurd (favourAfter_of_ne (g := .denied) nofun rest) h

end ServiceBalancer.Sync
