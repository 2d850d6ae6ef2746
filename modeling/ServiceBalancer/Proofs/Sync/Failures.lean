import ServiceBalancer.Proofs.Program.Protocol
import ServiceBalancer.Sync

/-! What becomes of a failure of the cloud on its way through a sync. The sync ends with a report of it. That of a
failed deletion is in words, since it asks to be tried again; the others keep what the cloud said. -/
namespace ServiceBalancer.Sync
open Program

/-- A call of the cloud, and its failure if it has failed. -/
abbrev Call := Request × Option CloudError

def callOf? : (q : Request) → Answer q → Option Call
  | .lookup svc, (.ok _ : Except CloudError (Option BalancerDescriptor)) => some (.lookup svc, none)
  | .lookup svc, (.error e : Except CloudError (Option BalancerDescriptor)) => some (.lookup svc, some e)
  | .ensure svc nodes, (.ok _ : Except CloudError BalancerStatus) => some (.ensure svc nodes, none)
  | .ensure svc nodes, (.error e : Except CloudError BalancerStatus) => some (.ensure svc nodes, some e)
  | .delete svc, (.ok _ : Except CloudError Unit) => some (.delete svc, none)
  | .delete svc, (.error e : Except CloudError Unit) => some (.delete svc, some e)
  | _, _ => none

/-- The last call of the cloud among some exchanges, newest first. -/
def lastCall? (log : List (Exchange Answer)) : Option Call := log.findSome? (fun x => callOf? x.request x.answer)

def watch : Protocol Answer (Option Call) where
  note last q a := (callOf? q a).or last
  Allows _ _ := True

theorem noted_watch (log : List (Exchange Answer)) : watch.noted none log = lastCall? log := by
  induction log with
  | nil => rfl
  | cons x log ih =>
    rw [Protocol.noted_cons, ih, lastCall?, lastCall?, List.findSome?_cons]
    cases hx : callOf? x.request x.answer <;> simp [watch, hx]

inductive Reported (key : ServiceKey) (e : CloudError) : Request → Error → Prop where
  | lookup (svc : Service) : Reported key e (.lookup svc) (.cloud e)
  | ensure (svc : Service) (nodes : List Node) : Reported key e (.ensure svc nodes) (.ensureFailed key.text e)
  /-- After the last of some tries, in words. -/
  | delete (svc : Service) (tries : Nat) : Reported key e (.delete svc) (.retryExhausted tries
      (.tryAgain ("delete load balancer of " ++ (ServiceKey.ofService svc).text ++ ": " ++ e.text)))

def Calm (last : Option Call) : Prop := ∀ q e, last ≠ some (q, some e)

theorem calm_none : Calm none := fun q e h => by cases h

theorem calm_done (q : Request) : Calm (some (q, none)) := fun q' e h => by cases h

variable {α β : Type} {key : ServiceKey} {settings : SyncSettings} {svc : Service} {last : Option Call}

/-- What a part of a sync may come to: a good end with no failed call before it, or the report of a failure. -/
def Faithful (key : ServiceKey) (last : Option Call) : Except Error α → Prop
  | .ok _ => Calm last
  | .error failure => ∀ q e, last = some (q, some e) → Reported key e q failure

def Reports (key : ServiceKey) (last : Option Call) (part : Sync α) : Prop :=
  Obeys watch (Faithful key) last part.run

theorem Calm.faithful (h : Calm last) (r : Except Error α) : Faithful key last r := by
  cases r with
  | ok a => exact h
  | error failure => exact fun q e he => absurd he (h q e)

theorem reports_pure (h : Calm last) (a : α) : Reports key last (pure a : Sync α) := h

theorem reports_throw (h : Calm last) (failure : Error) : Reports key last (throw failure : Sync α) :=
  h.faithful (.error failure : Except Error α)

theorem Reports.bind {part : Sync α} {next : α → Sync β} (h : Reports key last part)
    (hnext : ∀ last a, Calm last → Reports key last (next a)) : Reports key last (part >>= next) := by
  refine Obeys.bind (Obeys.mono h fun last r hr => ?_)
  cases r with
  | ok a => exact hnext last a hr
  | error failure => exact hr

/-- A part may go on as the answer demands. -/
theorem reports_ask {q : Request} {next : Answer q → Sync α}
    (h : ∀ a, Reports key (watch.note last q a) (next a)) : Reports key last (ask q >>= next) := ⟨trivial, h⟩

/-- A request of the cluster is not a call of the cloud, and fails on its own account. -/
theorem reports_request {request : Program Answer (Except Error α)} (h : Calm last)
    (hr : Obeys watch (fun last' _ => last' = last) last request) : Reports key last (ExceptT.mk request) := by
  refine Obeys.mono hr ?_
  rintro _ r rfl
  exact h.faithful r

/-- A retried part reports the failure of its last try. -/
theorem reports_retrying {policy : RetryPolicy} {part : Sync Unit} (again : Option Call → Prop) (h : again last)
    (hpart : ∀ last, again last → Obeys watch (Retry.Tried again (Faithful key)) last part.run) :
    Reports key last (retrying policy part) :=
  Retry.obeys_retry again (fun _ _ h => ⟨trivial, fun _ => h⟩) (fun _ h => ⟨trivial, fun _ => h⟩) hpart h

/-! ### The parts of a sync -/

theorem reports_record {type : EventType} {reason message : String} (h : Calm last) :
    Reports key last (record svc type reason message) := ⟨trivial, fun _ => h⟩

theorem reports_delete : Reports key last (delete settings svc) := by
  -- A try may start after a failed one, since its own call takes the place of that.
  refine reports_retrying (fun _ => True) trivial fun last _ => ⟨trivial, fun r => ?_⟩
  cases r with
  | error e =>
    refine ⟨trivial, fun _ => ⟨trivial, fun tries q e' he => ?_⟩⟩
    cases he
    exact .delete svc tries
  | ok => exact ⟨trivial, fun _ => ⟨trivial, fun _ => ⟨trivial, fun _ => calm_done (.delete svc)⟩⟩⟩

theorem reports_publish {status : BalancerStatus} (h : Calm last) :
    Reports key last (publish settings key svc status) := by
  unfold publish
  split
  · exact reports_pure h ()
  · refine reports_retrying Calm h fun last h => ⟨trivial, fun r => ?_⟩
    rcases r with (_ | _ | e) | _
    · exact h
    · exact h.faithful (.error (.statusConflict key.text) : Except Error Unit)
    · exact ⟨h, fun tries => h.faithful (.error (.retryExhausted tries _) : Except Error Unit)⟩
    · exact h

theorem reports_push {nodes : List Node} (h : Calm last) : Reports key last (push key svc nodes) := by
  unfold push
  split
  case' isTrue => refine .bind (reports_record h) fun last _ _ => ?_
  all_goals
    refine reports_ask fun r => reports_ask fun _ => ?_
    cases r with
    | error e =>
      refine ⟨trivial, fun _ q e' he => ?_⟩
      cases he
      exact .ensure svc nodes
    | ok status => exact ⟨trivial, fun _ => calm_done (.ensure svc nodes)⟩

theorem reports_stampHash (h : Calm last) : Reports key last (stampHash settings svc) := by
  simp only [stampHash]
  split
  · exact reports_pure h ()
  · exact reports_request h ⟨trivial, fun _ => rfl⟩

theorem reports_clearHash (h : Calm last) : Reports key last (clearHash svc) := by
  unfold clearHash
  split
  · exact reports_request h ⟨trivial, fun _ => rfl⟩
  · exact reports_pure h ()

theorem reports_ensure {cached : Option CacheEntry} (h : Calm last) :
    Reports key last (ensure settings key svc cached) := by
  refine .bind (reports_request h ⟨trivial, fun _ => rfl⟩) fun last nodes h => ?_
  dsimp only
  split
  · exact reports_pure h _
  · exact .bind (reports_push h) fun last status h => .bind (reports_stampHash h) fun last _ h => reports_pure h _

theorem reports_converge {uid : String} {cached : Option CacheEntry} (h : Calm last) :
    Reports key last (converge settings key svc uid cached) :=
  .bind (reports_ensure h) fun _ _ h => .bind (reports_publish h) fun _ _ h => ⟨trivial, fun _ => h⟩

theorem reports_deleteExisting : Reports key last (deleteExisting settings svc) := by
  refine reports_ask fun r => ?_
  rcases r with e | _ | found
  · intro q e' he
    cases he
    exact .lookup svc
  · exact calm_done (.lookup svc)
  · exact reports_delete

theorem reports_tearDown : Reports key last (tearDown settings key svc) := by
  refine .bind reports_deleteExisting fun _ _ h => reports_ask fun _ => ?_
  exact .bind (reports_clearHash h) fun _ _ h => reports_publish h

theorem reports_sameIdentity {uid : String} {entry : Option CacheEntry} (h : Calm last) :
    Reports key last (sameIdentity settings svc uid entry) := by
  unfold sameIdentity
  split
  · exact reports_pure h none
  · split
    · exact reports_pure h _
    · exact .bind reports_delete fun _ _ h => reports_pure h none

theorem reports_update {entry : Option CacheEntry} (h : Calm last) :
    Reports key last (update settings key entry svc) := by
  unfold update
  split
  · exact reports_throw h _
  · refine .bind (reports_sameIdentity h) fun _ _ h => ?_
    split
    · exact reports_converge h
    · exact reports_tearDown

theorem reports_reconcile (settings : SyncSettings) (key : ServiceKey) :
    Reports key none (reconcile settings key) := by
  refine reports_ask fun entry => .bind (reports_request calm_none ⟨trivial, fun _ => rfl⟩) fun last found h => ?_
  split
  · exact reports_update h
  · exact reports_delete
  · exact reports_pure h ()

/-- A whole sync reports the failure of its last call of the cloud, if that has failed. -/
theorem obeys_watch (settings : SyncSettings) (key : ServiceKey) :
    Obeys watch (Faithful key) none (program settings key) := by
  refine .bind (Obeys.mono (reports_reconcile settings key) fun last r hr => ⟨trivial, fun _ => ?_⟩)
  cases r with
  | error failure => exact ⟨trivial, fun _ => hr⟩
  | ok => exact hr

end ServiceBalancer.Sync
