import ServiceBalancer.Proofs.Sync.Conduct

/-! How a status is published. It is written in one or more tries, another one being made only after a failure that says
nothing about the service. The outcome of the last try decides what the publication comes to, and whether the sync goes
on to remember the service. -/
namespace ServiceBalancer.Sync
open Program

/-- A try to write a status, with what came of it. -/
structure Writing where
  service : Service
  status : BalancerStatus
  outcome : Except StatusWriteError Unit

def Failed (outcome : Except StatusWriteError Unit) : Prop := ∃ e, outcome = .error (.failed e)

/-- Whether nothing is left to be written. That is so on a service that is gone, too. -/
def Accepted (outcome : Except StatusWriteError Unit) : Prop := outcome = .ok () ∨ outcome = .error .notFound

def publicationResult (key : ServiceKey) (tries : Nat) : Except StatusWriteError Unit → Except Error Unit
  | .ok () | .error .notFound => .ok ()
  | .error .conflict => .error (.statusConflict key.text)
  | .error (.failed e) =>
    .error (.retryExhausted tries (.tryAgain ("update status of " ++ key.text ++ ": " ++ e.text)))

/-- Whether a service shows the addresses of a status already. A list that is absent counts as empty. -/
def Shows (svc : Service) (status : BalancerStatus) : Prop :=
  ((svc.status.bind (·.loadBalancer)).bind (·.ingress)).getD [] = status.ingress.getD []

structure Written (settings : SyncSettings) (svc : Service) (status : BalancerStatus) (tries : List Writing) : Prop where
  only : ∀ t ∈ tries, t.service = svc ∧ t.status = status
  differs : tries ≠ [] → ¬ Shows svc status
  bounded : tries.length ≤ max 1 settings.statusRetry.steps
  /-- All but the newest have failed. -/
  again : ∀ t ∈ tries.tail, Failed t.outcome

/-- How a status is published, with what it comes to. -/
structure Published (settings : SyncSettings) (key : ServiceKey) (svc : Service) (status : BalancerStatus)
    (tries : List Writing) (result : Except Error Unit) : Prop extends Written settings svc status tries where
  shown : tries = [] → Shows svc status
  /-- A failure is the end only if there may be no further try. -/
  spent : ∀ t, tries.head? = some t → Failed t.outcome → tries.length = max 1 settings.statusRetry.steps
  result : result = match tries.head? with
    | some t => publicationResult key tries.length t.outcome
    | none => .ok ()

structure Writings where
  tries : List Writing := []
  kept : Bool := false

namespace Writings

def note (w : Writings) : (q : Request) → Answer q → Writings
  | .writeStatus svc status, (outcome : Except StatusWriteError Unit) =>
    { w with tries := ⟨svc, status, outcome⟩ :: w.tries }
  | .remember _ _, _ => { w with kept := true }
  | _, _ => w

/-- A try is made if none of another kind was, and a service is remembered after a try that was accepted. -/
def Allows (settings : SyncSettings) (w : Writings) : Request → Prop
  | .writeStatus svc status => w.kept = false ∧ ¬ Shows svc status ∧
    w.tries.length < max 1 settings.statusRetry.steps ∧
    ∀ t ∈ w.tries, t.service = svc ∧ t.status = status ∧ Failed t.outcome
  | .remember _ _ => ∀ t, w.tries.head? = some t → Accepted t.outcome
  | _ => True

end Writings

def writing (settings : SyncSettings) : Protocol Answer Writings where
  note := Writings.note
  Allows := Writings.Allows settings

def writingOf? : (q : Request) → Answer q → Option Writing
  | .writeStatus svc status, (outcome : Except StatusWriteError Unit) => some ⟨svc, status, outcome⟩
  | _, _ => none

/-- The tries to write a status among some exchanges, newest first. -/
def writings (log : List (Exchange Answer)) : List Writing := log.filterMap (fun x => writingOf? x.request x.answer)

def Request.isRemember : Request → Bool
  | .remember _ _ => true
  | _ => false

variable {α β : Type} {settings : SyncSettings} {key : ServiceKey} {svc : Service} {status : BalancerStatus}
  {w : Writings} {tries : List Writing} {result : Except Error Unit}

theorem agrees_iff : svc.balancerStatus.agrees status = true ↔ Shows svc status := by
  rw [BalancerStatus.agrees, decide_eq_true_iff, svc.addresses_balancerStatus]
  rfl

theorem noted_writing (log : List (Exchange Answer)) :
    (writing settings).noted {} log = ⟨writings log, log.any fun x => x.request.isRemember⟩ := by
  induction log with
  | nil => rfl
  | cons x log ih =>
    obtain ⟨q, a⟩ := x
    rw [Protocol.noted_cons, ih]
    cases q <;> rfl

/-! ### Tries of one publication -/

theorem written_nil : Written settings svc status [] := ⟨by simp, by simp, by simp, by simp⟩

theorem Written.cons {outcome : Except StatusWriteError Unit} (hd : ¬ Shows svc status)
    (hl : tries.length < max 1 settings.statusRetry.steps)
    (ht : ∀ t ∈ tries, t.service = svc ∧ t.status = status ∧ Failed t.outcome) :
    Written settings svc status (⟨svc, status, outcome⟩ :: tries) := by
  refine ⟨fun t h => ?_, fun _ => hd, hl, fun t h => (ht t h).2.2⟩
  rcases List.mem_cons.mp h with rfl | h
  · exact ⟨rfl, rfl⟩
  · exact ⟨(ht t h).1, (ht t h).2.1⟩

/-- A publication that ends well was accepted. -/
theorem Published.accepted (h : Published settings key svc status tries (.ok ())) :
    ∀ t, tries.head? = some t → Accepted t.outcome := by
  intro t ht
  have hr := h.result
  rw [ht] at hr
  rcases ho : t.outcome with (_ | _ | e) | ⟨⟩
  · exact .inr rfl
  · simp [ho, publicationResult] at hr
  · simp [ho, publicationResult] at hr
  · exact .inl rfl

/-- Whether the try of some number is due: all before it were of the same kind, and have failed. -/
structure DueTry (svc : Service) (status : BalancerStatus) (n : Nat) (w : Writings) : Prop where
  kept : w.kept = false
  failed : ∀ t ∈ w.tries, t.service = svc ∧ t.status = status ∧ Failed t.outcome
  number : w.tries.length + 1 = n

def Over (settings : SyncSettings) (key : ServiceKey) (svc : Service) (status : BalancerStatus) (w : Writings)
    (result : Except Error Unit) : Prop :=
  w.kept = false ∧ Published settings key svc status w.tries result

private theorem obeys_publishOnce {n : Nat} (hd : ¬ Shows svc status)
    (h : DueTry svc status n w) (hle : n ≤ max 1 settings.statusRetry.steps) :
    Obeys (writing settings) (Retry.TriedAt (DueTry svc status) (Over settings key svc status)
      (max 1 settings.statusRetry.steps) n) w (publishOnce key svc status).run := by
  have hn := h.number
  have hl : w.tries.length < max 1 settings.statusRetry.steps := by omega
  refine ⟨⟨h.kept, hd, hl, h.failed⟩, fun outcome => ?_⟩
  -- Any outcome may be that of the last try, a failure only if no other try may follow.
  have hend (r : Except Error Unit) (hspent : Failed outcome → n = max 1 settings.statusRetry.steps)
      (hr : r = publicationResult key n outcome) :
      Published settings key svc status (⟨svc, status, outcome⟩ :: w.tries) r := by
    refine ⟨.cons hd hl h.failed, nofun, fun t he hf => ?_, ?_⟩
    · obtain rfl := Option.some.inj he
      exact hn.trans (hspent hf)
    · rw [hr, ← hn]
      rfl
  rcases outcome with (_ | _ | e) | ⟨⟩
  · exact ⟨h.kept, hend _ (fun ⟨e, he⟩ => by cases he) rfl⟩
  · exact ⟨h.kept, hend _ (fun ⟨e, he⟩ => by cases he) rfl⟩
  · refine ⟨fun _ => ⟨h.kept, fun t ht => ?_, congrArg (· + 1) hn⟩, ?_⟩
    · rcases List.mem_cons.mp ht with rfl | ht
      · exact ⟨rfl, rfl, e, rfl⟩
      · exact h.failed t ht
    · rintro rfl
      exact ⟨h.kept, hend _ (fun _ => rfl) rfl⟩
  · exact ⟨h.kept, hend _ (fun ⟨e, he⟩ => by cases he) rfl⟩

/-- A publication makes its tries in turn, and its result tells of the last. -/
theorem obeys_publish : Obeys (writing settings) (Over settings key svc status) {}
    (publish settings key svc status).run := by
  unfold publish
  split
  · next h => exact ⟨rfl, written_nil, fun _ => agrees_iff.mp h, by simp, rfl⟩
  · next h =>
    have hd : ¬ Shows svc status := fun hs => h (agrees_iff.mpr hs)
    exact Retry.obeys_retryAt (DueTry svc status) (fun n w d ha => ⟨trivial, fun _ => ha⟩)
      (fun n w ha => ⟨trivial, fun _ => ha⟩) (fun n w hle ha => obeys_publishOnce hd ha hle) ⟨rfl, by simp, rfl⟩

/-! ### Outcomes that are laid down -/

/-- Surroundings in which the outcomes of the tries and the draws are laid down. Both are counted, and nothing else is
answered. -/
def laidDown (outcomes : Nat → Except StatusWriteError Unit) (draws : Nat → Float) :
    (q : Request) → Nat × Nat → Option (Answer q) × (Nat × Nat)
  | .writeStatus _ _, (tried, drawn) => (some (outcomes tried), (tried + 1, drawn))
  | .sleep _, s => (some (), s)
  | .draw, (tried, drawn) => (some (draws drawn), (tried, drawn + 1))
  | _, s => (none, s)

/-- So many tries with the first of some outcomes, newest first. -/
def triesOf (svc : Service) (status : BalancerStatus) (outcomes : Nat → Except StatusWriteError Unit) (n : Nat) :
    List Writing := ((List.range n).map fun i => ⟨svc, status, outcomes i⟩).reverse

def Request.IsPublishing (svc : Service) (status : BalancerStatus) : Request → Prop
  | .writeStatus s written => s = svc ∧ written = status
  | .sleep _ | .draw => True
  | _ => False

def publishing (svc : Service) (status : BalancerStatus) : Protocol Answer Unit where
  note _ _ _ := ()
  Allows _ q := q.IsPublishing svc status

theorem obeys_publishing :
    Obeys (publishing svc status) (fun _ _ => True) () (publish settings key svc status).run := by
  unfold publish
  split
  · trivial
  · refine Retry.obeys_retry (fun _ => True) (fun _ _ _ => ⟨trivial, fun _ => trivial⟩)
      (fun _ _ => ⟨trivial, fun _ => trivial⟩) (fun _ _ => ⟨⟨rfl, rfl⟩, fun outcome => ?_⟩) trivial
    rcases outcome with (_ | _ | e) | ⟨⟩
    · trivial
    · trivial
    · exact ⟨trivial, fun _ => trivial⟩
    · trivial

/-- The requests of a publication are answered, and the tries among them come to the outcomes one by one. -/
theorem laidDown_answers {outcomes : Nat → Except StatusWriteError Unit} {draws : Nat → Float} {q : Request}
    {log : List (Exchange Answer)} {s : Nat × Nat} (hq : q.IsPublishing svc status)
    (hlog : writings log = triesOf svc status outcomes s.1) :
    ∃ a, (laidDown outcomes draws q s).1 = some a ∧
      writings (⟨q, a⟩ :: log) = triesOf svc status outcomes (laidDown outcomes draws q s).2.1 := by
  cases q with
  | writeStatus s' written =>
    obtain ⟨rfl, rfl⟩ := hq
    refine ⟨outcomes s.1, rfl, ?_⟩
    change ⟨s', written, outcomes s.1⟩ :: writings log = _
    rw [hlog]
    simp [laidDown, triesOf, List.range_succ]
  | sleep d => exact ⟨(), rfl, hlog⟩
  | draw => exact ⟨draws s.2, rfl, hlog⟩
  | _ => exact hq.elim

/-- A publication comes to its end by itself. -/
theorem talk_publish (outcomes : Nat → Except StatusWriteError Unit) (draws : Nat → Float) :
    ∃ result log n drawn,
      (publish settings key svc status).run.talk (laidDown outcomes draws) [] (0, 0) = (some result, log, n, drawn) ∧
      writings log = triesOf svc status outcomes n ∧ Published settings key svc status (writings log) result := by
  have hobeys : Obeys (publishing svc status) (fun _ _ => True) ((publishing svc status).noted () [])
      (publish settings key svc status).run := obeys_publishing
  let laid : List (Exchange Answer) → Nat × Nat → Prop := fun log s => writings log = triesOf svc status outcomes s.1
  have hstart : laid [] (0, 0) := rfl
  have hlaid := hobeys.talk_log (laidDown outcomes draws) laid (fun _ _ => False)
    (fun log s q a hq hlog ha => by
      obtain ⟨a', ha', hnext⟩ := laidDown_answers hq hlog
      obtain rfl := Option.some.inj (ha.symm.trans ha')
      exact hnext)
    (fun log s q hq hlog ha => by
      obtain ⟨a', ha', -⟩ := laidDown_answers hq hlog
      cases ha.symm.trans ha')
    hstart
  rcases ht : (publish settings key svc status).run.talk (laidDown outcomes draws) [] (0, 0) with
    ⟨_ | result, log, n, drawn⟩
  all_goals rw [ht] at hlaid
  · exact hlaid.elim
  · refine ⟨result, log, n, drawn, rfl, hlaid.2, ?_⟩
    have hpublished := (obeys_publish.talk_end (laidDown outcomes draws) ht).2
    rwa [noted_writing] at hpublished

/-! ### Parts that do not write -/

def Mute (settings : SyncSettings) (part : Sync α) : Prop :=
  ∀ w, Leads (writing settings) (fun w' _ => w' = w) (· = w) w part

theorem mute_pure (a : α) : Mute settings (pure a : Sync α) := fun _ => leads_pure rfl

theorem mute_throw (e : Error) : Mute settings (throw e : Sync α) := fun _ => leads_throw rfl

theorem Mute.bind {part : Sync α} {next : α → Sync β} (h : Mute settings part)
    (hnext : ∀ a, Mute settings (next a)) : Mute settings (part >>= next) := by
  refine fun w => .bind ((h w).mono ?_ fun _ h => h)
  rintro _ a rfl
  exact hnext a _

theorem mute_ask {q : Request} (hq : ∀ settings w, Writings.Allows settings w q ∧ ∀ a, w.note q a = w) :
    Mute settings (ask q) := fun w => leads_ask (hq settings w).1 (hq settings w).2

theorem mute_record {type : EventType} {reason message : String} : Mute settings (record svc type reason message) :=
  mute_ask fun _ _ => ⟨trivial, fun _ => rfl⟩

/-- A request that fails by itself. -/
theorem mute_request {request : Program Answer (Except Error α)}
    (h : ∀ w, Obeys (writing settings) (fun w' _ => w' = w) w request) : Mute settings (ExceptT.mk request) := by
  refine fun w => Obeys.mono (h w) ?_
  rintro _ (e | a) rfl <;> rfl

theorem mute_retrying {policy : RetryPolicy} {part : Sync Unit} (h : Mute settings part) :
    Mute settings (retrying policy part) :=
  fun w => leads_retrying (fun _ => ⟨trivial, fun _ => rfl⟩) ⟨trivial, fun _ => rfl⟩ (h w)

theorem mute_delete : Mute settings (delete settings svc) := by
  refine mute_retrying (.bind (mute_ask fun _ _ => ⟨trivial, fun _ => rfl⟩) fun r => ?_)
  cases r with
  | error e => exact .bind mute_record fun _ => mute_throw _
  | ok =>
    exact .bind (mute_ask fun _ _ => ⟨trivial, fun _ => rfl⟩) fun _ => .bind mute_record fun _ =>
      mute_ask fun _ _ => ⟨trivial, fun _ => rfl⟩

theorem mute_push {nodes : List Node} : Mute settings (push key svc nodes) := by
  unfold push
  split
  case' isTrue => refine .bind mute_record fun _ => ?_
  all_goals
    refine .bind (mute_ask fun _ _ => ⟨trivial, fun _ => rfl⟩) fun r =>
      .bind (mute_ask fun _ _ => ⟨trivial, fun _ => rfl⟩) fun _ => ?_
    cases r with
    | error e => exact .bind mute_record fun _ => mute_throw _
    | ok status => exact .bind mute_record fun _ => mute_pure status

theorem mute_stampHash : Mute settings (stampHash settings svc) := by
  simp only [stampHash]
  split
  · exact mute_pure ()
  · exact mute_request fun _ => ⟨trivial, fun _ => rfl⟩

theorem mute_clearHash : Mute settings (clearHash svc) := by
  unfold clearHash
  split
  · exact mute_request fun _ => ⟨trivial, fun _ => rfl⟩
  · exact mute_pure ()

theorem mute_ensure {cached : Option CacheEntry} : Mute settings (ensure settings key svc cached) := by
  refine .bind (mute_request fun _ => ⟨trivial, fun _ => rfl⟩) fun nodes => ?_
  dsimp only
  split
  · exact mute_pure _
  · exact .bind mute_push fun _ => .bind mute_stampHash fun _ => mute_pure _

theorem mute_deleteExisting : Mute settings (deleteExisting settings svc) := by
  refine .bind (mute_ask fun _ _ => ⟨trivial, fun _ => rfl⟩) fun r => ?_
  rcases r with e | _ | found
  · exact mute_throw _
  · exact mute_pure ()
  · exact mute_delete

theorem mute_sameIdentity {uid : String} {entry : Option CacheEntry} :
    Mute settings (sameIdentity settings svc uid entry) := by
  unfold sameIdentity
  split
  · exact mute_pure none
  · split
    · exact mute_pure _
    · exact .bind mute_delete fun _ => mute_pure none

/-! ### Syncs -/

def Settled (settings : SyncSettings) (key : ServiceKey) (tries : List Writing) (result : Except Error Unit) : Prop :=
  ∀ t, tries.head? = some t → Published settings key t.service t.status tries result

theorem settled_nil (result : Except Error Unit) : Settled settings key [] result := fun _ h => by cases h

theorem Published.settled (h : Published settings key svc status tries result) : Settled settings key tries result := by
  intro t ht
  obtain ⟨rfl, rfl⟩ := h.only t (List.mem_of_mem_head? ht)
  exact h

def Settles (settings : SyncSettings) (key : ServiceKey) (part : Sync Unit) : Prop :=
  Obeys (writing settings) (fun w r => Settled settings key w.tries r) {} part.run

/-- Nothing is written before a publication. -/
theorem Mute.settles {part : Sync α} {next : α → Sync Unit} (h : Mute settings part)
    (hnext : ∀ a, Settles settings key (next a)) : Settles settings key (part >>= next) := by
  refine Obeys.bind (Obeys.mono (h {}) fun w r hr => ?_)
  cases r with
  | error e =>
    obtain rfl : w = {} := hr
    exact settled_nil _
  | ok a =>
    obtain rfl : w = {} := hr
    exact hnext a

theorem Mute.settles_last {part : Sync Unit} (h : Mute settings part) : Settles settings key part := by
  refine Obeys.mono (h {}) fun w r hr => ?_
  obtain rfl : w = {} := by cases r <;> exact hr
  exact settled_nil r

theorem settles_publish : Settles settings key (publish settings key svc status) :=
  obeys_publish.mono fun _ _ h => h.2.settled

/-- A service is remembered only after its publication has ended well. -/
theorem settles_converge {uid : String} {cached : Option CacheEntry} :
    Settles settings key (converge settings key svc uid cached) := by
  refine mute_ensure.settles fun ensured => Obeys.bind (obeys_publish.mono fun w r hr => ?_)
  cases r with
  | error e => exact hr.2.settled
  | ok => exact ⟨hr.2.accepted, fun _ => hr.2.settled⟩

theorem settles_tearDown : Settles settings key (tearDown settings key svc) :=
  mute_deleteExisting.settles fun _ => Mute.settles (mute_ask fun _ _ => ⟨trivial, fun _ => rfl⟩) fun _ =>
    mute_clearHash.settles fun _ => settles_publish

theorem settles_update {entry : Option CacheEntry} : Settles settings key (update settings key entry svc) := by
  unfold update
  split
  · exact (mute_throw _).settles_last
  · refine mute_sameIdentity.settles fun _ => ?_
    split
    · exact settles_converge
    · exact settles_tearDown

theorem settles_reconcile (settings : SyncSettings) (key : ServiceKey) :
    Settles settings key (reconcile settings key) := by
  refine Mute.settles (mute_ask fun _ _ => ⟨trivial, fun _ => rfl⟩) fun entry =>
    Mute.settles (mute_request fun _ => ⟨trivial, fun _ => rfl⟩) fun found => ?_
  split
  · exact settles_update
  · exact mute_delete.settles_last
  · exact (mute_pure ()).settles_last

theorem obeys_writing (settings : SyncSettings) (key : ServiceKey) :
    Obeys (writing settings) (fun w r => Settled settings key w.tries r) {} (program settings key) := by
  refine .bind (Obeys.mono (settles_reconcile settings key) fun w r hr => ⟨trivial, fun _ => ?_⟩)
  cases r with
  | error e => exact ⟨trivial, fun _ => hr⟩
  | ok => exact hr

structure Writings.Sound (settings : SyncSettings) (w : Writings) : Prop where
  written : ∀ t, w.tries.head? = some t → Written settings t.service t.status w.tries
  kept : w.kept = true → ∀ t, w.tries.head? = some t → Accepted t.outcome

theorem sound_empty : Writings.Sound settings {} := ⟨fun _ h => (by cases h), fun _ _ h => (by cases h)⟩

theorem Writings.Sound.note {q : Request} {a : Answer q} (h : w.Sound settings) (hq : w.Allows settings q) :
    (w.note q a).Sound settings := by
  cases q with
  | writeStatus svc status =>
    obtain ⟨hk, hd, hl, ht⟩ := hq
    refine ⟨fun t he => ?_, fun hkept => absurd (hk.symm.trans hkept) Bool.false_ne_true⟩
    obtain rfl := Option.some.inj he
    exact .cons hd hl ht
  | remember k entry => exact ⟨h.written, fun _ => hq⟩
  | _ => exact h

/-! ### The whole -/

/-- Whether a status is what a service should show: that of its balancer, which was made sure of, or an empty one if it
wants none. -/
def Desired (settings : SyncSettings) (c : Course) (svc : Service) (status : BalancerStatus) : Prop :=
  (∃ nodes, c.Ensured settings svc nodes status) ∨ c.About svc ∧ svc.needsBalancer = false ∧ status = {}

/-- How a sync of a key writes statuses, as far as it has come. -/
structure Publishes (settings : SyncSettings) (key : ServiceKey) (log : List (Exchange Answer))
    (ended : Option (Except Error Unit)) : Prop where
  desired : ∀ later earlier svc status outcome, log = later ++ ⟨.writeStatus svc status, outcome⟩ :: earlier →
    Desired settings ((protocol settings key).noted {} earlier) svc status
  written : ∀ t, (writings log).head? = some t → Written settings t.service t.status (writings log)
  /-- Nothing is remembered unless the last try was accepted. -/
  unremembered : ∀ t, (writings log).head? = some t → ¬ Accepted t.outcome → ∀ x ∈ log, x.request.isRemember = false
  settled : ∀ result, ended = some result → Settled settings key (writings log) result

/-- Whatever the outcomes are, a publication comes to an end of its own, without a try exactly if the addresses are
shown already. Each try is to write the status that is to be published, and each but the last has failed. The last was
accepted, met a conflict, or has failed as the last of as many tries as the policy allows; the result tells which. In a
sync, whatever it is answered, all tries are to write what the service should show, the result of the last is that of
the sync, and if it was not accepted, nothing is remembered. -/
theorem status_written_as_desired (settings : SyncSettings) (key : ServiceKey) :
    (∀ (svc : Service) (status : BalancerStatus) (outcomes : Nat → Except StatusWriteError Unit) (draws : Nat → Float),
      ∃ result log n drawn,
        (publish settings key svc status).run.talk (laidDown outcomes draws) [] (0, 0) = (some result, log, n, drawn) ∧
        writings log = triesOf svc status outcomes n ∧ Published settings key svc status (writings log) result) ∧
    ∀ (σ : Type) (answer : (q : Request) → σ → Option (Answer q) × σ) (s : σ),
      Publishes settings key ((program settings key).talk answer [] s).2.1
        ((program settings key).talk answer [] s).1 := by
  refine ⟨fun svc status => talk_publish, fun σ answer s => ?_⟩
  have hsound := (obeys_writing settings key).talk_keeps answer
    (fun log => ((writing settings).noted {} log).Sound settings) (fun _ _ _ hq hi => hi.note hq) sound_empty s
  have hdesired {later earlier : List (Exchange Answer)} {x : Exchange Answer}
      (he : ((program settings key).talk answer [] s).2.1 = later ++ x :: earlier) :=
    (obeys_program settings key).talk_allowed answer s he
  rcases ht : (program settings key).talk answer [] s with ⟨ended, log, s'⟩
  rw [ht] at hsound hdesired
  rw [noted_writing] at hsound
  refine ⟨fun later earlier svc status outcome he => ?_, hsound.written, fun t hhead hrefused x hx => ?_,
    fun result he => ?_⟩
  · exact (hdesired he).2.imp_right fun h => ⟨h.2.1, h.2.2.1, h.2.2.2.2⟩
  · refine Bool.eq_false_iff.mpr fun hremember => hrefused (hsound.kept ?_ t hhead)
    exact List.any_eq_true.mpr ⟨x, hx, hremember⟩
  · subst he
    have hsettled := (obeys_writing settings key).talk_end answer ht
    rwa [noted_writing] at hsettled

end ServiceBalancer.Sync
