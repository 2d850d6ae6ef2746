import ServiceBalancer.Proofs.Sync.Course
import ServiceBalancer.Proofs.Sync.Parts

/-! Every sync keeps to its protocol, whatever the answers are. One lemma for each part of the
program says what its success and its failure leave behind. -/
namespace ServiceBalancer.Sync
open Program

/-- Whether a part of a sync keeps to the protocol, ends well under `post`, and fails under `fail`. -/
def Keeps {α : Type} (settings : SyncSettings) (key : ServiceKey) (post : Course → α → Prop)
    (fail : Course → Prop) (c : Course) (part : Sync α) : Prop :=
  Obeys (protocol settings key) (fun c r => match r with | .ok a => post c a | .error _ => fail c) c part.run

variable {settings : SyncSettings} {key : ServiceKey} {c : Course} {α β : Type} {post : Course → α → Prop}
  {fail : Course → Prop} {svc : Service}

theorem keeps_pure {a : α} (h : post c a) : Keeps settings key post fail c (pure a) := h

theorem keeps_throw {e : Error} (h : fail c) : Keeps settings key post fail c (throw e : Sync α) := h

theorem Keeps.bind {part : Sync α} {next : α → Sync β} {post : Course → β → Prop}
    (h : Keeps settings key (fun c a => Keeps settings key post fail c (next a)) fail c part) :
    Keeps settings key post fail c (part >>= next) := Leads.bind h

theorem Keeps.mono {part : Sync α} {post' : Course → α → Prop} {fail' : Course → Prop}
    (h : Keeps settings key post fail c part) (hp : ∀ c a, post c a → post' c a) (hf : ∀ c, fail c → fail' c) :
    Keeps settings key post' fail' c part := Leads.mono h hp hf

theorem keeps_ask {q : Request} {post : Course → Answer q → Prop} (ha : c.Allows settings key q)
    (hp : ∀ a, post (c.note q a) a) : Keeps settings key post fail c (ask q) :=
  ⟨ha, hp⟩

/-- Recording an event leaves the course as it is. -/
theorem keeps_record {type : EventType} {reason message : String} {post : Course → Unit → Prop} (h : post c ()) :
    Keeps settings key post fail c (record svc type reason message) :=
  keeps_ask trivial fun _ => h

/-- A part that leaves the course as it is when it fails may be repeated. -/
theorem keeps_retrying {policy : RetryPolicy} {part : Sync Unit} {post : Course → Unit → Prop}
    (h : Keeps settings key post (· = c) c part) : Keeps settings key post (· = c) c (retrying policy part) :=
  leads_retrying (fun _ => ⟨trivial, fun _ => rfl⟩) ⟨trivial, fun _ => rfl⟩ h

/-! ### Deleting -/

/-- A deletion that succeeds is followed by forgetting; one that fails changes nothing. -/
theorem keeps_deleteOnce (hi : c.Idle) (hd : c.MayDelete svc) :
    Keeps settings key (fun c' _ => c' = { c with forgot := true }) (· = c) c (deleteOnce svc) := by
  refine .bind (keeps_ask ⟨hi, hd⟩ fun r => ?_)
  cases r with
  | error e => exact .bind (keeps_record (keeps_throw rfl))
  | ok =>
    refine .bind (keeps_ask trivial fun _ => .bind (keeps_record (keeps_ask ?_ fun _ => ?_)))
    · exact ⟨hi.nodes, hi.pushed, hi.kept, .inl ⟨svc, rfl, rfl⟩⟩
    · simp only [Course.note, ← hi.owed]

theorem keeps_delete (hi : c.Idle) (hd : c.MayDelete svc) :
    Keeps settings key (fun c' _ => c' = { c with forgot := true }) (· = c) c (delete settings svc) :=
  keeps_retrying (keeps_deleteOnce hi hd)

/-! ### Publishing -/

theorem keeps_publishOnce {status : BalancerStatus} (hw : c.Allows settings key (.writeStatus svc status)) :
    Keeps settings key (fun c' _ => c' = c) (· = c) c (publishOnce key svc status) := by
  refine .bind (keeps_ask hw fun r => ?_)
  rcases r with (_ | _ | e) | _
  · exact keeps_pure rfl
  · exact keeps_throw rfl
  · exact keeps_throw rfl
  · exact keeps_pure rfl

/-- Publishing leaves the course as it is. -/
theorem keeps_publish {status : BalancerStatus} (hw : c.Allows settings key (.writeStatus svc status)) :
    Keeps settings key (fun c' _ => c' = c) (· = c) c (publish settings key svc status) := by
  unfold publish
  split
  · exact keeps_pure rfl
  · exact keeps_retrying (keeps_publishOnce hw)

/-! ### Making sure of a balancer -/

theorem keeps_push {nodes : List Node} (ha : c.Allows settings key (.ensure svc nodes)) :
    Keeps settings key (fun c' status => c' = { c with pushed := some ⟨svc, nodes, status⟩ }) (· = c) c
      (push key svc nodes) := by
  unfold push
  split
  case' isTrue => refine .bind (keeps_record ?_)
  all_goals
    refine .bind (keeps_ask ha fun r => .bind (keeps_ask trivial fun _ => ?_))
    cases r with
    | error e => exact .bind (keeps_record (keeps_throw rfl))
    | ok status => exact .bind (keeps_record (keeps_pure rfl))

theorem keeps_stampHash {nodes : List Node} {status : BalancerStatus} (he : c.Ensured settings svc nodes status)
    (hp : c.pushed.isSome) (hk : c.kept = none) :
    Keeps settings key (fun c' _ => c' = c) (· = c) c (stampHash settings svc) := by
  simp only [stampHash]
  split
  · exact keeps_pure rfl
  · refine ⟨⟨hk, rfl, nodes, status, he, hp⟩, fun r => ?_⟩
    cases r <;> rfl

/-- A balancer that was made sure of was pushed, or is remembered with the present fingerprint. -/
theorem keeps_ensure (hi : c.Idle) (ha : c.About svc) (hn : svc.needsBalancer = true)
    (hu : ∀ entry, c.memory = some entry → entry.uid = svc.info.uid) :
    Keeps settings key (fun c' r => c'.kept = none ∧ ∃ nodes, c'.Ensured settings svc nodes r.status ∧
      r.fingerprint = svc.fingerprint settings.digest (svc.availableNodes nodes)) Course.Clear c
      (ensure settings key svc c.memory) := by
  refine .bind ⟨⟨hi, svc, ha, hn⟩, fun r => ?_⟩
  rcases r with e | nodes
  · exact ⟨hi.owed, hi.kept⟩
  refine keeps_pure (a := nodes) ?_
  change Keeps settings key _ _ { c with nodes := some nodes } _
  dsimp only
  split
  · next entry he =>
    obtain ⟨hm, hf⟩ := Option.filter_eq_some_iff.mp he
    refine keeps_pure ⟨hi.kept, nodes, ⟨ha, hn, rfl, hi.owed, .inr ⟨hi.pushed, entry, hm, ⟨hu entry hm, ?_⟩, rfl⟩⟩, rfl⟩
    simpa using hf
  · next he =>
    have hall : ∀ entry, c.memory = some entry → ¬Course.Current settings svc nodes entry := by
      intro entry hm hc
      simp [hm, Option.filter, hc.2] at he
    have hcall : Course.Allows settings key { c with nodes := some nodes } (.ensure svc (svc.availableNodes nodes)) :=
      ⟨ha, hn, hi.pushed, hi.owed, hi.kept, nodes, rfl, rfl, hall⟩
    refine .bind ((keeps_push hcall).mono ?_ ?_)
    · rintro c' status rfl
      have he : Course.Ensured settings
          { c with nodes := some nodes, pushed := some ⟨svc, svc.availableNodes nodes, status⟩ } svc nodes status :=
        ⟨ha, hn, rfl, hi.owed, .inl rfl⟩
      refine .bind ((keeps_stampHash he rfl hi.kept).mono ?_ ?_)
      · rintro c' ⟨⟩ rfl
        exact keeps_pure ⟨hi.kept, nodes, he, rfl⟩
      · rintro c' rfl
        exact ⟨hi.owed, hi.kept⟩
    · rintro c' rfl
      exact ⟨hi.owed, hi.kept⟩

theorem keeps_converge {uid : String} (hi : c.Idle) (ha : c.About svc) (hn : svc.needsBalancer = true)
    (hv : svc.info.uid = some uid) (hu : ∀ entry, c.memory = some entry → entry.uid = svc.info.uid) :
    Keeps settings key (fun c' _ => c'.Ends settings (.ok ())) Course.Clear c
      (converge settings key svc uid c.memory) := by
  refine .bind ((keeps_ensure hi ha hn hu).mono ?_ fun _ hc => hc)
  rintro c₁ ⟨status, fingerprint⟩ ⟨hk, nodes, he, rfl⟩
  refine .bind ((keeps_publish ⟨hk, .inl ⟨nodes, he⟩⟩).mono ?_ ?_)
  · rintro c' ⟨⟩ rfl
    refine keeps_ask ⟨rfl, hk, svc, nodes, status, he, by rw [hv]⟩ fun _ =>
      ⟨he.owed, fun _ => rfl, fun _ => ?_, fun _ svc' hs _ => ?_⟩
    · exact ⟨he.about.1, Option.isSome_of_eq_some he.about.2.1⟩
    · obtain rfl := Option.some.inj (Option.some.inj (he.about.2.1.symm.trans hs))
      exact ⟨nodes, status, ⟨he.about, he.wanted, he.read, he.owed, he.made⟩, by rw [hv]; rfl⟩
  · rintro c' rfl
    exact ⟨he.owed, hk⟩

/-! ### Taking a balancer away -/

theorem Course.Idle.forgotten (hi : c.Idle) : Course.Idle { c with forgot := true } :=
  ⟨hi.nodes, hi.pushed, hi.owed, hi.kept⟩

theorem Course.Idle.clear (hi : c.Idle) : c.Clear := ⟨hi.owed, hi.kept⟩

theorem keeps_deleteExisting (hi : c.Idle) (ha : c.About svc) (hn : svc.needsBalancer = false) :
    Keeps settings key (fun c' _ => c' = c ∨ c' = { c with forgot := true }) (· = c) c
      (deleteExisting settings svc) := by
  refine .bind (keeps_ask ⟨hi, ha, hn⟩ fun r => ?_)
  rcases r with e | _ | found
  · exact keeps_throw rfl
  · exact keeps_pure (.inl rfl)
  · exact (keeps_delete hi (.inl ⟨ha, .inl hn⟩)).mono (fun _ _ h => .inr h) fun _ h => h

theorem keeps_clearHash (hi : c.Idle) (ha : c.About svc) (hn : svc.needsBalancer = false) (hf : c.forgot = true) :
    Keeps settings key (fun c' _ => c' = c) (· = c) c (clearHash svc) := by
  unfold clearHash
  split
  · refine ⟨⟨hi, ha, hn, hf⟩, fun r => ?_⟩
    cases r <;> rfl
  · exact keeps_pure rfl

/-- After a teardown the service is forgotten. -/
theorem keeps_tearDown (hi : c.Idle) (ha : c.About svc) (hn : svc.needsBalancer = false) :
    Keeps settings key (fun c' _ => c' = { c with forgot := true }) Course.Clear c
      (tearDown settings key svc) := by
  refine .bind ((keeps_deleteExisting hi ha hn).mono ?_ ?_)
  · rintro c₁ ⟨⟩ h₁
    have hf : { c₁ with owed := none, forgot := true } = { c with forgot := true } := by
      rcases h₁ with rfl | rfl <;> simp only [← hi.owed]
    have hk : c₁.Allows settings key (.forget key) := by
      rcases h₁ with rfl | rfl <;> exact ⟨hi.nodes, hi.pushed, hi.kept, .inr ⟨hi.owed, rfl, svc, ha, hn⟩⟩
    refine .bind (keeps_ask hk fun _ => ?_)
    change Keeps settings key _ _ { c₁ with owed := none, forgot := true } _
    rw [hf]
    refine .bind ((keeps_clearHash hi.forgotten ha hn rfl).mono ?_ ?_)
    · rintro c₂ ⟨⟩ rfl
      have hw : Course.Allows settings key { c with forgot := true } (.writeStatus svc {}) :=
        ⟨hi.kept, .inr ⟨hi.forgotten, ha, hn, rfl, rfl⟩⟩
      refine (keeps_publish hw).mono (fun _ _ h => h) ?_
      rintro c' rfl
      exact hi.clear
    · rintro c' rfl
      exact hi.clear
  · rintro c' rfl
    exact hi.clear

/-! ### The whole -/

/-- What is left of the memory was made under the present UID. -/
theorem keeps_sameIdentity {uid : String} {entry : Option CacheEntry} (hi : c.Idle) (ha : c.About svc)
    (hv : svc.info.uid = some uid) (hr : c.recalled = some entry) (hf : c.forgot = false) :
    Keeps settings key (fun c' m => m = c'.memory ∧ c'.Idle ∧ c'.About svc ∧
      ∀ entry, c'.memory = some entry → entry.uid = svc.info.uid) Course.Clear c
      (sameIdentity settings svc uid entry) := by
  have hm : c.memory = entry := by simp [Course.memory, hf, hr]
  unfold sameIdentity
  split
  · exact keeps_pure ⟨hm.symm, hi, ha, by simp [hm]⟩
  · next entry =>
    split
    · next he => exact keeps_pure ⟨hm.symm, hi, ha, by simp [hm, he, hv]⟩
    · next he =>
      refine .bind ((keeps_delete hi (.inl ⟨ha, .inr ⟨entry, hr, by rwa [hv]⟩⟩)).mono ?_ ?_)
      · rintro c' ⟨⟩ rfl
        exact keeps_pure ⟨rfl, hi.forgotten, ha, by simp [Course.memory]⟩
      · rintro c' rfl
        exact hi.clear

theorem keeps_update {entry : Option CacheEntry} (hi : c.Idle) (hf : c.forgot = false)
    (hr : c.recalled = some entry) (hs : c.found = some (some svc)) :
    Keeps settings key (fun c' _ => c'.Ends settings (.ok ())) Course.Clear c
      (update settings key entry svc) := by
  unfold update
  split
  · exact keeps_throw hi.clear
  · next uid hv =>
    refine .bind ((keeps_sameIdentity hi ⟨by simp [hr], hs, by simp [hv]⟩ hv hr hf).mono ?_ fun _ h => h)
    rintro c₁ _ ⟨rfl, hi, ha, hu⟩
    split
    · next hn => exact keeps_converge hi ha hn hv hu
    · next hn =>
      have hn : svc.needsBalancer = false := by simpa using hn
      refine (keeps_tearDown hi ha hn).mono ?_ fun _ h => h
      rintro c' ⟨⟩ rfl
      refine ⟨hi.owed, fun _ => rfl, fun _ => ⟨ha.1, Option.isSome_of_eq_some ha.2.1⟩, fun _ svc' hs' hn' => ?_⟩
      obtain rfl := Option.some.inj (Option.some.inj (ha.2.1.symm.trans hs'))
      rw [hn] at hn'
      cases hn'

theorem keeps_reconcile : Keeps settings key (fun c' _ => c'.Ends settings (.ok ())) Course.Clear {}
    (reconcile settings key) := by
  refine .bind (keeps_ask ⟨rfl, rfl⟩ fun entry => .bind ⟨⟨rfl, entry, rfl⟩, fun r => ?_⟩)
  rcases r with e | _ | svc
  · exact ⟨rfl, rfl⟩
  · cases entry with
    | none => exact keeps_pure ⟨rfl, fun _ => rfl, fun _ => ⟨rfl, rfl⟩, fun _ _ hs => by cases hs⟩
    | some entry =>
      have hi : Course.Idle { recalled := some (some entry), found := some none } := ⟨rfl, rfl, rfl, rfl⟩
      refine (keeps_delete hi (.inr ⟨rfl, entry, rfl, rfl⟩)).mono ?_ ?_
      · rintro c' ⟨⟩ rfl
        exact ⟨rfl, fun _ => rfl, fun _ => ⟨rfl, rfl⟩, fun _ _ hs => by cases hs⟩
      · rintro c' rfl
        exact hi.clear
  · exact keeps_update ⟨rfl, rfl, rfl, rfl⟩ rfl rfl rfl

/-- A sync keeps to its protocol to its end. -/
theorem obeys_program (settings : SyncSettings) (key : ServiceKey) :
    Obeys (protocol settings key) (Course.Ends settings) {} (program settings key) := by
  refine .bind (Obeys.mono keeps_reconcile fun c r hr => ?_)
  refine ⟨trivial, fun _ => ?_⟩
  cases r with
  | error e =>
    have he : c.Ends settings (.error e) :=
      ⟨hr.1, by simp [show c.kept = none from hr.2], (fun h => by cases h), fun h => by cases h⟩
    exact ⟨trivial, fun _ => he⟩
  | ok => exact hr

end ServiceBalancer.Sync
