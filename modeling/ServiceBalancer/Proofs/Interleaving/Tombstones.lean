import ServiceBalancer.Proofs.Interleaving.Clearance
import ServiceBalancer.Proofs.Interleaving.NodeChanges
import ServiceBalancer.Proofs.Simulation.Execution

/-! Deleted services. Of a deleted service an entry is kept, by which the next sync deletes the balancer. A sync that is
under way may forget that entry in the place of what it has recalled itself, and leave a balancer behind. -/
namespace ServiceBalancer

theorem CacheEntry.of_ofDeleted {i : Identity} {svc : Service} (h : i.Fits svc) : (ofDeleted svc).Of i := ⟨h, h.uid⟩

namespace Sync.Course
variable {settings : SyncSettings} {i : Identity} {name : String} {c : Course} {q : Request} {svc : Service}

structure Mourns (i : Identity) (c : Course) : Prop where
  recalled : c.recalled = none ∨ ∃ entry, c.recalled = some (some entry) ∧ entry.Of i
  found : ∀ svc, c.found ≠ some (some svc)

def HasPushed (c : Course) : Prop :=
  c.pushed.isSome ∧ ∃ svc, c.found = some (some svc) ∧ svc.needsBalancer = true

theorem mourns_new : Mourns i {} := ⟨.inl rfl, fun _ h => by cases h⟩

theorem Mourns.not_about (h : c.Mourns i) : ¬c.About svc := fun ha => h.found svc ha.2.1

theorem Mourns.note {a : Answer q} (h : c.Mourns i) (hr : ∀ k, q ≠ .recall k) (hs : ∀ k, q ≠ .service k) :
    (c.note q a).Mourns i where
  recalled := by rw [recalled_note hr]; exact h.recalled
  found := by rw [found_note hs]; exact h.found

end Sync.Course

namespace Sync
variable {settings : SyncSettings} {i : Identity} {name : String} {a : Account} {cloud : MemoryCloud} {k : ServiceKey}

/-- A sync that cleans up after a deleted service forgets that service, and leaves no balancer. -/
theorem Account.Holds.forgets_own (h : a.Holds i name cloud) (hq : (bookkeeping settings i.key).Allows a (.forget k))
    (hm : a.course.Mourns i) : k = i.key ∧ ¬cloud.Bears name := by
  refine ⟨?_, (h.cleared hq.2).resolve_left ?_⟩
  · rcases hq.1.2.2.2 with ⟨svc, ho, rfl⟩ | ⟨_, rfl, _⟩
    · rcases h.owed svc ho with ⟨ha, _⟩ | ⟨_, entry, hentry, rfl⟩
      · exact absurd ha hm.not_about
      · rcases hm.recalled with hnone | ⟨own, hown, hof⟩
        · cases hnone.symm.trans hentry
        · obtain rfl := Option.some.inj (Option.some.inj (hown.symm.trans hentry))
          exact hof.1.key
    · rfl
  · rintro ⟨_, entry, hentry, hof⟩
    rcases hm.recalled with hnone | ⟨own, hown, hof'⟩
    · cases hnone.symm.trans hentry
    · obtain rfl := Option.some.inj (Option.some.inj (hown.symm.trans hentry))
      exact hof hof'

/-- A sync that forgets a service has recalled what is not of it, or leaves no balancer and will make none. -/
theorem Account.Holds.forgets (h : a.Holds i name cloud) (hq : (bookkeeping settings i.key).Allows a (.forget k)) :
    a.course.Strange i ∧ (cloud.Bears name → a.course.found = some none) ∨
      (∀ svc, a.course.found = some (some svc) → svc.needsBalancer = false) ∧ ¬cloud.Bears name := by
  have hgone (hne : a.course.found ≠ some none) : ¬cloud.Bears name :=
    (h.cleared hq.2).resolve_left fun hastray => hne hastray.1
  rcases hq.1.2.2.2 with ⟨svc, ho, rfl⟩ | ⟨_, rfl, svc, ha, hn⟩
  · rcases h.owed svc ho with ⟨ha, hn | ⟨entry, hentry, hne⟩⟩ | ⟨hnone, entry, hentry, rfl⟩
    · refine .inr ⟨fun svc' hs => ?_, hgone (by simp [ha.2.1])⟩
      obtain rfl := Option.some.inj (Option.some.inj (ha.2.1.symm.trans hs))
      exact hn
    · refine .inl ⟨⟨entry, hentry, fun hof => hne (hof.2.trans (h.found svc ha.2.1).uid.symm)⟩, fun hb => ?_⟩
      exact absurd hb (hgone (by simp [ha.2.1]))
    · by_cases hof : entry.Of i
      · refine .inr ⟨fun svc hs => (by cases hnone.symm.trans hs), (h.cleared hq.2).resolve_left ?_⟩
        rintro ⟨_, other, hother, hne⟩
        obtain rfl := Option.some.inj (Option.some.inj (hentry.symm.trans hother))
        exact hne hof
      · exact .inl ⟨⟨entry, hentry, hof⟩, fun _ => hnone⟩
  · refine .inr ⟨fun svc' hs => ?_, hgone (by simp [ha.2.1])⟩
    obtain rfl := Option.some.inj (Option.some.inj (ha.2.1.symm.trans hs))
    exact hn

/-- A sync remembers the service that it has found. -/
theorem Account.Holds.remembers {entry : CacheEntry} (h : a.Holds i name cloud)
    (hq : (bookkeeping settings i.key).Allows a (.remember k entry)) :
    k = i.key ∧ entry.Of i ∧ ∃ svc, a.course.About svc := by
  obtain ⟨rfl, _, svc, nodes, status, hens, he⟩ := hq.1
  have hfits := h.found svc hens.about.2.1
  exact ⟨rfl, he ▸ ⟨hfits, hfits.uid⟩, svc, hens.about⟩

end Sync

namespace Simulation
open Sync

theorem World.answer_gone {i : Identity} {w : World} {time : Nat} {found : Option Service}
    (hgone : w.cluster.core? i.slot = none) (hx : (w.answer time (.service i.key)).1 = some (.ok found)) :
    found = none :=
  (World.answer_service hx).trans (Option.map_eq_none_iff.mp hgone)

namespace Scene
variable {settings : SyncSettings} {i : Identity} {name : String} {s t u s' : Scene} {move : Move}
  {log all : List (Scene × Move)} {job job' : Job}

def Move.Buries (s : Scene) (key : ServiceKey) : Move → Prop
  | .react index =>
    match s.todo[index]? with
    | some (.keepDeleted svc) => ServiceKey.ofService svc = key
    | _ => False
  | _ => False

instance (s : Scene) (key : ServiceKey) (move : Move) : Decidable (move.Buries s key) := by
  unfold Move.Buries
  split
  · split <;> infer_instance
  · infer_instance

def Move.Forgets (s : Scene) (key : ServiceKey) (move : Move) : Prop := move.Asks s fun k q => k = key ∧ q.Forgets key

def Lasts (t : Scene) (key : ServiceKey) (s : Scene) : Prop := (∃ first, t.At key first) ∧ s.past key = t.past key

/-- Whether a sync that was under way at some time has forgotten its key after that, having recalled what is not of the
service, and then has ended without having found any service, or has failed with a push made. -/
def Dropped (i : Identity) (t : Scene) (log : List (Scene × Move)) (past : List Report) : Prop :=
  (∃ x ∈ log, x.2.Forgets x.1 i.key ∧ t.Lasts i.key x.1) ∧
    ∃ r newer, past = newer ++ r :: t.past i.key ∧ r.course.Strange i ∧
      (r.course.found = some none ∨ r.course.pushed.isSome ∧ r.isOk = false)

/-- Whether the entry of the deleted service is there, and a sync will find it: one is to start, or is under way. -/
structure Buried (i : Identity) (t s : Scene) : Prop where
  entry : ∃ entry, s.world.cache.get? i.key = some entry ∧ entry.Of i
  jobs : ∀ job, s.At i.key job → t.Lasts i.key s ∨ job.course.Mourns i
  next : s.Called i.key ∨ ∃ job, s.At i.key job ∧ job.course.Mourns i ∧ job.course.forgot = false

/-- Whether the sync that was under way has forgotten the key. It has recalled what is not of the service and may yet
push, or will make no balancer. -/
structure Unearthed (i : Identity) (name : String) (log : List (Scene × Move)) (t s : Scene) : Prop where
  taken : ∃ x ∈ log, x.2.Forgets x.1 i.key ∧ t.Lasts i.key x.1
  entry : s.world.cache.get? i.key = none
  called : s.Called i.key
  lasts : t.Lasts i.key s
  job : ∃ job, s.At i.key job ∧ job.course.forgot = true ∧ job.course.kept = none ∧
    (job.course.Strange i ∧ (s.world.cloud.Bears name → job.course.found = some none ∨ job.course.HasPushed) ∨
      (∀ svc, job.course.found = some (some svc) → svc.needsBalancer = false) ∧ ¬s.world.cloud.Bears name)

structure Settled (i : Identity) (name : String) (log : List (Scene × Move)) (t s : Scene) : Prop where
  entry : s.world.cache.get? i.key = none
  jobs : ∀ job, s.At i.key job → ∀ svc, job.course.found ≠ some (some svc)
  left : ¬s.world.cloud.Bears name ∨ Dropped i t log (s.past i.key)

/-! ### Moves -/

theorem Lasts.of_past (h : t.Lasts i.key s) (hp : s'.past i.key = s.past i.key) : t.Lasts i.key s' :=
  ⟨h.1, hp.trans h.2⟩

/-- The sync of a key goes on, with the entry still there. -/
theorem Buried.goes_on (h : Buried i t s) (before : ∀ j, s.At i.key j ↔ j = job) (after : ∀ j, s'.At i.key j ↔ j = job')
    (past : s'.past = s.past) (called : s.Called i.key → s'.Called i.key)
    (entry : ∃ entry, s'.world.cache.get? i.key = some entry ∧ entry.Of i)
    (mourns : job.course.Mourns i → job'.course.Mourns i ∧ job'.course.forgot = job.course.forgot) : Buried i t s' where
  entry := entry
  jobs j hj := by
    obtain rfl := (after j).mp hj
    exact (h.jobs job ((before job).mpr rfl)).imp (fun hl => hl.of_past (congrFun past _)) fun hm => (mourns hm).1
  next := by
    refine h.next.imp called fun ⟨old, hold, hm, hf⟩ => ?_
    obtain rfl := (before old).mp hold
    exact ⟨job', (after job').mpr rfl, (mourns hm).1, (mourns hm).2.trans hf⟩

/-- A sync that has found a service, or forgets what is not its own, was under way before, and the key is called for. -/
theorem Buried.of_not_mourns (h : Buried i t s) (before : ∀ j, s.At i.key j ↔ j = job) (hm : ¬job.course.Mourns i) :
    t.Lasts i.key s ∧ s.Called i.key := by
  refine ⟨(h.jobs job ((before job).mpr rfl)).resolve_right hm, h.next.resolve_right ?_⟩
  rintro ⟨old, hold, hmourns, _⟩
  exact hm ((before old).mp hold ▸ hmourns)

/-- What the sync of a key asks for while the entry of the deleted service is there. -/
theorem Buried.exchange {q : Request} {next : Answer q → Program Answer (Except Error Unit)} {x : Answer q} {c : Course}
    {time : Nat} {a : Account} (h : Buried i t s) (before : ∀ j, s.At i.key j ↔ j = ⟨i.key, some (.ask q next), c⟩)
    (after : ∀ j, s'.At i.key j ↔ j = ⟨i.key, some (next x), c.note q x⟩) (ha : a.course = c)
    (hholds : a.Holds i name s.world.cloud) (hq : (bookkeeping settings i.key).Allows a q)
    (hx : (s.world.answer time q).1 = some x) (world : s'.world = (s.world.answer time q).2) (past : s'.past = s.past)
    (called : s.Called i.key → s'.Called i.key) (hgone : s.world.cluster.core? i.slot = none)
    (taken : q.Forgets i.key → t.Lasts i.key s → ∃ x ∈ log, x.2.Forgets x.1 i.key ∧ t.Lasts i.key x.1) :
    Buried i t s' ∨ Unearthed i name log t s' ∨ Settled i name log t s' := by
  subst ha
  have hcache : s'.world.cache = World.cacheAfter s.world.cache q := by rw [world, World.answer_cache]
  have hcloud : s'.world.cloud = World.cloudAfter s.world.cloud q := by rw [world, World.answer_cloud]
  have hsame (hc : World.cacheAfter s.world.cache q = s.world.cache) :
      ∃ entry, s'.world.cache.get? i.key = some entry ∧ entry.Of i := by
    rw [hcache, hc]
    exact h.entry
  have hquiet (hc : World.cacheAfter s.world.cache q = s.world.cache) (hr : ∀ k, q ≠ .recall k)
      (hs : ∀ k, q ≠ .service k) (hf : ∀ k, q ≠ .forget k) : Buried i t s' :=
    h.goes_on before after past called (hsame hc) fun hm => ⟨hm.note hr hs, Course.forgot_note hf⟩
  cases q with
  | «recall» k =>
    obtain ⟨rfl, hnew⟩ := hq.1
    obtain ⟨entry, hentry, hof⟩ := h.entry
    obtain rfl : x = s.world.cache.get? i.key := (Option.some.inj hx).symm
    refine .inl (h.goes_on before after past called (hsame rfl) fun hm => ⟨⟨?_, hm.found⟩, rfl⟩)
    exact .inr ⟨entry, congrArg some hentry, hof⟩
  | service k =>
    obtain ⟨rfl, _, hnew⟩ := hq.1
    refine .inl (h.goes_on before after past called (hsame rfl) fun hm => ?_)
    rcases x with e | found
    · exact ⟨hm, rfl⟩
    · refine ⟨⟨hm.recalled, fun svc hs => ?_⟩, rfl⟩
      cases (World.answer_gone hgone hx).symm.trans (Option.some.inj hs)
  | forget k =>
    by_cases hm : a.course.Mourns i
    · obtain ⟨rfl, hnone⟩ := hholds.forgets_own hq hm
      refine .inr (.inr ⟨by simp [hcache, World.cacheAfter], fun j hj => ?_, .inl (hcloud ▸ hnone)⟩)
      exact (after j).mp hj ▸ hm.found
    · obtain ⟨hlasts, hcalled⟩ := h.of_not_mourns before hm
      by_cases hk : k = i.key
      · subst hk
        refine .inr (.inl ⟨taken rfl hlasts, by simp [hcache, World.cacheAfter], called hcalled,
          hlasts.of_past (congrFun past _), _, (after _).mpr rfl, rfl, hq.1.2.2.1, ?_⟩)
        rw [hcloud]
        exact (hholds.forgets hq).imp_left (And.imp_right fun hb h => .inl (hb h))
      · refine .inl (h.goes_on before after past called ?_ fun hm' => absurd hm' hm)
        obtain ⟨entry, hentry, hof⟩ := h.entry
        exact ⟨entry, by simpa [hcache, World.cacheAfter, hk] using hentry, hof⟩
  | remember k entry =>
    obtain ⟨rfl, hof, svc, habout⟩ := hholds.remembers hq
    refine .inl (h.goes_on before after past called ?_ fun hm => absurd habout hm.not_about)
    exact ⟨entry, by simp [hcache, World.cacheAfter], hof⟩
  | _ => exact .inl (hquiet rfl (by simp) (by simp) (by simp))

/-- Others leave what is remembered of a service, but perhaps its fingerprint. -/
theorem entry_aside (hr : s.Regular settings) (ht : s.act? settings move = some s')
    (foreign : ∀ who time job, move = .exchange who time → s.jobs who = some job → job.key ≠ i.key)
    (hb : ¬move.Buries s i.key) (hm : ¬move.Meddles s i.key name) :
    s'.world.cache.get? i.key = s.world.cache.get? i.key ∨ s'.world.cache.get? i.key =
      (s.world.cache.get? i.key).map (fun entry => { entry with fingerprint := none }) := by
  rcases cache_aside hr ht foreign with hc | hc | ⟨index, svc, rfl, hi, hk, _⟩ | ⟨who, time, k, next, course, rfl, hj, _⟩
  · exact .inl hc
  · exact .inr hc
  · refine absurd ?_ hb
    simp only [Move.Buries, hi]
    exact hk
  · refine absurd ?_ hm
    exact (asks_exchange hj).mpr ⟨foreign who time _ rfl hj, .inl rfl⟩

theorem entry_aside_none (hr : s.Regular settings) (ht : s.act? settings move = some s')
    (foreign : ∀ who time job, move = .exchange who time → s.jobs who = some job → job.key ≠ i.key)
    (hb : ¬move.Buries s i.key) (hm : ¬move.Meddles s i.key name) (hnone : s.world.cache.get? i.key = none) :
    s'.world.cache.get? i.key = none := by
  rcases entry_aside hr ht foreign hb hm with hc | hc
  · exact hc.trans hnone
  · rw [hc, hnone]
    rfl

theorem Buried.act (h : Buried i t s) (hs : s.Staffed) (hr : s.Regular settings) (htidy : s.Tidy settings i name)
    (ht : s.act? settings move = some s') (hgone : s.world.cluster.core? i.slot = none) (hb : ¬move.Buries s i.key)
    (hm : ¬move.Meddles s i.key name) (hlog : (s, move) ∈ log) :
    Buried i t s' ∨ Unearthed i name log t s' ∨ Settled i name log t s' := by
  cases turn hs ht i.key with
  | aside foreign jobs past called =>
    refine .inl ⟨?_, fun j hj => ?_, ?_⟩
    · obtain ⟨entry, hentry, hof⟩ := h.entry
      rcases entry_aside hr ht foreign hb hm with hc | hc
      · exact ⟨entry, hc.trans hentry, hof⟩
      · exact ⟨_, hc.trans (congrArg _ hentry), hof⟩
    · exact (h.jobs j ((jobs j).mp hj)).imp_left fun hl => hl.of_past past
    · exact h.next.imp called fun ⟨j, hj, hrest⟩ => ⟨j, (jobs j).mpr hj, hrest⟩
  | starts nobody jobs world past =>
    refine .inl ⟨world ▸ h.entry, fun j hj => .inr ?_, .inr ⟨_, (jobs _).mpr rfl, Course.mourns_new, rfl⟩⟩
    exact (jobs j).mp hj ▸ Course.mourns_new
  | exchange who time q next c job made before answered after world past called =>
    obtain ⟨rfl, hj⟩ := made
    obtain ⟨a, ha, hholds, hq⟩ := htidy.asks ((before _).mpr rfl)
    rcases answered with ⟨x, hx, rfl⟩ | ⟨hx, rfl⟩
    · refine h.exchange before after ha hholds hq hx world past called hgone fun hforget hlasts => ⟨_, hlog, ?_, hlasts⟩
      exact (asks_exchange hj).mpr ⟨rfl, hforget⟩
    · refine .inl (h.goes_on before after past called ?_ fun hm => ⟨hm, rfl⟩)
      rw [world, World.answer_cache, World.cacheAfter_of_broken hx]
      exact h.entry
  | ends job outcome before ended nobody world past called failed =>
    refine .inl ⟨world ▸ h.entry, fun j hj => absurd hj (nobody j), .inl ?_⟩
    rcases h.next with hc | ⟨j, hj, hmourns, hforgot⟩
    · exact called hc
    · obtain rfl := (before j).mp hj
      refine failed ?_
      rintro rfl
      -- A sync that went well has found no service, and so has forgotten what it had recalled.
      obtain ⟨a, ha, _, hends, haccount⟩ := htidy.ends hj ended
      rw [← ha] at hmourns hforgot
      obtain ⟨hrecalled, hfound⟩ := hends.asked rfl
      obtain ⟨_ | svc, hfound⟩ := Option.isSome_iff_exists.mp hfound
      · rcases hmourns.recalled with hnone | ⟨entry, hentry, _⟩
        · simp [hnone] at hrecalled
        · cases hforgot.symm.trans ((haccount rfl).forgot hfound entry hentry)
      · exact hmourns.found svc hfound

/-- The sync that has forgotten the key goes on without a push. -/
theorem Unearthed.goes_on (h : Unearthed i name log t s) (before : ∀ j, s.At i.key j ↔ j = job)
    (after : ∀ j, s'.At i.key j ↔ j = job') (past : s'.past = s.past) (called : s.Called i.key → s'.Called i.key)
    (entry : s'.world.cache.get? i.key = none) (bears : s'.world.cloud.Bears name → s.world.cloud.Bears name)
    (recalled : job'.course.recalled = job.course.recalled) (found : job'.course.found = job.course.found)
    (pushed : job'.course.pushed = job.course.pushed) (kept : job'.course.kept = job.course.kept)
    (forgot : job.course.forgot = true → job'.course.forgot = true) : Unearthed i name log t s' where
  taken := h.taken
  entry := entry
  called := called h.called
  lasts := h.lasts.of_past (congrFun past _)
  job := by
    obtain ⟨old, hold, hforgot, hkept, hcase⟩ := h.job
    obtain rfl := (before old).mp hold
    refine ⟨job', (after job').mpr rfl, forgot hforgot, kept.trans hkept, ?_⟩
    rw [Course.Strange, Course.HasPushed, recalled, found, pushed]
    exact hcase.imp (And.imp_right fun hp hb => hp (bears hb)) (And.imp_right fun hn hb => hn (bears hb))

/-- What the sync that has forgotten the key asks for. -/
theorem Unearthed.exchange {q : Request} {next : Answer q → Program Answer (Except Error Unit)} {x : Answer q}
    {c : Course} {time : Nat} {a : Account} (h : Unearthed i name log t s)
    (before : ∀ j, s.At i.key j ↔ j = ⟨i.key, some (.ask q next), c⟩)
    (after : ∀ j, s'.At i.key j ↔ j = ⟨i.key, some (next x), c.note q x⟩) (ha : a.course = c)
    (hholds : a.Holds i name s.world.cloud) (hsound : s.world.cloud.Sound) (hq : (bookkeeping settings i.key).Allows a q)
    (hx : (s.world.answer time q).1 = some x) (world : s'.world = (s.world.answer time q).2) (past : s'.past = s.past)
    (called : s.Called i.key → s'.Called i.key) : Buried i t s' ∨ Unearthed i name log t s' := by
  subst ha
  have hcache : s'.world.cache = World.cacheAfter s.world.cache q := by rw [world, World.answer_cache]
  have hcloud : s'.world.cloud = World.cloudAfter s.world.cloud q := by rw [world, World.answer_cloud]
  obtain ⟨job, hat, hforgot, hkept, hcase⟩ := h.job
  obtain rfl := (before job).mp hat
  have hquiet (hc : (World.cacheAfter s.world.cache q).get? i.key = none) (hmakes : ¬q.Makes name)
      (hr : ∀ k, q ≠ .recall k) (hs : ∀ k, q ≠ .service k) (he : ∀ svc nodes, q ≠ .ensure svc nodes)
      (hk : ∀ k entry, q ≠ .remember k entry) : Unearthed i name log t s' :=
    h.goes_on before after past called (hcache ▸ hc)
      (fun hb => (World.bears_cloudAfter hsound (hcloud ▸ hb)).resolve_right hmakes) (Course.recalled_note hr)
      (Course.found_note hs) (Course.pushed_note he) (Course.kept_note hk) Course.forgot_note_true
  cases q with
  | «recall» k =>
    obtain ⟨_, hnew⟩ := hq.1
    simp [hnew] at hforgot
  | service k =>
    obtain ⟨_, _, hnew⟩ := hq.1
    simp [hnew] at hforgot
  | ensure svc nodes =>
    rcases x with e | status
    · have halike : s.world.cloud.Alike s'.world.cloud := world ▸ World.answer_ensure_failed hx
      exact .inr (h.goes_on before after past called (hcache ▸ h.entry) halike.bears.mp rfl rfl rfl rfl id)
    · obtain ⟨habout, hwanted, _⟩ := hq.1
      refine .inr ⟨h.taken, hcache ▸ h.entry, called h.called, h.lasts.of_past (congrFun past _), _, (after _).mpr rfl,
        hforgot, hkept, .inl ⟨?_, fun _ => .inr ⟨rfl, svc, habout.2.1, hwanted⟩⟩⟩
      refine (hcase.resolve_right fun ⟨hnone, _⟩ => ?_).1
      cases hwanted.symm.trans (hnone svc habout.2.1)
  | remember k entry =>
    obtain ⟨rfl, hof, _⟩ := hholds.remembers hq
    exact .inl ⟨⟨entry, by simp [hcache, World.cacheAfter], hof⟩, fun _ _ => .inl (h.lasts.of_past (congrFun past _)),
      .inl (called h.called)⟩
  | forget k =>
    refine .inr (hquiet ?_ id (by simp) (by simp) (by simp) (by simp))
    simp only [World.cacheAfter, SortedMap.get?_erase, h.entry, ite_self]
  | _ => exact .inr (hquiet h.entry id (by simp) (by simp) (by simp) (by simp))

/-- The sync that has forgotten the key leaves no balancer behind, or has failed with a push made, or had found no
service. -/
theorem Unearthed.ends {outcome : SyncOutcome} (h : Unearthed i name log t s) (htidy : s.Tidy settings i name)
    (before : ∀ j, s.At i.key j ↔ j = job) (ended : job.outcome? = some outcome) (nobody : ∀ j, ¬s'.At i.key j)
    (world : s'.world = s.world) (past : s'.past i.key = ⟨job.course, outcome⟩ :: s.past i.key) :
    Settled i name log t s' := by
  obtain ⟨old, hold, _, hkept, hcase⟩ := h.job
  obtain rfl := (before old).mp hold
  refine ⟨world ▸ h.entry, fun j hj => absurd hj (nobody j), ?_⟩
  rw [world, past]
  by_cases hb : s.world.cloud.Bears name
  · rcases hcase with ⟨hstrange, hpush⟩ | ⟨_, hnone⟩
    · refine .inr ⟨h.taken, ⟨old.course, outcome⟩, [], by rw [h.lasts.2]; rfl, hstrange, ?_⟩
      refine (hpush hb).imp_right fun ⟨hp, svc, hfound, hwanted⟩ => ⟨hp, ?_⟩
      -- Had it gone well, it would have kept something.
      refine Bool.eq_false_iff.mpr fun hok => ?_
      obtain rfl := Report.outcome_eq _ hok
      obtain ⟨a, ha, _, hends, _⟩ := htidy.ends hold ended
      obtain ⟨_, _, _, hk⟩ := hends.vouched rfl svc (ha ▸ hfound) hwanted
      cases hkept.symm.trans (ha ▸ hk)
    · exact absurd hb hnone
  · exact .inl hb

theorem Unearthed.act (h : Unearthed i name log t s) (hs : s.Staffed) (hr : s.Regular settings)
    (htidy : s.Tidy settings i name) (ht : s.act? settings move = some s') (hb : ¬move.Buries s i.key)
    (hm : ¬move.Meddles s i.key name) :
    Buried i t s' ∨ Unearthed i name log t s' ∨ Settled i name log t s' := by
  cases turn hs ht i.key with
  | aside foreign jobs past called =>
    have hbears := bears_aside htidy.sound ht foreign hm
    obtain ⟨j, hj, hforgot, hkept, hcase⟩ := h.job
    refine .inr (.inl ⟨h.taken, entry_aside_none hr ht foreign hb hm h.entry, called h.called, h.lasts.of_past past, ?_⟩)
    exact ⟨j, (jobs j).mpr hj, hforgot, hkept,
      hcase.imp (And.imp_right fun hp hb => hp (hbears hb)) (And.imp_right fun hn hb => hn (hbears hb))⟩
  | starts nobody jobs world past =>
    obtain ⟨j, hj, _⟩ := h.job
    exact absurd hj (nobody j)
  | exchange who time q next c job made before answered after world past called =>
    obtain ⟨a, ha, hholds, hq⟩ := htidy.asks ((before _).mpr rfl)
    rcases answered with ⟨x, hx, rfl⟩ | ⟨hx, rfl⟩
    · exact (h.exchange before after ha hholds htidy.sound hq hx world past called).imp_right .inl
    · refine .inr (.inl (h.goes_on before after past called ?_ (fun hb => ?_) rfl rfl rfl rfl id))
      · rw [world, World.answer_cache, World.cacheAfter_of_broken hx]
        exact h.entry
      · rw [world, World.answer_cloud] at hb
        exact (World.alike_of_broken hx).bears.mp hb
  | ends job outcome before ended nobody world past called failed =>
    exact .inr (.inr (h.ends htidy before ended nobody world past))

theorem Dropped.of_past {past : List Report} {r : Report} (h : Dropped i t log past) : Dropped i t log (r :: past) := by
  obtain ⟨htaken, old, newer, rfl, hold⟩ := h
  exact ⟨htaken, old, r :: newer, rfl, hold⟩

/-- What a sync asks for when nothing is remembered of the deleted service. -/
theorem Settled.exchange {q : Request} {next : Answer q → Program Answer (Except Error Unit)} {c c' : Course}
    {time : Nat} (h : Settled i name log t s) (htidy : s.Tidy settings i name)
    (before : s.At i.key ⟨i.key, some (.ask q next), c⟩) (after : ∀ j, s'.At i.key j → j.course = c')
    (answered : (∃ x, (s.world.answer time q).1 = some x ∧ c' = c.note q x) ∨ c' = c)
    (world : s'.world = (s.world.answer time q).2) (past : s'.past = s.past)
    (hgone : s.world.cluster.core? i.slot = none) : Settled i name log t s' := by
  obtain ⟨a, rfl, hholds, hq⟩ := htidy.asks before
  have hcache : s'.world.cache = World.cacheAfter s.world.cache q := by rw [world, World.answer_cache]
  have hcloud : s'.world.cloud = World.cloudAfter s.world.cloud q := by rw [world, World.answer_cloud]
  have hfound := h.jobs _ before
  have hmakes : ¬q.Makes name := by
    cases q with
    | ensure svc nodes => exact absurd hq.1.1.2.1 (hfound svc)
    | _ => exact id
  refine ⟨?_, fun j hj => after j hj ▸ ?_, ?_⟩
  · rw [hcache]
    cases q with
    | remember k entry =>
      obtain ⟨_, _, svc, habout⟩ := hholds.remembers hq
      exact absurd habout.2.1 (hfound svc)
    | forget k => simp only [World.cacheAfter, SortedMap.get?_erase, h.entry, ite_self]
    | _ => exact h.entry
  · rcases answered with ⟨x, hx, rfl⟩ | rfl
    · cases q with
      | service k =>
        obtain ⟨rfl, _⟩ := hq.1
        rcases x with e | found
        · exact hfound
        · intro svc hs
          cases (World.answer_gone hgone hx).symm.trans (Option.some.inj hs)
      | _ =>
        rw [show (Course.note _ _ x).found = _ from Course.found_note (by simp)]
        exact hfound
    · exact hfound
  · rw [past]
    refine h.left.imp_left fun hn hb => hn ?_
    exact (World.bears_cloudAfter htidy.sound (hcloud ▸ hb)).resolve_right hmakes

theorem Settled.act (h : Settled i name log t s) (hs : s.Staffed) (hr : s.Regular settings)
    (htidy : s.Tidy settings i name) (ht : s.act? settings move = some s') (hgone : s.world.cluster.core? i.slot = none)
    (hb : ¬move.Buries s i.key) (hm : ¬move.Meddles s i.key name) : Settled i name log t s' := by
  cases turn hs ht i.key with
  | aside foreign jobs past called =>
    refine ⟨entry_aside_none hr ht foreign hb hm h.entry, fun j hj => h.jobs j ((jobs j).mp hj), ?_⟩
    rw [past]
    exact h.left.imp_left fun hn hb' => hn (bears_aside htidy.sound ht foreign hm hb')
  | starts nobody jobs world past =>
    refine ⟨world ▸ h.entry, fun j hj => ?_, by rw [world, past]; exact h.left⟩
    obtain rfl := (jobs j).mp hj
    simp
  | exchange who time q next c job made before answered after world past called =>
    have hat := (before _).mpr rfl
    rcases answered with ⟨x, hx, rfl⟩ | ⟨_, rfl⟩
    · exact h.exchange htidy hat (fun j hj => (after j).mp hj ▸ rfl) (.inl ⟨x, hx, rfl⟩) world past hgone
    · exact h.exchange htidy hat (fun j hj => (after j).mp hj ▸ rfl) (.inr rfl) world past hgone
  | ends job outcome before ended nobody world past called failed =>
    refine ⟨world ▸ h.entry, fun j hj => absurd hj (nobody j), ?_⟩
    rw [world, past]
    exact h.left.imp_right Dropped.of_past

/-! ### Runs -/

/-- A scene in which nobody is at a service, and a service finds the balancer that the controller has for it. -/
structure Outset (settings : SyncSettings) (i : Identity) (name : String) (s : Scene) : Prop where
  staffed : s.Staffed
  regular : s.Regular settings
  nobody : ∀ job, ¬s.At i.key job
  sound : s.world.cloud.Sound
  sole : s.world.cloud.Sole name

/-- Whether a service keeps its identity in a run, and is left alone by the syncs of others. -/
def Undisturbed (i : Identity) (name : String) (log : List (Scene × Move)) : Prop :=
  ∀ x ∈ log, x.1.Keeps i ∧ ¬x.2.Meddles x.1 i.key name

/-- Whether a service stays deleted in a run, no other is kept in its place, and the syncs of others leave it alone. -/
def StaysGone (i : Identity) (name : String) (log : List (Scene × Move)) : Prop :=
  ∀ x ∈ log, x.1.world.cluster.core? i.slot = none ∧ ¬x.2.Buries x.1 i.key ∧ ¬x.2.Meddles x.1 i.key name

instance (i : Identity) (name : String) (log : List (Scene × Move)) : Decidable (Undisturbed i name log) :=
  inferInstanceAs (Decidable (∀ x ∈ log, _))

instance (i : Identity) (name : String) (log : List (Scene × Move)) : Decidable (StaysGone i name log) :=
  inferInstanceAs (Decidable (∀ x ∈ log, _))

theorem Outset.tidy (h : s.Outset settings i name) : s.Tidy settings i name :=
  ⟨h.sound, h.sole, fun job hj => absurd hj (h.nobody job)⟩

theorem keeps_of_gone (h : s.world.cluster.core? i.slot = none) : s.Keeps i := fun _ hc => by cases h.symm.trans hc

theorem Run.sound (h : Run settings s log u) (hs : s.world.cloud.Sound) : u.world.cloud.Sound := by
  induction h with
  | rest => exact hs
  | move ht _ ih => exact ih (sound_act ht hs)

theorem Run.tidy (h : Run settings s log u) (hs : s.Staffed) (ht : s.Tidy settings i name)
    (hlog : Undisturbed i name log) (hn : i.Named name) : u.Tidy settings i name := by
  induction h with
  | rest => exact ht
  | move hact _ ih =>
    obtain ⟨hk, hm⟩ := hlog _ (.head _)
    exact ih (hs.act hact) (ht.act hs hact hk hn hm) fun x hx => hlog x (.tail _ hx)

/-- The entry of a deleted service is there until a sync has forgotten it, and none comes after that. -/
theorem buried_or_settled (h : Run settings s log u) (hsub : ∀ x ∈ log, x ∈ all) (hs : s.Staffed)
    (hr : s.Regular settings) (htidy : s.Tidy settings i name) (hgone : StaysGone i name log) (hn : i.Named name)
    (hphase : Buried i t s ∨ Unearthed i name all t s ∨ Settled i name all t s) :
    Buried i t u ∨ Unearthed i name all t u ∨ Settled i name all t u := by
  induction h with
  | rest => exact hphase
  | move ht _ ih =>
    obtain ⟨hslot, hb, hm⟩ := hgone _ (.head _)
    refine ih (fun x hx => hsub x (.tail _ hx)) (hs.act ht) (hr.act ht)
      (htidy.act hs ht (keeps_of_gone hslot) hn hm) (fun x hx => hgone x (.tail _ hx)) ?_
    rcases hphase with h | h | h
    · exact h.act hs hr htidy ht hslot hb hm (hsub _ (.head _))
    · exact h.act hs hr htidy ht hb hm
    · exact .inr (.inr (h.act hs hr htidy ht hslot hb hm))

/-- The router keeps a deleted service, and is yet to have it synced. -/
theorem buried_react {svc : Service} {index : Nat} (hfits : i.Fits svc) (hcall : .enqueue (.ofService svc) ∈ s.todo)
    (hi : s.todo[index]? = some (.keepDeleted svc)) (ht : s.act? settings (.react index) = some t) : Buried i t t := by
  obtain ⟨r, hr, rfl⟩ := Option.map_eq_some_iff.mp ht
  obtain rfl := Option.some.inj (hi.symm.trans hr)
  refine ⟨⟨.ofDeleted svc, ?_, CacheEntry.of_ofDeleted hfits⟩, fun job hj => .inl ⟨⟨job, hj⟩, rfl⟩, .inl (.inr ?_)⟩
  · rw [← hfits.key]
    simp [react]
  · rw [← hfits.key]
    exact (mem_eraseIdx_or hi hcall).resolve_left (by simp)

/-- After a service was deleted and the router has kept it, no balancer of the controller is left under its name by the
time its key is at rest, unless the sync that was under way has dropped what was kept: it had recalled an entry of
another service, forgot the key, and then found no service, or pushed and failed. -/
theorem cleared_or_dropped {first : Scene} {before : List (Scene × Move)} {svc : Service} {index : Nat}
    (hfirst : first.Outset settings i name) (hn : i.Named name) (hbefore : Run settings first before s)
    (hlog : Undisturbed i name before) (hfits : i.Fits svc) (hb : svc.hasBalancerType = true)
    (hu : svc.isUnclaimed = true) (hslot : s.world.cluster.core? i.slot = none)
    (htodo : ∀ r ∈ Routing.onService (.deleted svc), r ∈ s.todo) (hi : s.todo[index]? = some (.keepDeleted svc))
    (ht : s.act? settings (.react index) = some t) (hrun : Run settings t log u) (hgone : StaysGone i name log)
    (hrest : u.AtRest i.key) : ¬u.world.cloud.Bears name ∨ Dropped i t log (u.past i.key) := by
  have hs := hbefore.staffed hfirst.staffed
  have hr := hbefore.regular hfirst.regular
  have htidy := hbefore.tidy hfirst.staffed hfirst.tidy hlog hn
  have hcall : .enqueue (.ofService svc) ∈ s.todo := htodo _ (by simp [Routing.onService_deleted hb hu])
  have hburied := buried_react hfits hcall hi ht
  have htidy' := htidy.act hs ht (keeps_of_gone hslot) hn id
  have husers := hrun.staffed (hs.act ht)
  rcases buried_or_settled hrun (fun _ hx => hx) (hs.act ht) (hr.act ht) htidy' hgone hn (.inl hburied) with h | h | h
  · rcases h.next with hc | ⟨job, hat, _⟩
    · exact absurd hc (hrest.not_called husers)
    · exact absurd hat (hrest.nobody husers)
  · exact absurd h.called (hrest.not_called husers)
  · exact h.left

/-! ### A successor that is deleted during its first sync -/

/-- A service is created and deleted before any sync of it, and kept. -/
def shortLived : List Move :=
  [.putNode (member "n1"), .tell 0, .putService (kiosk "u1"), .tell 0, .removeService (.ofService (kiosk "u1")), .tell 0,
    .react 1]

/-- Another one is created under its name, and deleted when the sync has cleared up after the first. -/
def successor : List Move :=
  [Move.putService (kiosk "u2"), .tell 0, .react 0, .react 0, .react 0, .get 0] ++ List.replicate 5 (Move.exchange 0 0) ++
  [Move.removeService (.ofService (kiosk "u2")), .tell 0]

def secondKiosk : Service := { kiosk "u2" with info := { (kiosk "u2").info with resourceVersion := some "2" } }

/-- The sync goes on, forgets the key, pushes, and fails for a conflict. Another sync finds nothing. -/
def aftermath : List Move :=
  [Move.react 0, .failStatus .conflict] ++ List.replicate 9 (Move.exchange 0 0) ++
  [Move.finish 0 .zero .zero .zero ⟨{}, none, none⟩, .get 0] ++ List.replicate 3 (Move.exchange 0 0) ++
  [Move.finish 0 .zero .zero .zero ⟨{}, none, none⟩]

private theorem aftermath_ends : ∃ early first before s t log u,
    ({ world := {} } : Scene).play {} shortLived = some (early, first) ∧ first.play {} successor = some (before, s) ∧
      s.act? {} (.react 0) = some t ∧ t.play {} aftermath = some (log, u) ∧
      ServiceKey.ofService secondKiosk ∉ first.queue.processing ∧ ¬first.world.cloud.Bears "au2" ∧
      Undisturbed secondKiosk.identity "au2" before ∧ (s.jobs 0).map Job.key = some (.ofService secondKiosk) ∧
      s.world.cluster.core? secondKiosk.identity.slot = none ∧
      (∀ r ∈ Routing.onService (.deleted secondKiosk), r ∈ s.todo) ∧ s.todo[0]? = some (.keepDeleted secondKiosk) ∧
      StaysGone secondKiosk.identity "au2" log ∧ u.AtRest (.ofService secondKiosk) ∧ u.world.cloud.Bears "au2" := by
  have h : ((({ world := {} } : Scene).play {} shortLived).any fun x =>
      (x.2.play {} successor).any fun y => (y.2.act? {} (.react 0)).any fun t =>
        (t.play {} aftermath).any fun z => Decidable.decide (
          ServiceKey.ofService secondKiosk ∉ x.2.queue.processing ∧ ¬x.2.world.cloud.Bears "au2" ∧
          Undisturbed secondKiosk.identity "au2" y.1 ∧ (y.2.jobs 0).map Job.key = some (.ofService secondKiosk) ∧
          y.2.world.cluster.core? secondKiosk.identity.slot = none ∧
          (∀ r ∈ Routing.onService (.deleted secondKiosk), r ∈ y.2.todo) ∧
          y.2.todo[0]? = some (.keepDeleted secondKiosk) ∧ StaysGone secondKiosk.identity "au2" z.1 ∧
          z.2.AtRest (.ofService secondKiosk) ∧ z.2.world.cloud.Bears "au2")) = true := by
    decide +kernel
  obtain ⟨⟨early, first⟩, hfirst, h⟩ := (Option.any_eq_true _ _).mp h
  obtain ⟨⟨before, s⟩, hs, h⟩ := (Option.any_eq_true _ _).mp h
  obtain ⟨t, ht, h⟩ := (Option.any_eq_true _ _).mp h
  obtain ⟨⟨log, u⟩, hu, h⟩ := (Option.any_eq_true _ _).mp h
  exact ⟨early, first, before, s, t, log, u, hfirst, hs, ht, hu, of_decide_eq_true h⟩

/-- A service is deleted during a sync of it, and kept, and its key comes to rest, and its balancer is still there. -/
theorem left_aftermath : ∃ early first before s t log u,
    ({ world := {} } : Scene).play {} shortLived = some (early, first) ∧ first.play {} successor = some (before, s) ∧
      (∃ job, s.At (.ofService secondKiosk) job) ∧ secondKiosk.hasBalancerType = true ∧
      secondKiosk.isUnclaimed = true ∧ secondKiosk.balancerName? = some "au2" ∧
      (∀ r ∈ Routing.onService (.deleted secondKiosk), r ∈ s.todo) ∧ s.todo[0]? = some (.keepDeleted secondKiosk) ∧
      s.act? {} (.react 0) = some t ∧ t.play {} aftermath = some (log, u) ∧
      StaysGone secondKiosk.identity "au2" log ∧ u.AtRest (.ofService secondKiosk) ∧ u.world.cloud.Bears "au2" := by
  obtain ⟨early, first, before, s, t, log, u, hfirst, hs, ht, hu, _, _, _, hat, _, htodo, hi, hgone, hrest, hb⟩ :=
    aftermath_ends
  obtain ⟨job, hj, hk⟩ := Option.map_eq_some_iff.mp hat
  exact ⟨early, first, before, s, t, log, u, hfirst, hs, ⟨job, 0, hj, hk⟩, by decide, by decide, by decide, htodo, hi,
    ht, hu, hgone, hrest, hb⟩

/-- The sync that was under way has dropped what was kept. -/
theorem dropped_aftermath : ∃ (first s t : Scene) (before log : _) (u : Scene),
    first.Outset {} secondKiosk.identity "au2" ∧ secondKiosk.identity.Named "au2" ∧ Run {} first before s ∧
      Undisturbed secondKiosk.identity "au2" before ∧ secondKiosk.identity.Fits secondKiosk ∧
      s.world.cluster.core? secondKiosk.identity.slot = none ∧
      (∀ r ∈ Routing.onService (.deleted secondKiosk), r ∈ s.todo) ∧ s.todo[0]? = some (.keepDeleted secondKiosk) ∧
      s.act? {} (.react 0) = some t ∧ Run {} t log u ∧ StaysGone secondKiosk.identity "au2" log ∧
      u.AtRest (.ofService secondKiosk) ∧ Dropped secondKiosk.identity t log (u.past (.ofService secondKiosk)) := by
  obtain ⟨early, first, before, s, t, log, u, hearly, hs, ht, hu, hheld, hbears, hlog, _, hslot, htodo, hi, hgone, hrest,
    hb⟩ := aftermath_ends
  have hstart := run_of_play hearly
  have hempty : ({ world := {} } : Scene).Ordered {} := start_empty.ordered
  have hstaff := hstart.staffed hempty.staffed
  have hfirst : first.Outset {} secondKiosk.identity "au2" :=
    ⟨hstaff, hstart.regular start_empty.regular, fun job => hstaff.nobody hheld, hstart.sound MemoryCloud.sound_empty,
      MemoryCloud.sole_of_not_bears hbears⟩
  have hn : secondKiosk.identity.Named "au2" := ⟨by decide, by decide⟩
  have hfits : secondKiosk.identity.Fits secondKiosk := by decide
  have hend := cleared_or_dropped hfirst hn (run_of_play hs) hlog hfits (by decide) (by decide) hslot htodo hi ht
    (run_of_play hu) hgone hrest
  exact ⟨first, s, t, before, log, u, hfirst, hn, run_of_play hs, hlog, hfits, hslot, htodo, hi, ht, run_of_play hu,
    hgone, hrest, hend.resolve_left fun hn => hn hb⟩

end Scene
end Simulation
end ServiceBalancer
