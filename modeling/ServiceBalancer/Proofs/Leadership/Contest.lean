import Mathlib.Logic.Function.Basic
import ServiceBalancer.Proofs.Leadership.Registry

/-! Replicas that campaign for one lease at the same time. Their requests come to the registry in any order and may
fail in any way, and still at most one of them is in the lead: by the time another can take the lease over, its holder
has renewed it or has stepped down. -/
namespace ServiceBalancer.Leadership
open Api (Request Response)

/-! ### Contests -/

inductive Activity where
  | asleep (due : Timestamp)
  /-- In a round, of which this is left. -/
  | atWork (rest : Api.Talk (Except ApiError Bool))

/-- Replicas at a moment: what they are doing, what they have published, and the lease. -/
structure Contest (ι : Type) where
  now : Timestamp
  registry : Registry := {}
  leading : ι → Bool := fun _ => false
  activity : ι → Activity

variable {ι : Type} [DecidableEq ι]

/-- What may happen in a contest. Rounds begin when they are due and take no time, but the requests of several
rounds at one moment may come in any order. A request may fail, whether or not the registry has taken it. -/
inductive Step (ns : String) (identity : ι → String) : Contest ι → Contest ι → Prop where
  | begin {s : Contest ι} (i : ι) : s.activity i = .asleep s.now →
    Step ns identity s { s with
      activity := Function.update s.activity i (.atWork (Elector.round ns (identity i) s.now)) }
  | exchange {s : Contest ι} {q : Request} {next : Response → Api.Talk (Except ApiError Bool)} (i : ι) :
    s.activity i = .atWork (.ask q next) →
    Step ns identity s { s with
      registry := (s.registry.take q).2
      activity := Function.update s.activity i (.atWork (next (s.registry.take q).1)) }
  | fail {s : Contest ι} {q : Request} {next : Response → Api.Talk (Except ApiError Bool)} (i : ι) (taken : Bool)
    (answer : Response) (e : ApiError) : s.activity i = .atWork (.ask q next) →
    answer.content Lease.ofJson? = .error e →
    Step ns identity s { s with
      registry := if taken then (s.registry.take q).2 else s.registry
      activity := Function.update s.activity i (.atWork (next answer)) }
  | publish {s : Contest ι} {result : Except ApiError Bool} (i : ι) : s.activity i = .atWork (.done result) →
    Step ns identity s { s with
      leading := Function.update s.leading i (Elector.leads result)
      activity := Function.update s.activity i
        (.asleep ⟨s.now.nanos + (Elector.interval (Elector.leads result)).nanos⟩) }
  | pass {s : Contest ι} (d : Duration) :
    (∀ i, ∃ due, s.activity i = .asleep due ∧ s.now.nanos + d.nanos ≤ due.nanos) →
    Step ns identity s { s with now := ⟨s.now.nanos + d.nanos⟩ }

/-- The contests that can come to be. At first no replica leads, each of them begins whenever it likes, and the lease
is any at all, or there is none. -/
inductive Reachable (ns : String) (identity : ι → String) : Contest ι → Prop where
  | start {s : Contest ι} : s.registry.Marked → (∀ i, s.leading i = false) →
    (∀ i, ∃ due, s.activity i = .asleep due) → Reachable ns identity s
  | step {s t : Contest ι} : Reachable ns identity s → Step ns identity s t → Reachable ns identity t

/-! ### Rounds -/

def afterLook (ns identity : String) (now : Timestamp) :
    Except ApiError (Option Lease) → Api.Talk (Except ApiError Bool)
  | .error e => .done (.error e)
  | .ok none => do
    let body := (Claim.newLease ns identity now).toJson
    return Elector.won (← Api.ask { verb := .create, collection := Elector.leases ns, body } Lease.ofJson?)
  | .ok (some lease) =>
    match (Claim.choose lease.spec identity now).patch? identity lease.info.resourceVersion now with
    | none => .done (.ok false)
    | some body => do
      let request : Request :=
        { verb := .mergePatch, collection := Elector.leases ns, name := Claim.leaseName, body }
      return Elector.won (← Api.ask request Lease.ofJson?)

/-- A replica in its round, as the registry is. If it wins, it holds the lease from this moment on. -/
inductive UnderWay (r : Registry) (ns identity : String) (now : Timestamp) : Api.Talk (Except ApiError Bool) → Prop where
  | looking {q : Request} : q.verb = .get → UnderWay r ns identity now
    (.ask q fun answer => afterLook ns identity now (Api.orMissing (answer.content Lease.ofJson?)))
  | creating {q : Request} : q.verb = .create → q.body = some (Claim.newLease ns identity now).toJson →
    UnderWay r ns identity now (.ask q fun answer => .done (Elector.won (answer.content Lease.ofJson?)))
  | claiming {q : Request} {lease : Lease} {body : Json} : q.verb = .mergePatch → q.body = some body →
    r.Shown lease →
    (Claim.choose lease.spec identity now).patch? identity lease.info.resourceVersion now = some body →
    UnderWay r ns identity now (.ask q fun answer => .done (Elector.won (answer.content Lease.ofJson?)))
  | ended {result : Except ApiError Bool} : (result = .ok true → r.Held identity now) →
    UnderWay r ns identity now (.done result)

variable {r r' : Registry} {ns identity other : String} {now : Timestamp}

theorem round_eq (ns identity : String) (now : Timestamp) : Elector.round ns identity now =
    Api.find (Elector.leases ns) Claim.leaseName Lease.ofJson? >>= afterLook ns identity now := by
  rw [Elector.round]
  congr 1

private theorem won_error (e : ApiError) : Elector.won (.error e : Except ApiError Lease) ≠ .ok true := by
  simp only [Elector.won]
  split <;> simp

private theorem underWay_ended_error (e : ApiError) :
    UnderWay r ns identity now (.done (Elector.won (.error e : Except ApiError Lease))) :=
  .ended fun h => absurd h (won_error e)

theorem underWay_afterLook {found : Except ApiError (Option Lease)}
    (h : ∀ lease, found = .ok (some lease) → r.Shown lease) :
    UnderWay r ns identity now (afterLook ns identity now found) := by
  rcases found with e | _ | lease
  · exact .ended nofun
  · simp only [afterLook, Api.ask]
    split
    · exact underWay_ended_error _
    · exact .creating rfl rfl
  · simp only [afterLook]
    split
    · exact .ended nofun
    · next body hbody =>
      simp only [Api.ask]
      split
      · exact underWay_ended_error _
      · exact .claiming rfl rfl (h lease rfl) hbody

theorem underWay_round : UnderWay r ns identity now (Elector.round ns identity now) := by
  rw [round_eq]
  simp only [Api.find, Api.ask]
  split
  · exact .ended nofun
  · exact .looking rfl

/-! ### One request -/

/-- What a request of a replica may leave of the registry: all as it is, or a lease that the replica holds from now
on, unless another one held it until now. -/
inductive Taken (r : Registry) (identity : String) (now : Timestamp) : Registry → Prop where
  | kept : Taken r identity now r
  | written {doc : Json} : HeldBy identity now doc →
    (∀ other since, r.Held other since → now.nanos ≤ since.nanos + 10 * 1000000000 → identity = other) →
    Taken r identity now (r.write doc)

/-- A failed request brings a round to an end without a lead, or to the creation of a lease. -/
theorem UnderWay.failed {q : Request} {next : Response → Api.Talk (Except ApiError Bool)} {answer : Response}
    {e : ApiError} (h : UnderWay r ns identity now (.ask q next)) (ha : answer.content Lease.ofJson? = .error e) :
    UnderWay r' ns identity now (next answer) := by
  cases h with
  | looking hq =>
    simp only [ha]
    refine underWay_afterLook fun lease hl => ?_
    cases e with
    | refused refusal =>
      simp only [Api.orMissing] at hl
      split at hl <;> cases hl
    | unsendable fault | unreadable message => cases hl
  | creating hq hb | claiming hq hb _ _ =>
    simp only [ha]
    exact underWay_ended_error e

theorem UnderWay.refused {q : Request} {next : Response → Api.Talk (Except ApiError Bool)} {code : Nat}
    (h : UnderWay r ns identity now (.ask q next)) (hcode : 400 ≤ code ∧ code < 600) (reason : String) :
    UnderWay r' ns identity now (next (Registry.refuse code reason)) := by
  obtain ⟨e, he⟩ := Registry.content_refuse Lease.ofJson? hcode reason
  exact h.failed he

/-- A request that comes to the registry. -/
theorem UnderWay.taken {q : Request} {next : Response → Api.Talk (Except ApiError Bool)}
    (h : UnderWay r ns identity now (.ask q next)) (hr : r.Marked) :
    Taken r identity now (r.take q).2 ∧ UnderWay (r.take q).2 ns identity now (next (r.take q).1) := by
  have hsame := h
  cases h with
  | looking hq =>
    simp only [Registry.take, hq]
    cases hl : r.lease with
    | none => exact ⟨.kept, hsame.refused (by decide) _⟩
    | some doc =>
      refine ⟨.kept, underWay_afterLook fun lease hfound => ?_⟩
      have hread := Registry.read_of_found hfound
      exact ⟨r.version, Nat.le_refl _, (version?_of_read hread).trans (hr doc hl), fun _ => ⟨doc, hl, hread⟩⟩
  | creating hq hb =>
    simp only [Registry.take, hq, hb]
    cases hl : r.lease with
    | some doc => exact ⟨.kept, hsame.refused (by decide) _⟩
    | none =>
      have hheld := heldBy_newLease ns identity now
      refine ⟨.written hheld ?_, .ended fun _ => Registry.held_write hheld r⟩
      rintro other since ⟨doc, hdoc, _⟩
      rw [hl] at hdoc
      cases hdoc
  | claiming hq hb hshown hpatch =>
    simp only [Registry.take, hq, hb]
    cases hl : r.lease with
    | none => exact ⟨.kept, hsame.refused (by decide) _⟩
    | some doc =>
      simp only [Option.getD_some]
      split
      · next hversion =>
        obtain ⟨n, _, hn, hcurrent⟩ := hshown
        have hmark : n = r.version :=
          mark_injective (Option.some.inj (hn.symm.trans ((version?_patch hpatch).symm.trans hversion)))
        obtain ⟨found, hfound, hread⟩ := hcurrent hmark
        obtain rfl := Option.some.inj (hl.symm.trans hfound)
        have hheld := heldBy_patched hread hpatch
        refine ⟨.written hheld ?_, .ended fun _ => Registry.held_write hheld r⟩
        rintro other since ⟨held, hh, hholds⟩ hlive
        obtain rfl := Option.some.inj (hl.symm.trans hh)
        exact hholds.claimed hlive hread hpatch
      · exact ⟨.kept, hsame.refused (by decide) _⟩

/-- What another replica does to a round. -/
theorem UnderWay.others {p : Api.Talk (Except ApiError Bool)} (h : UnderWay r ns other now p)
    (ht : Taken r identity now r') (hne : identity ≠ other) : UnderWay r' ns other now p := by
  cases ht with
  | kept => exact h
  | written hheld hfree =>
    cases h with
    | looking hq => exact .looking hq
    | creating hq hb => exact .creating hq hb
    | claiming hq hb hshown hpatch => exact .claiming hq hb (hshown.write _) hpatch
    | ended hwon => exact .ended fun hr => absurd (hfree other now (hwon hr) (by omega)) hne

theorem Taken.marked (h : Taken r identity now r') (hr : r.Marked) : r'.Marked := by
  cases h with
  | kept => exact hr
  | written _ _ => exact r.marked_write _

/-! ### All replicas -/

/-- What is true of a contest. A replica that leads has held the lease for ten seconds at most, and its next round
begins before these are over. -/
structure Fair (ns : String) (names : ι → String) (s : Contest ι) : Prop where
  marked : s.registry.Marked
  rounds : ∀ i rest, s.activity i = .atWork rest → UnderWay s.registry ns (names i) s.now rest
  leaders : ∀ i, s.leading i = true → ∃ since, s.registry.Held (names i) since ∧
    s.now.nanos ≤ since.nanos + 10 * 1000000000 ∧
    ∀ due, s.activity i = .asleep due → due.nanos ≤ since.nanos + 10 * 1000000000

variable {names : ι → String} {s t : Contest ι} {i : ι}

private theorem update_cases {β : Type} {f : ι → β} {j : ι} {b c : β} (h : Function.update f i b j = c) :
    j = i ∧ b = c ∨ j ≠ i ∧ f j = c := by
  by_cases hji : j = i
  · subst hji
    exact .inl ⟨rfl, (Function.update_self j b f).symm.trans h⟩
  · exact .inr ⟨hji, (Function.update_of_ne hji b f).symm.trans h⟩

private theorem Fair.begin (h : Fair ns names s) (i : ι) : Fair ns names { s with
    activity := Function.update s.activity i (.atWork (Elector.round ns (names i) s.now)) } where
  marked := h.marked
  rounds j rest hj := by
    obtain ⟨rfl, hround⟩ | ⟨_, hj⟩ := update_cases hj
    · rw [← Activity.atWork.inj hround]
      exact underWay_round
    · exact h.rounds j rest hj
  leaders j hj := by
    obtain ⟨since, hheld, hnow, hdue⟩ := h.leaders j hj
    refine ⟨since, hheld, hnow, fun due ha => ?_⟩
    obtain ⟨_, hround⟩ | ⟨_, ha⟩ := update_cases ha
    · cases hround
    · exact hdue due ha

private theorem Fair.request (hnames : Function.Injective names) (h : Fair ns names s)
    {rest : Api.Talk (Except ApiError Bool)} (ht : Taken s.registry (names i) s.now r')
    (hrest : UnderWay r' ns (names i) s.now rest) :
    Fair ns names { s with registry := r', activity := Function.update s.activity i (.atWork rest) } where
  marked := ht.marked h.marked
  rounds j p hj := by
    obtain ⟨rfl, hp⟩ | ⟨hji, hj⟩ := update_cases hj
    · rw [← Activity.atWork.inj hp]
      exact hrest
    · exact (h.rounds j p hj).others ht fun he => hji (hnames he).symm
  leaders j hj := by
    obtain ⟨since, hheld, hnow, hdue⟩ := h.leaders j hj
    have hbusy (due : Timestamp) (ha : Function.update s.activity i (.atWork rest) j = .asleep due) :
        j ≠ i ∧ s.activity j = .asleep due := by
      obtain ⟨_, hrest⟩ | hother := update_cases ha
      · cases hrest
      · exact hother
    cases ht with
    | kept => exact ⟨since, hheld, hnow, fun due ha => hdue due (hbusy due ha).2⟩
    | written hnew hfree =>
      obtain rfl := hnames (hfree _ since hheld hnow)
      exact ⟨s.now, Registry.held_write hnew _, by simp only; omega, fun due ha => absurd rfl (hbusy due ha).1⟩

private theorem Fair.publish (h : Fair ns names s) {result : Except ApiError Bool}
    (hi : s.activity i = .atWork (.done result)) : Fair ns names { s with
      leading := Function.update s.leading i (Elector.leads result)
      activity := Function.update s.activity i
        (.asleep ⟨s.now.nanos + (Elector.interval (Elector.leads result)).nanos⟩) } where
  marked := h.marked
  rounds j rest hj := by
    obtain ⟨_, hasleep⟩ | ⟨_, hj⟩ := update_cases hj
    · cases hasleep
    · exact h.rounds j rest hj
  leaders j hj := by
    obtain ⟨rfl, hleads⟩ | ⟨hji, hj⟩ := update_cases hj
    · have hresult : result = .ok true := by
        rcases result with e | leading
        · cases hleads
        · exact congrArg _ hleads
      cases h.rounds j _ hi with
      | ended hwon =>
        refine ⟨s.now, hwon hresult, by simp only; omega, fun due ha => ?_⟩
        obtain ⟨_, hdue⟩ | ⟨hne, _⟩ := update_cases ha
        · rw [← Activity.asleep.inj hdue, hleads]
          exact Int.le_refl _
        · exact absurd rfl hne
    · obtain ⟨since, hheld, hnow, hdue⟩ := h.leaders j hj
      refine ⟨since, hheld, hnow, fun due ha => ?_⟩
      obtain ⟨he, _⟩ | ⟨_, ha⟩ := update_cases ha
      · exact absurd he hji
      · exact hdue due ha

omit [DecidableEq ι] in
private theorem Fair.pass (h : Fair ns names s) {d : Duration}
    (hd : ∀ i, ∃ due, s.activity i = .asleep due ∧ s.now.nanos + d.nanos ≤ due.nanos) :
    Fair ns names { s with now := ⟨s.now.nanos + d.nanos⟩ } where
  marked := h.marked
  rounds j rest hj := by
    obtain ⟨due, ha, _⟩ := hd j
    cases ha.symm.trans hj
  leaders j hj := by
    obtain ⟨since, hheld, _, hdue⟩ := h.leaders j hj
    obtain ⟨due, ha, hle⟩ := hd j
    exact ⟨since, hheld, Int.le_trans hle (hdue due ha), hdue⟩

theorem Fair.step (hnames : Function.Injective names) (h : Fair ns names s) (hs : Step ns names s t) :
    Fair ns names t := by
  cases hs with
  | begin i _ => exact h.begin i
  | exchange i hi =>
    obtain ⟨ht, hrest⟩ := (h.rounds i _ hi).taken h.marked
    exact h.request hnames ht hrest
  | fail i taken answer e hi ha =>
    refine h.request hnames ?_ ((h.rounds i _ hi).failed ha)
    cases taken with
    | true => exact ((h.rounds i _ hi).taken h.marked).1
    | false => exact .kept
  | publish i hi => exact h.publish hi
  | pass d hd => exact h.pass hd

theorem Reachable.fair (hnames : Function.Injective names) (h : Reachable ns names s) : Fair ns names s := by
  induction h with
  | start hmarked hleading hasleep =>
    refine ⟨hmarked, fun i rest hi => ?_, fun i hi => ?_⟩
    · obtain ⟨due, ha⟩ := hasleep i
      rw [ha] at hi
      cases hi
    · rw [hleading i] at hi
      cases hi
  | step _ hs ih => exact ih.step hnames hs

/-- Replicas of different names never lead at the same time. -/
theorem one_leader (hnames : Function.Injective names) (h : Reachable ns names s) {i j : ι}
    (hi : s.leading i = true) (hj : s.leading j = true) : i = j := by
  obtain ⟨_, ⟨doc, hdoc, hheld⟩, _⟩ := (h.fair hnames).leaders i hi
  obtain ⟨_, ⟨doc', hdoc', hheld'⟩, _⟩ := (h.fair hnames).leaders j hj
  obtain rfl := Option.some.inj (hdoc.symm.trans hdoc')
  exact hnames (hheld.inj hheld')

private def twins (i : Bool) : String := if i then "east" else "west"

private def rush : Contest Bool := { now := ⟨0⟩, activity := fun _ => .asleep ⟨0⟩ }

private theorem round_asks (i : Bool) : Elector.round "lb" (twins i) ⟨0⟩ =
    .ask { verb := .get, collection := Elector.leases "lb", name := Claim.leaseName } fun answer =>
      afterLook "lb" (twins i) ⟨0⟩ (Api.orMissing (answer.content Lease.ofJson?)) := by
  have hsendable : ({ verb := .get, collection := Elector.leases "lb", name := Claim.leaseName } : Request).fault? =
      none := by decide +kernel
  rw [round_eq, Api.find, Api.ask, hsendable]
  rfl

private theorem missing_asks (i : Bool) :
    afterLook "lb" (twins i) ⟨0⟩ (Api.orMissing ((Registry.refuse 404 "NotFound").content Lease.ofJson?)) =
      .ask { verb := .create, collection := Elector.leases "lb", body := (Claim.newLease "lb" (twins i) ⟨0⟩).toJson }
        fun answer => .done (Elector.won (answer.content Lease.ofJson?)) := by
  have hmissing : Api.orMissing ((Registry.refuse 404 "NotFound").content Lease.ofJson?) = .ok none := rfl
  have hsendable : ({ verb := .create, collection := Elector.leases "lb", body :=
      (Claim.newLease "lb" (twins i) ⟨0⟩).toJson } : Request).fault? = none := by
    cases i <;> decide +kernel
  rw [hmissing, afterLook, Api.ask, hsendable]
  rfl

/-- The first to create the lease leads, and the other one does not. -/
theorem one_leader_of_rush : ∃ s, Reachable "lb" twins s ∧ Function.Injective twins ∧ s.leading true = true ∧
    ∀ i, s.leading i = true → i = true := by
  have hnames : Function.Injective twins := by
    intro i j h
    cases i <;> cases j <;> first | rfl | exact absurd h (by decide)
  have hstart : Reachable "lb" twins rush := .start nofun (fun _ => rfl) fun _ => ⟨_, rfl⟩
  have hbegun := (hstart.step (.begin true rfl)).step (.begin false rfl)
  have hlooked := (hbegun.step (.exchange true (congrArg Activity.atWork (round_asks true)))).step
    (.exchange false (congrArg Activity.atWork (round_asks false)))
  have hasked := (hlooked.step (.exchange true (congrArg Activity.atWork (missing_asks true)))).step
    (.exchange false (congrArg Activity.atWork (missing_asks false)))
  have hended := (hasked.step (.publish true rfl)).step (.publish false rfl)
  have hleads : Elector.leads (Elector.won (Response.content Lease.ofJson?
      ⟨201, stamp 1 (Claim.newLease "lb" (twins true) ⟨0⟩).toJson⟩)) = true := by decide +kernel
  exact ⟨_, hended, hnames, hleads, fun i hi => one_leader hnames hended hi hleads⟩

end ServiceBalancer.Leadership
