import ServiceBalancer.Proofs.Remote.Documents

/-! What a claim makes of a lease. Its patch changes the members that it names and no others, and every replica that reads
the lease afterwards finds it held: the claimant at any time, and the others until it is expired. -/
namespace ServiceBalancer
open Json (mergePatch)
open Leadership (claimBody)

variable {doc : Json} {lease : Lease} {spec : LeaseSpec} {identity other : String} {now : Timestamp} {claim : Claim}
  {changes : List (String × Json)}

def Timestamp.year (t : Timestamp) : Int := (civilDate (t.nanos / 1000000000 / 86400)).1

/-! ### Choices -/

namespace Claim

/-- What a replica makes of a lease that another one has renewed: it waits until the lease is expired. -/
theorem choose_of_renewed {renewed : Timestamp} (hrenewed : spec.renewTime = some renewed)
    (hother : spec.holderIdentity ≠ some other) (t : Timestamp) : choose (some spec) other t =
      if renewed.nanos + spec.leaseDurationSeconds.getD leaseSeconds * 1000000000 < t.nanos then .takeOver else .wait := by
  have hdeadline : deadline? spec = some (renewed.addSeconds (spec.leaseDurationSeconds.getD leaseSeconds)) := by
    rw [deadline?, hrenewed, Option.map_some]
  rw [choose, Option.bind_some, if_neg hother, isExpired, Option.bind_some, hdeadline]
  exact if_congr decide_eq_true_iff rfl rfl

theorem choose_of_held (h : spec.holderIdentity = some identity) (t : Timestamp) :
    choose (some spec) identity t = .renew := by
  rw [choose, Option.bind_some, if_pos h]

/-- A replica waits only for a lease that another one has renewed. -/
theorem renewed_of_wait {spec : Option LeaseSpec} (h : choose spec identity now = .wait) :
    ∃ s renewed, spec = some s ∧ s.renewTime = some renewed ∧ s.holderIdentity ≠ some identity := by
  simp only [choose] at h
  split at h
  · cases h
  · next hother =>
    split at h
    · cases h
    · next hlive =>
      cases spec with
      | none => exact absurd rfl hlive
      | some s =>
        cases hrenewed : s.renewTime with
        | none => simp [isExpired, deadline?, hrenewed] at hlive
        | some renewed => exact ⟨s, renewed, rfl, hrenewed, hother⟩

def sets : Claim → List String
  | .wait => []
  | .renew => ["leaseDurationSeconds", "renewTime"]
  | .takeOver => ["acquireTime", "holderIdentity", "leaseDurationSeconds", "renewTime"]

/-- A spec after a claim was made of it. Moments are written to the microsecond. -/
def claimed (claim : Claim) (identity : String) (now : Timestamp) (s : LeaseSpec) : LeaseSpec :=
  match claim with
  | .wait => s
  | .renew => { s with leaseDurationSeconds := some 15, renewTime := some now.truncateMicros }
  | .takeOver => { s with
      acquireTime := some now.truncateMicros
      holderIdentity := some identity
      leaseDurationSeconds := some 15
      renewTime := some now.truncateMicros }

theorem map_changes (h : claim.changes? identity now = some changes) : changes.map (·.1) = claim.sets := by
  cases claim <;> cases h <;> rfl

theorem mem_changes (h : claim.changes? identity now = some changes) : ("renewTime", .str now.microText) ∈ changes := by
  cases claim with
  | wait => cases h
  | renew =>
    obtain rfl := Option.some.inj h
    exact .tail _ (.head _)
  | takeOver =>
    obtain rfl := Option.some.inj h
    exact .tail _ (.tail _ (.tail _ (.head _)))

theorem claimed_held (hset : claim.changes? identity now = some changes)
    (hheld : claim = .renew → spec.holderIdentity = some identity) :
    (claim.claimed identity now spec).holderIdentity = some identity := by
  cases claim with
  | wait => cases hset
  | renew => exact hheld rfl
  | takeOver => rfl

theorem claimed_renewed (s : LeaseSpec) (h : claim.changes? identity now = some changes) :
    (claim.claimed identity now s).renewTime = some now.truncateMicros ∧
      (claim.claimed identity now s).leaseDurationSeconds = some 15 := by
  cases claim <;> cases h <;> exact ⟨rfl, rfl⟩

end Claim

/-! ### Reading -/

def Json.leaseSpec (doc : Json) : Json := (doc.get? "spec").getD .null

/-- A lease without a spec is read as one whose spec is empty. -/
theorem members_of_read (h : Lease.ofJson? doc = some lease) :
    LeaseSpec.Members doc.leaseSpec (lease.spec.getD {}) := by
  have hspec := (Lease.ofJson?_eq_some.mp h).2.2
  rw [Json.optional?] at hspec
  rw [Json.leaseSpec]
  cases hj : doc.get? "spec" with
  | none =>
    rw [hj] at hspec
    rw [← Option.some.inj hspec]
    exact ⟨rfl, rfl, rfl, rfl, rfl⟩
  | some j =>
    rw [hj] at hspec
    obtain ⟨s, hs, he⟩ := Option.map_eq_some_iff.mp hspec
    rw [← he]
    exact (LeaseSpec.ofJson?_eq_some.mp hs).2

section Patched
variable {α : Type} {j change : Json} {name : String} {read : Json → Option α} {a : α}

private theorem optional?_kept (h : name ∉ changes.map (·.1)) :
    (mergePatch j (.obj changes)).optional? name read = j.optional? name read := by
  rw [Json.optional?, Json.get?_mergePatch_of_not_mem h, Json.optional?]

private theorem optional?_set (hm : (name, change) ∈ changes) (hn : (changes.map (·.1)).Nodup)
    (hleaf : ∀ target, mergePatch target change = change) (hr : read change = some a) (hnull : change ≠ .null) :
    (mergePatch j (.obj changes)).optional? name read = some (some a) := by
  rw [Json.optional?, Json.get?_mergePatch_of_mem hm hn hnull, hleaf]
  simp only [hr, Option.map_some]

end Patched

/-- What is read of a spec after a claim was made of it. -/
theorem LeaseSpec.Members.claimed {j : Json} (h : Members j spec) (hset : claim.changes? identity now = some changes)
    (htime : Timestamp.ofText? now.microText = some now.truncateMicros) :
    Members (mergePatch j (.obj changes)) (claim.claimed identity now spec) := by
  have hmoment : Json.timestamp? (.str now.microText) = some now.truncateMicros := by
    rw [Json.timestamp?, Json.str?, Option.bind_some, htime]
  have hfifteen : Json.int32? (.num Claim.leaseSeconds) = some 15 := by decide
  have hleaf {s : String} (target : Json) : mergePatch target (.str s) = .str s := by rw [mergePatch]
  have hnumber {n : Int} (target : Json) : mergePatch target (.num n) = .num n := by rw [mergePatch]
  cases claim with
  | wait => cases hset
  | renew =>
    obtain rfl := Option.some.inj hset
    refine ⟨?_, ?_, ?_, ?_, ?_⟩
    · rw [optional?_kept (by simp)]
      exact h.acquireTime
    · rw [optional?_kept (by simp)]
      exact h.holderIdentity
    · exact optional?_set (.head _) (by simp) hnumber hfifteen (by simp)
    · rw [optional?_kept (by simp)]
      exact h.leaseTransitions
    · exact optional?_set (.tail _ (.head _)) (by simp) hleaf hmoment (by simp)
  | takeOver =>
    obtain rfl := Option.some.inj hset
    refine ⟨?_, ?_, ?_, ?_, ?_⟩
    · exact optional?_set (.head _) (by simp) hleaf hmoment (by simp)
    · exact optional?_set (.tail _ (.head _)) (by simp) hleaf rfl (by simp)
    · exact optional?_set (.tail _ (.tail _ (.head _))) (by simp) hnumber hfifteen (by simp)
    · rw [optional?_kept (by simp)]
      exact h.leaseTransitions
    · exact optional?_set (.tail _ (.tail _ (.tail _ (.head _)))) (by simp) hleaf hmoment (by simp)

/-- What is read of a lease after a claim was made of it. -/
theorem ofJson?_claimed (h : Lease.ofJson? doc = some lease) (hset : claim.changes? identity now = some changes)
    (htime : Timestamp.ofText? now.microText = some now.truncateMicros) (version : Option String) :
    Lease.ofJson? (mergePatch doc (claimBody version changes)) = some
        { info := { lease.info with resourceVersion := version }
          spec := some (claim.claimed identity now (lease.spec.getD {})) } := by
  obtain ⟨hadmits, hinfo, _⟩ := Lease.ofJson?_eq_some.mp h
  refine Lease.ofJson?_eq_some.mpr ⟨?_, ?_, ?_⟩
  · rw [← hadmits]
    refine admits_congr rfl (isObject_of_admits hadmits) (fun name hname => ?_) _ _
    refine Json.lookup_mergeMembers_of_not_mem ?_
    simp only [List.mem_cons, List.not_mem_nil, or_false] at hname
    rcases hname with rfl | rfl <;> simp
  · have hget (name : String) : ((doc.get? "metadata").getD .null).get? name = doc.metadata.get? name := by
      rw [Json.metadata]
      cases doc.get? "metadata" <;> rfl
    refine infoOf?_versioned hinfo version ?_ hget
    rw [Json.metadata, get?_patched doc (.head _) (by simp) (by simp)]
    rfl
  · have hspec := (members_of_read h).claimed hset htime
    rw [Json.optional?, get?_patched doc (.tail _ (.head _)) (by simp) (by simp)]
    refine congrArg (Option.map some) (LeaseSpec.ofJson?_eq_some.mpr ⟨?_, hspec⟩)
    rw [mergePatch, Json.isObject]

/-- A claim leaves the members alone that it does not set. -/
theorem get?_claimed (doc : Json) (hset : claim.changes? identity now = some changes) (version : Option String)
    {name : String} (h : name ∉ claim.sets) :
    ((mergePatch doc (claimBody version changes)).get? "spec").bind (·.get? name) =
      (doc.get? "spec").bind (·.get? name) := by
  obtain ⟨old, hspec, hold⟩ := Leadership.spec_claimed doc version changes
  rw [hspec, Option.bind_some, Json.get?_mergePatch_of_not_mem (Claim.map_changes hset ▸ h), hold]

/-- A lease can be read after a claim was made of it only if the moment of the claim can be read of its text. -/
theorem ofText?_of_claimed {patched : Lease} {version : Option String} (hset : claim.changes? identity now = some changes)
    (h : Lease.ofJson? (mergePatch doc (claimBody version changes)) = some patched) :
    Timestamp.ofText? now.microText = some now.truncateMicros := by
  have hnodup : (changes.map (·.1)).Nodup := by
    rw [Claim.map_changes hset]
    cases claim <;> decide
  have hread := (members_of_read h).renewTime
  rw [Json.leaseSpec, get?_patched doc (.tail _ (.head _)) (by simp) (by simp), Option.getD_some, Json.optional?,
    Json.get?_mergePatch_of_mem (Claim.mem_changes hset) hnodup (by simp), mergePatch] at hread
  obtain ⟨t, ht, _⟩ := Option.map_eq_some_iff.mp hread
  rw [Json.timestamp?, Json.str?, Option.bind_some] at ht
  rw [ht, Timestamp.eq_truncateMicros_of_ofText? ht]

namespace Claim

/-- A replica that waits makes no claim, and waits until the lease is expired, from when on it takes it over. Any other
makes a claim, and the lease that results can be read if the moment of the claim has a year of four digits. It is the
lease that was read but for the version and the members that the claim sets. To the claimant it is one to renew at any
time, and the others wait until fifteen seconds after the claim, counted from the microsecond, and then take it over. -/
theorem claim_heeded (spec : Option LeaseSpec) (identity : String) (version : Option String) (now : Timestamp) :
    (choose spec identity now = .wait → (choose spec identity now).patch? identity version now = none ∧
      ∃ s renewed, spec = some s ∧ s.renewTime = some renewed ∧ ∀ t, choose spec identity t =
        if renewed.nanos + s.leaseDurationSeconds.getD 15 * 1000000000 < t.nanos then .takeOver else .wait) ∧
    (choose spec identity now ≠ .wait → ∃ body, (choose spec identity now).patch? identity version now = some body ∧
      ∀ doc lease, Lease.ofJson? doc = some lease → lease.spec = spec →
        (0 ≤ now.year ∧ now.year ≤ 9999 → (Lease.ofJson? (mergePatch doc body)).isSome) ∧
        ∀ patched, Lease.ofJson? (mergePatch doc body) = some patched →
          patched.info = { lease.info with resourceVersion := version } ∧
          patched.spec = some ((choose spec identity now).claimed identity now (spec.getD {})) ∧
          (∀ name, name ∉ (choose spec identity now).sets →
            ((mergePatch doc body).get? "spec").bind (·.get? name) = (doc.get? "spec").bind (·.get? name)) ∧
          (∀ t, choose patched.spec identity t = .renew) ∧
          ∀ other, other ≠ identity → ∀ t, choose patched.spec other t =
            if now.truncateMicros.nanos + 15 * 1000000000 < t.nanos then .takeOver else .wait) := by
  refine ⟨fun hwait => ?_, fun hclaim => ?_⟩
  · obtain ⟨s, renewed, rfl, hrenewed, hother⟩ := renewed_of_wait hwait
    exact ⟨by rw [hwait]; rfl, s, renewed, rfl, hrenewed, choose_of_renewed hrenewed hother⟩
  · obtain ⟨changes, hset⟩ : ∃ changes, (choose spec identity now).changes? identity now = some changes := by
      cases hc : choose spec identity now with
      | wait => exact absurd hc hclaim
      | renew | takeOver => exact ⟨_, rfl⟩
    refine ⟨_, congrArg (Option.map _) hset, ?_⟩
    rintro doc lease hread rfl
    refine ⟨fun hyear => ?_, fun patched hpatched => ?_⟩
    · rw [ofJson?_claimed hread hset (Timestamp.ofText?_microText hyear) version]
      rfl
    · have htime := ofText?_of_claimed hset hpatched
      obtain rfl := Option.some.inj (hpatched.symm.trans (ofJson?_claimed hread hset htime version))
      have hheld : ((choose lease.spec identity now).claimed identity now (lease.spec.getD {})).holderIdentity =
          some identity := by
        refine claimed_held hset fun hrenew => ?_
        obtain ⟨s, hs, hi⟩ := Option.bind_eq_some_iff.mp (Leadership.holder_of_renew hrenew)
        rw [hs, Option.getD_some, hi]
      obtain ⟨hrenewed, hseconds⟩ := claimed_renewed (lease.spec.getD {}) hset
      refine ⟨rfl, rfl, fun name => get?_claimed doc hset version, choose_of_held hheld, fun other hother t => ?_⟩
      have hne : ((choose lease.spec identity now).claimed identity now (lease.spec.getD {})).holderIdentity ≠
          some other := by
        rw [hheld]
        exact fun he => hother (Option.some.inj he).symm
      rw [choose_of_renewed hrenewed hne, hseconds]
      rfl

private def held : LeaseSpec := { holderIdentity := some "east", leaseTransitions := some 3, renewTime := some ⟨0⟩ }

/-- A nanosecond after fifteen seconds a lease without a duration is taken over. From then on the former holder waits, and
it still does fifteen seconds later. -/
theorem claim_heeded_late : ∃ body patched,
    (choose (some held) "west" ⟨15000000001⟩).patch? "west" (some "7") ⟨15000000001⟩ = some body ∧
    Lease.ofJson? (mergePatch { spec := some held : Lease }.toJson body) = some patched ∧
    patched.spec = some
      { acquireTime := some ⟨15000000000⟩
        holderIdentity := some "west"
        leaseDurationSeconds := some 15
        leaseTransitions := some 3
        renewTime := some ⟨15000000000⟩ } ∧
    choose patched.spec "east" ⟨30000000000⟩ = .wait ∧ choose patched.spec "east" ⟨30000000001⟩ = .takeOver := by
  have hclaim : choose (some held) "west" ⟨15000000001⟩ = .takeOver := by decide
  obtain ⟨body, hbody, hall⟩ := (claim_heeded (some held) "west" (some "7") ⟨15000000001⟩).2 (by simp [hclaim])
  have hread : Lease.ofJson? { spec := some held : Lease }.toJson = some { spec := some held } := by decide +kernel
  obtain ⟨hreadable, hrest⟩ := hall _ _ hread rfl
  obtain ⟨patched, hpatched⟩ := Option.isSome_iff_exists.mp (hreadable (by decide +kernel))
  obtain ⟨_, hspec, _, _, hothers⟩ := hrest patched hpatched
  refine ⟨body, patched, hbody, hpatched, ?_, ?_, ?_⟩
  · rw [hspec, hclaim]
    rfl
  · rw [hothers "east" (by decide)]
    decide
  · rw [hothers "east" (by decide)]
    decide

end Claim
end ServiceBalancer
