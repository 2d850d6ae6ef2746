import ServiceBalancer.Leadership.Elector
import ServiceBalancer.Proofs.Object.Reading
import ServiceBalancer.Proofs.Timestamp

/-! The lease for which replicas campaign, as an API server keeps it. The server marks every version of the lease, and
takes a write only for what it was written for: a new lease where there is none, a patch of the version it names. -/
namespace ServiceBalancer.Leadership
open Api (Request Response)

/-! ### Leases as documents -/

def version? (doc : Json) : Option String := ((doc.get? "metadata").bind (·.get? "resourceVersion")).bind Json.str?

def mark (n : Nat) : String := .ofList (Nat.toDigits 10 n)

def stamp (n : Nat) (doc : Json) : Json :=
  doc.mergePatch (.obj [("metadata", .obj [("resourceVersion", .str (mark n))])])

/-- Whether a document says that a replica has held the lease since a moment at least, and for how long it may. -/
def HeldBy (identity : String) (since : Timestamp) (doc : Json) : Prop :=
  ∃ spec, doc.get? "spec" = some spec ∧ spec.get? "holderIdentity" = some (.str identity) ∧
    spec.get? "renewTime" = some (.str since.microText) ∧
    spec.get? "leaseDurationSeconds" = some (.num Claim.leaseSeconds)

theorem mark_injective {m n : Nat} (h : mark m = mark n) : m = n := by
  have hread := congrArg (Nat.ofDigitChars 10 · 0) (String.ofList_injective h)
  rwa [Nat.ofDigitChars_toDigits (by decide) (by decide), Nat.ofDigitChars_toDigits (by decide) (by decide)] at hread

theorem version?_stamp (n : Nat) (doc : Json) : version? (stamp n doc) = some (mark n) := by
  have hm : ("metadata", Json.obj [("resourceVersion", .str (mark n))]) ∈
      [("metadata", Json.obj [("resourceVersion", .str (mark n))])] := .head _
  obtain ⟨inner, hinner, _⟩ := Json.get?_mergePatch_nested doc hm (by simp)
  rw [version?, stamp, hinner, Option.bind_some, Json.get?_mergePatch_of_mem (.head _) (by simp) (by simp)]
  rfl

theorem spec_stamp (n : Nat) (doc : Json) : (stamp n doc).get? "spec" = doc.get? "spec" :=
  Json.get?_mergePatch_of_not_mem (by simp)

theorem HeldBy.inj {doc : Json} {i j : String} {t u : Timestamp} (h : HeldBy i t doc) (h' : HeldBy j u doc) : i = j := by
  obtain ⟨spec, hspec, hi, _⟩ := h
  obtain ⟨spec', hspec', hj, _⟩ := h'
  obtain rfl := Option.some.inj (hspec.symm.trans hspec')
  exact Json.str.inj (Option.some.inj (hi.symm.trans hj))

/-! ### Documents that can be read -/

variable {doc : Json} {lease : Lease}

/-- An object that can be read names the version that its document names. -/
theorem version?_of_info {info : Meta} (h : Resource.infoOf? doc = some info) : info.resourceVersion = version? doc := by
  rw [infoOf?_eq, Json.metadata] at h
  have hread := (Meta.ofJson?_eq_some.mp h).2.resourceVersion
  rw [version?]
  cases hm : doc.get? "metadata" with
  | none =>
    rw [hm] at hread
    exact (Option.some.inj hread).symm
  | some m =>
    rw [hm, Option.getD_some] at hread
    rw [Option.bind_some]
    obtain ⟨hv, hnone⟩ | ⟨text, version, hv, htext, hsome⟩ := Json.optional?_cases hread
    · rw [hv, hnone]
      rfl
    · rw [hv, hsome, Option.bind_some, htext]

theorem version?_of_read (h : Lease.ofJson? doc = some lease) : lease.info.resourceVersion = version? doc :=
  version?_of_info (Lease.ofJson?_eq_some.mp h).2.1

/-- The holder that is read of a lease is the one that its document names. -/
theorem holder_of_read {identity : String} (h : Lease.ofJson? doc = some lease)
    (hi : lease.spec.bind (·.holderIdentity) = some identity) :
    ∃ spec, doc.get? "spec" = some spec ∧ spec.get? "holderIdentity" = some (.str identity) := by
  obtain ⟨spec, hspec, hi⟩ := Option.bind_eq_some_iff.mp hi
  obtain ⟨_, hnone⟩ | ⟨json, read, hm, hread, hsome⟩ := Json.optional?_cases (Lease.ofJson?_eq_some.mp h).2.2
  · rw [hspec] at hnone
    cases hnone
  · obtain rfl := Option.some.inj (hspec.symm.trans hsome)
    refine ⟨json, hm, ?_⟩
    have hmember := (LeaseSpec.ofJson?_eq_some.mp hread).2.holderIdentity
    obtain ⟨_, hnone⟩ | ⟨text, holder, ht, hh, hsome⟩ := Json.optional?_cases hmember
    · rw [hi] at hnone
      cases hnone
    · obtain rfl := Option.some.inj (hi.symm.trans hsome)
      cases text <;> cases hh
      exact ht

/-- What is read of a lease that a replica holds. -/
theorem HeldBy.read {identity : String} {since : Timestamp} (hd : HeldBy identity since doc)
    (h : Lease.ofJson? doc = some lease) : lease.spec.bind (·.holderIdentity) = some identity ∧
      lease.spec.bind Claim.deadline? = some (since.truncateMicros.addSeconds Claim.leaseSeconds) := by
  obtain ⟨json, hspec, hholder, hrenew, hseconds⟩ := hd
  obtain ⟨spec, hread, hs⟩ := Json.optional?_present (Lease.ofJson?_eq_some.mp h).2.2 hspec
  obtain ⟨_, hmembers⟩ := LeaseSpec.ofJson?_eq_some.mp hread
  obtain ⟨_, hi, hholder⟩ := Json.optional?_present hmembers.holderIdentity hholder
  obtain ⟨_, hn, hseconds⟩ := Json.optional?_present hmembers.leaseDurationSeconds hseconds
  obtain ⟨_, ht, hrenew⟩ := Json.optional?_present hmembers.renewTime hrenew
  have hfifteen : Json.int32? (.num Claim.leaseSeconds) = some Claim.leaseSeconds := by decide
  obtain rfl := Option.some.inj hi
  obtain rfl := Option.some.inj (hfifteen.symm.trans hn)
  rw [Json.timestamp?, Json.str?, Option.bind_some] at ht
  obtain rfl := Timestamp.eq_truncateMicros_of_ofText? ht
  refine ⟨by rw [hs, Option.bind_some, hholder], ?_⟩
  rw [hs, Option.bind_some, Claim.deadline?, hrenew, hseconds]
  rfl

/-! ### Claims -/

/-- While a lease is not expired, no one but its holder can claim it. -/
theorem HeldBy.claimed {identity other : String} {since now : Timestamp} (hd : HeldBy identity since doc)
    (hnow : now.nanos ≤ since.nanos + 10 * 1000000000) (h : Lease.ofJson? doc = some lease) {version : Option String}
    {body : Json} (hp : (Claim.choose lease.spec other now).patch? other version now = some body) :
    other = identity := by
  obtain ⟨hholder, hdeadline⟩ := hd.read h
  refine Decidable.byContradiction fun hne => ?_
  have hlive : Claim.isExpired lease.spec now = false := by
    simp only [Claim.isExpired, hdeadline, Timestamp.addSeconds, Timestamp.truncateMicros, Claim.leaseSeconds]
    exact decide_eq_false (by omega)
  have hwait : Claim.choose lease.spec other now = .wait := by
    rw [Claim.choose, if_neg fun he => hne (Option.some.inj (he.symm.trans hholder)), hlive]
    rfl
  rw [hwait] at hp
  cases hp

/-- A claim is a claim of the version that was read. -/
theorem version?_patch {claim : Claim} {identity : String} {version : Option String} {now : Timestamp} {body : Json}
    (h : claim.patch? identity version now = some body) : version? body = version := by
  obtain ⟨changes, _, rfl⟩ := Option.map_eq_some_iff.mp h
  cases version <;> rfl

theorem holder_of_renew {spec : Option LeaseSpec} {identity : String} {now : Timestamp}
    (h : Claim.choose spec identity now = .renew) : spec.bind (·.holderIdentity) = some identity := by
  simp only [Claim.choose] at h
  split at h
  · assumption
  · split at h <;> cases h

abbrev claimBody (version : Option String) (changes : List (String × Json)) : Json :=
  .obj [("metadata", .obj [("resourceVersion", (version.map Json.str).getD .null)]), ("spec", .obj changes)]

/-- The changes are made of the spec that is there. -/
theorem spec_claimed (doc : Json) (version : Option String) (changes : List (String × Json)) :
    ∃ old : Json, (doc.mergePatch (claimBody version changes)).get? "spec" = some (old.mergePatch (.obj changes)) ∧
      ∀ name, old.get? name = (doc.get? "spec").bind (·.get? name) :=
  Json.get?_mergePatch_nested doc (.tail _ (.head _)) (by simp)

/-- A replica holds a lease once its claim is made of it. -/
theorem heldBy_patched {identity : String} {now : Timestamp} (h : Lease.ofJson? doc = some lease)
    {version : Option String} {body : Json}
    (hp : (Claim.choose lease.spec identity now).patch? identity version now = some body) :
    HeldBy identity now (doc.mergePatch body) := by
  obtain ⟨changes, hchanges, rfl⟩ := Option.map_eq_some_iff.mp hp
  obtain ⟨old, hspec, hold⟩ := spec_claimed doc version changes
  refine ⟨_, hspec, ?_⟩
  cases hc : Claim.choose lease.spec identity now with
  | wait =>
    rw [hc] at hchanges
    cases hchanges
  | renew =>
    rw [hc] at hchanges
    obtain rfl := Option.some.inj hchanges
    obtain ⟨spec, hs, hi⟩ := holder_of_read h (holder_of_renew hc)
    refine ⟨?_, ?_, ?_⟩
    · rw [Json.get?_mergePatch_of_not_mem (by simp), hold, hs, Option.bind_some, hi]
    · rw [Json.get?_mergePatch_of_mem (.tail _ (.head _)) (by simp) (by simp), Json.mergePatch]
    · rw [Json.get?_mergePatch_of_mem (.head _) (by simp) (by simp), Json.mergePatch]
  | takeOver =>
    rw [hc] at hchanges
    obtain rfl := Option.some.inj hchanges
    refine ⟨?_, ?_, ?_⟩
    · rw [Json.get?_mergePatch_of_mem (.tail _ (.head _)) (by simp) (by simp), Json.mergePatch]
    · rw [Json.get?_mergePatch_of_mem (.tail _ (.tail _ (.tail _ (.head _)))) (by simp) (by simp), Json.mergePatch]
    · rw [Json.get?_mergePatch_of_mem (.tail _ (.tail _ (.head _))) (by simp) (by simp), Json.mergePatch]

theorem heldBy_newLease (ns identity : String) (now : Timestamp) :
    HeldBy identity now (Claim.newLease ns identity now).toJson := by
  refine ⟨_, rfl, rfl, rfl, rfl⟩

theorem HeldBy.stamp {identity : String} {since : Timestamp} (h : HeldBy identity since doc) (n : Nat) :
    HeldBy identity since (stamp n doc) := by
  obtain ⟨spec, hspec, hrest⟩ := h
  exact ⟨spec, (spec_stamp n doc).trans hspec, hrest⟩

/-! ### The registry -/

structure Registry where
  lease : Option Json := none
  version : Nat := 0

namespace Registry

def refuse (code : Nat) (reason : String) : Response :=
  ⟨code, .obj [("status", .str "Failure"), ("reason", .str reason), ("code", .num code)]⟩

def write (r : Registry) (doc : Json) : Registry where
  lease := some (stamp (r.version + 1) doc)
  version := r.version + 1

/-- The answer to a request, and what it leaves. A lease is created where there is none, and patched by who names
the version that it has. -/
def take (r : Registry) (q : Request) : Response × Registry :=
  match q.verb, r.lease with
  | .get, some doc => (⟨200, doc⟩, r)
  | .create, none =>
    let body := q.body.getD .null
    (⟨201, stamp (r.version + 1) body⟩, r.write body)
  | .mergePatch, some doc =>
    let body := q.body.getD .null
    if version? body = some (mark r.version) then
      (⟨200, stamp (r.version + 1) (doc.mergePatch body)⟩, r.write (doc.mergePatch body))
    else (refuse 409 "Conflict", r)
  | .get, none | .mergePatch, none => (refuse 404 "NotFound", r)
  | .create, some _ => (refuse 409 "AlreadyExists", r)
  | .watch, _ | .replace, _ => (refuse 405 "MethodNotAllowed", r)

def Marked (r : Registry) : Prop := ∀ doc, r.lease = some doc → version? doc = some (mark r.version)

def Held (r : Registry) (identity : String) (since : Timestamp) : Prop :=
  ∃ doc, r.lease = some doc ∧ HeldBy identity since doc

/-- Whether a lease has been read. It is what there is if the version is still the same. -/
def Shown (r : Registry) (lease : Lease) : Prop :=
  ∃ n ≤ r.version, lease.info.resourceVersion = some (mark n) ∧
    (n = r.version → ∃ doc, r.lease = some doc ∧ Lease.ofJson? doc = some lease)

variable {r : Registry}

theorem marked_write (r : Registry) (doc : Json) : (r.write doc).Marked := by
  intro doc' h
  rw [← Option.some.inj h]
  exact version?_stamp _ _

theorem Shown.write (h : r.Shown lease) (doc : Json) : (r.write doc).Shown lease := by
  obtain ⟨n, hn, hversion, _⟩ := h
  refine ⟨n, Nat.le_succ_of_le hn, hversion, fun he => ?_⟩
  have : n = r.version + 1 := he
  omega

theorem held_write {identity : String} {since : Timestamp} (h : HeldBy identity since doc) (r : Registry) :
    (r.write doc).Held identity since :=
  ⟨_, rfl, h.stamp _⟩

/-- A lease that is found is the one there is. -/
theorem read_of_found (h : Api.orMissing (Api.Response.content Lease.ofJson? ⟨200, doc⟩) = .ok (some lease)) :
    Lease.ofJson? doc = some lease := by
  have haccepted : (⟨200, doc⟩ : Response).isRefused = false := rfl
  rw [Api.Response.content, if_neg (by simp [haccepted])] at h
  cases hread : Lease.ofJson? doc with
  | none =>
    rw [hread] at h
    cases h
  | some found =>
    rw [hread] at h
    cases h
    rfl

theorem content_refuse {α : Type} (read : Json → Option α) {code : Nat} (h : 400 ≤ code ∧ code < 600)
    (reason : String) : ∃ e, (refuse code reason).content read = .error e := by
  have hrefused : (refuse code reason).isRefused = true := by simp [refuse, Api.Response.isRefused, h.1, h.2]
  rw [Api.Response.content, if_pos hrefused]
  exact ⟨_, rfl⟩

end Registry
end ServiceBalancer.Leadership
