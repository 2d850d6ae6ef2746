import ServiceBalancer.Proofs.Program.Amid
import ServiceBalancer.Proofs.Remote.Documents
import Mathlib.Logic.Relation

/-! The services of a cluster as an API server keeps them. Every stored document names its version, a replaced status
must name the current one, and there is no answer about a service that does not exist but that it was not found. -/
namespace ServiceBalancer.Remote
open Api (Request Response)
open Leadership (stamp version? mark mark_injective version?_stamp)
open Relation

/-! ### Services and their documents -/

def inVersion (svc : Service) (n : Nat) : Service :=
  { svc with info := { svc.info with resourceVersion := some (mark n) } }

/-- Whether a document is one that the server stores: a service that can be read, and that is told in full by what it
says. -/
def Admitted (doc : Json) : Prop := ∃ svc, Service.ofJson? doc = some svc ∧ svc.Fits

theorem inVersion_fits {svc : Service} (h : svc.Fits) (n : Nat) : (inVersion svc n).Fits where
  info := { h.info with }
  spec := h.spec
  status := h.status

theorem setBalancerStatus_fits {svc : Service} {status : BalancerStatus} (h : svc.Fits) (hs : status.Fits) :
    (svc.setBalancerStatus status).Fits where
  info := h.info
  spec := h.spec
  status := by
    rintro s hs'
    obtain rfl := Option.some.inj hs'
    refine ⟨fun l hl => ?_, fun b hb => Option.some.inj hb ▸ hs⟩
    cases hstatus : svc.status with
    | none =>
      rw [hstatus] at hl
      cases hl
    | some old =>
      rw [hstatus] at hl
      exact (h.status old hstatus).conditions l hl

theorem Admitted.stamp {doc : Json} (h : Admitted doc) (n : Nat) : Admitted (stamp n doc) := by
  obtain ⟨svc, hread, hfits⟩ := h
  exact ⟨_, ofJson?_stamp hread n, inVersion_fits hfits n⟩

/-- The service with a published status, sent as a document. All that the server may take over besides the status is
what it had stored. -/
theorem ofJson?_published {doc : Json} {svc : Service} {status : BalancerStatus} (h : Service.ofJson? doc = some svc)
    (hfits : svc.Fits) (hs : status.Fits) {names : List String}
    (hnames : ∀ name ∈ names, name ∈ ["metadata", "spec"]) :
    Service.ofJson? (.takeOver ("status" :: names) (svc.setBalancerStatus status).toJson doc) =
      some (svc.setBalancerStatus status) := by
  rw [ofJson?_takeOver h (Service.ofJson?_toJson (setBalancerStatus_fits hfits hs)) hnames]
  simp only [Service.setBalancerStatus, ite_self]

/-! ### The registry -/

/-- The documents of services by collection and name, and the number of the last version. -/
structure Registry where
  document? : String → String → Option Json
  version : Nat := 0

namespace Registry

def put (r : Registry) (collection name : String) (doc : Json) : Registry where
  document? c n := if c = collection ∧ n = name then some (stamp (r.version + 1) doc) else r.document? c n
  version := r.version + 1

def drop (r : Registry) (collection name : String) : Registry where
  document? c n := if c = collection ∧ n = name then none else r.document? c n
  version := r.version + 1

def about (r : Registry) (q : Request) : Option Json := r.document? q.collection (q.name.getD "")

def Current (q : Request) (doc : Json) : Prop :=
  ∀ version, version? (q.body.getD .null) = some version → version? doc = some version

/-- What an answer to a request may be, and what it leaves. A server that bars may refuse a request for any other cause
too, such as missing rights. -/
inductive Serves (bars : Bool) : Registry → Request → Response → Registry → Prop
  | missing {r : Registry} {q : Request} {answer : Response} : r.about q = none → answer.isRefused = true →
      answer.refusal.code = 404 → answer.refusal.reason = "NotFound" → Serves bars r q answer r
  | shown {r : Registry} {q : Request} {doc : Json} : q.verb = .get → r.about q = some doc → Serves bars r q ⟨200, doc⟩ r
  | outdated {r : Registry} {q : Request} {answer : Response} {doc : Json} : q.verb = .replace →
      r.about q = some doc → ¬ Current q doc → answer.isRefused = true → answer.refusal.code = 409 →
      answer.refusal.reason ≠ "NotFound" → Serves bars r q answer r
  /-- The status is taken over, and metadata and spec may be. What a server notes of its own besides the version, such as
  who has set which members, is left out. -/
  | replaced {r : Registry} {q : Request} {doc : Json} {names : List String} : q.verb = .replace →
      q.part = "/status" → r.about q = some doc → Current q doc → (∀ name ∈ names, name ∈ ["metadata", "spec"]) →
      Serves bars r q ⟨200, stamp (r.version + 1) (.takeOver ("status" :: names) (q.body.getD .null) doc)⟩
        (r.put q.collection (q.name.getD "") (.takeOver ("status" :: names) (q.body.getD .null) doc))
  | patched {r : Registry} {q : Request} {doc : Json} : q.verb = .mergePatch → q.part = "" → r.about q = some doc →
      Serves bars r q ⟨200, stamp (r.version + 1) (doc.mergePatch (q.body.getD .null))⟩
        (r.put q.collection (q.name.getD "") (doc.mergePatch (q.body.getD .null)))
  | barred {r : Registry} {q : Request} {answer : Response} {doc : Json} : bars = true → r.about q = some doc →
      (q.verb = .replace → Current q doc) → answer.isRefused = true → answer.refusal.code ≠ 404 →
      answer.refusal.code ≠ 409 → answer.refusal.reason ≠ "NotFound" → Serves bars r q answer r

inductive Change : Registry → Registry → Prop
  | put (r : Registry) (collection name : String) {doc : Json} : Admitted doc → Change r (r.put collection name doc)
  | drop (r : Registry) (collection name : String) : Change r (r.drop collection name)

/-- What others may write in any time. -/
abbrev Meanwhile : Registry → Registry → Prop := ReflTransGen Change

/-- Whether all documents are such as the server stores, and name versions that have been. -/
def Sound (r : Registry) : Prop := ∀ collection name doc, r.document? collection name = some doc →
  Admitted doc ∧ ∃ n ≤ r.version, version? doc = some (mark n)

variable {r r' : Registry} {collection name : String}

theorem Sound.put (h : r.Sound) {doc : Json} (hdoc : Admitted doc) : (r.put collection name doc).Sound := by
  intro c n doc' hd
  simp only [Registry.put] at hd
  split at hd
  · obtain rfl := Option.some.inj hd
    exact ⟨hdoc.stamp _, r.version + 1, Nat.le_refl _, version?_stamp _ _⟩
  · obtain ⟨hadmitted, k, hk, hv⟩ := h c n doc' hd
    exact ⟨hadmitted, k, Nat.le_succ_of_le hk, hv⟩

theorem Sound.drop (h : r.Sound) : (r.drop collection name).Sound := by
  intro c n doc' hd
  simp only [Registry.drop] at hd
  split at hd
  · cases hd
  · obtain ⟨hadmitted, k, hk, hv⟩ := h c n doc' hd
    exact ⟨hadmitted, k, Nat.le_succ_of_le hk, hv⟩

theorem Sound.meanwhile (h : r.Sound) (hm : Meanwhile r r') : r'.Sound := by
  induction hm with
  | refl => exact h
  | tail _ hc ih =>
    cases hc with
    | put collection name hdoc => exact ih.put hdoc
    | drop collection name => exact ih.drop

/-- What became of a document since: it is still there, or gone, or stored in a later version. -/
def Kept (r r' : Registry) (collection name : String) : Prop :=
  r.version ≤ r'.version ∧ (r'.document? collection name = r.document? collection name ∨
    r'.document? collection name = none ∨
    ∃ doc n, r'.document? collection name = some doc ∧ r.version < n ∧ version? doc = some (mark n))

theorem kept_meanwhile (hm : Meanwhile r r') (collection name : String) : Kept r r' collection name := by
  induction hm with
  | refl => exact ⟨Nat.le_refl _, .inl rfl⟩
  | tail _ hc ih =>
    obtain ⟨hle, hkept⟩ := ih
    cases hc with
    | put c n hdoc =>
      refine ⟨Nat.le_succ_of_le hle, ?_⟩
      by_cases hplace : collection = c ∧ name = n
      · simp only [Registry.put, if_pos hplace]
        exact .inr (.inr ⟨_, _, rfl, Nat.lt_succ_of_le hle, version?_stamp _ _⟩)
      · simpa only [Registry.put, if_neg hplace] using hkept
    | drop c n =>
      refine ⟨Nat.le_succ_of_le hle, ?_⟩
      by_cases hplace : collection = c ∧ name = n
      · simp only [Registry.drop, if_pos hplace]
        exact .inr (.inl trivial)
      · simpa only [Registry.drop, if_neg hplace] using hkept

/-- A document that changed in between has another version. -/
theorem version?_ne_of_changed (hs : r.Sound) (hm : Meanwhile r r') {old new : Json}
    (hold : r.document? collection name = some old) (hnew : r'.document? collection name = some new) (hne : old ≠ new) :
    version? new ≠ version? old := by
  obtain ⟨_, k, hk, hv⟩ := hs _ _ _ hold
  obtain ⟨_, hsame | hnone | ⟨doc, n, hdoc, hn, hv'⟩⟩ := kept_meanwhile hm collection name
  · rw [hold, hnew] at hsame
    exact absurd (Option.some.inj hsame).symm hne
  · rw [hnew] at hnone
    cases hnone
  · rw [hnew] at hdoc
    obtain rfl := Option.some.inj hdoc
    rw [hv, hv']
    intro he
    have := mark_injective (Option.some.inj he)
    omega

end Registry
end ServiceBalancer.Remote
