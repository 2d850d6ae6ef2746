import ServiceBalancer.Proofs.Remote.Registry

/-! Calls of a registry, and what they come to: a service is found or not, and a status is published only on what was
read. -/
namespace ServiceBalancer.Remote
open Api (Request Response)
open Leadership (stamp version? version?_of_info mark)
open Program (Among Visit)
open Registry

/-- What a server stores of a service. -/
def Registry.stored (r : Registry) (svc : Service) : Option Json := r.document? (home svc) svc.info.displayName

/-- The service that a server stores, as it is read. -/
def Registry.service? (r : Registry) (svc : Service) : Option Service := (r.stored svc).bind Service.ofJson?

abbrev Call : Type := Visit (fun _ : Request => Response) Registry

variable {svc latest : Service} {status : BalancerStatus} {s s' : Registry} {calls : List Call} {bars : Bool}
  {others : Registry → Registry → Prop} {α : Type} {read : Json → Option α}

/-! ### Answers -/

theorem content_refused (read : Json → Option α) {answer : Response} (h : answer.isRefused = true) :
    answer.content read = .error (.refused answer.refusal) := by
  rw [Response.content, if_pos h]

theorem content_ok {doc : Json} {a : α} (h : read doc = some a) : (⟨200, doc⟩ : Response).content read = .ok a := by
  have haccepted : (⟨200, doc⟩ : Response).isRefused = false := rfl
  rw [Response.content, if_neg (by simp [haccepted]), h]

/-- What a request comes to that is sent. -/
theorem among_ask {q : Request} {r : Except ApiError α}
    (h : Among (Serves bars) others (Api.ask q read) s calls r s') :
    (calls = [] ∧ s' = s ∧ ∃ fault, q.fault? = some fault ∧ r = .error (.unsendable fault)) ∨
      ∃ answer before, calls = [⟨q, answer, before, s'⟩] ∧ others s before ∧ Serves bars before q answer s' ∧
        r = answer.content read := by
  simp only [Api.ask] at h
  cases hfault : q.fault? with
  | some fault =>
    rw [hfault] at h
    obtain ⟨hcalls, hr, hs⟩ := Program.among_done.mp h
    exact .inl ⟨hcalls, hs.symm, fault, rfl, hr.symm⟩
  | none =>
    rw [hfault] at h
    obtain ⟨answer, before, after, rest, rfl, ho, hs, hrest⟩ := Program.among_ask.mp h
    obtain ⟨rfl, rfl, rfl⟩ := Program.among_done.mp hrest
    exact .inr ⟨answer, before, rfl, ho, hs, rfl⟩

theorem among_sent {q : Request} (read : Json → Option α) {answer : Response} {before after : Registry}
    (hf : q.fault? = none) (hm : others s before) (hs : Serves bars before q answer after) :
    Among (Serves bars) others (Api.ask q read) s [⟨q, answer, before, after⟩] (answer.content read) after := by
  simp only [Api.ask, hf]
  exact .ask hm hs (.done _ _)

/-! ### Reading a service -/

def lookup (svc : Service) : Request where
  verb := .get
  collection := home svc
  name := svc.info.displayName

/-- How reading a service goes: it is not there, or read, or that is refused. -/
inductive Found (bars : Bool) (svc : Service) (r : Registry) : Except ApiError (Option Service) → Prop
  | nothing : r.stored svc = none → Found bars svc r (.ok none)
  | read {doc : Json} {latest : Service} : r.stored svc = some doc → Service.ofJson? doc = some latest →
      latest.Fits → Found bars svc r (.ok (some latest))
  | barred {doc : Json} {e : ApiError} : bars = true → r.stored svc = some doc → Found bars svc r (.error e)

theorem found_of_serves {before after : Registry} {answer : Response} (hs : before.Sound)
    (h : Serves bars before (lookup svc) answer after) :
    after = before ∧ Found bars svc before (Api.orMissing (answer.content Service.ofJson?)) := by
  cases h with
  | missing hnone hrefused _ hreason =>
    refine ⟨rfl, ?_⟩
    simp only [content_refused _ hrefused, Api.orMissing, hreason, if_true]
    exact .nothing hnone
  | shown _ hdoc =>
    obtain ⟨⟨found, hread, hfits⟩, _⟩ := hs _ _ _ hdoc
    refine ⟨rfl, ?_⟩
    rw [content_ok hread]
    exact .read hdoc hread hfits
  | barred hbars hdoc _ hrefused _ _ hreason =>
    refine ⟨rfl, ?_⟩
    simp only [content_refused _ hrefused, Api.orMissing, hreason, if_false]
    exact .barred hbars hdoc
  | outdated hverb | replaced hverb | patched hverb => cases hverb

theorem among_find {r : Except ApiError (Option Service)}
    (hs : s.Sound) (ho : ∀ s', others s s' → s'.Sound)
    (h : Among (Serves bars) others (Api.find (home svc) svc.info.displayName Service.ofJson?) s calls r s') :
    (calls = [] ∧ s' = s ∧ ∃ fault, (lookup svc).fault? = some fault ∧ r = .error (.unsendable fault)) ∨
      ∃ answer, calls = [⟨lookup svc, answer, s', s'⟩] ∧ others s s' ∧ Found bars svc s' r := by
  obtain ⟨a, mid, first, second, rfl, hask, hdone⟩ := Program.among_bind.mp h
  obtain ⟨rfl, rfl, rfl⟩ := Program.among_done.mp hdone
  rcases among_ask hask with ⟨rfl, rfl, fault, hfault, rfl⟩ | ⟨answer, before, rfl, hm, hserves, rfl⟩
  · exact .inl ⟨rfl, rfl, fault, hfault, rfl⟩
  · obtain ⟨rfl, hfound⟩ := found_of_serves (ho _ hm) hserves
    exact .inr ⟨answer, rfl, hm, hfound⟩

/-! ### Publishing a status -/

def publication (svc latest : Service) (status : BalancerStatus) : Request where
  verb := .replace
  collection := home svc
  name := svc.info.displayName
  part := "/status"
  body := (latest.setBalancerStatus status).toJson

theorem version?_publication (hl : latest.Fits) (hstatus : status.Fits) :
    version? (latest.setBalancerStatus status).toJson = latest.info.resourceVersion :=
  (version?_of_info (Service.ofJson?_eq_some.mp (Service.ofJson?_toJson (setBalancerStatus_fits hl hstatus))).2.1).symm

/-- How publishing a status on a document that was read goes, between what is stored before and after. -/
inductive Published (bars : Bool) (svc latest : Service) (status : BalancerStatus) (old : Json) :
    Registry → Registry → Except StatusWriteError Unit → Prop
  | gone {r : Registry} : r.stored svc = none → Published bars svc latest status old r r (.error .notFound)
  | changed {r : Registry} {new : Json} : r.stored svc = some new → old ≠ new →
      Published bars svc latest status old r r (.error .conflict)
  | written {r : Registry} {new : Json} : r.stored svc = some old →
      Service.ofJson? new = some (latest.setBalancerStatus status) →
      Published bars svc latest status old r (r.put (home svc) svc.info.displayName new) (.ok ())
  | barred {r : Registry} {e : Error} : bars = true → r.stored svc = some old →
      Published bars svc latest status old r r (.error (.failed e))

theorem published_of_serves {old : Json} {first before after : Registry} {answer : Response} (hsound : first.Sound)
    (hold : first.stored svc = some old) (hread : Service.ofJson? old = some latest) (hl : latest.Fits)
    (hstatus : status.Fits) (hm : Meanwhile first before)
    (hserves : Serves bars before (publication svc latest status) answer after) :
    Published bars svc latest status old before after (statusOutcome (answer.content Service.ofJson?)) := by
  obtain ⟨_, k, _, hmark⟩ := hsound _ _ _ hold
  have hsent : (publication svc latest status).body.getD .null = (latest.setBalancerStatus status).toJson := rfl
  have hbody : version? ((publication svc latest status).body.getD .null) = version? old := by
    rw [← version?_of_info (Service.ofJson?_eq_some.mp hread).2.1]
    exact version?_publication hl hstatus
  -- What is stored is taken for current only if it is what was read.
  have hsame {doc : Json} (hdoc : before.stored svc = some doc)
      (hcurrent : Current (publication svc latest status) doc) : doc = old := by
    refine Classical.byContradiction fun hne => ?_
    refine version?_ne_of_changed hsound hm hold hdoc (fun he => hne he.symm) ?_
    rw [hmark]
    exact hcurrent _ (hbody.trans hmark)
  cases hserves with
  | missing hnone hrefused hcode =>
    rw [content_refused _ hrefused, statusOutcome, ApiError.hasCode, hcode]
    exact .gone hnone
  | shown hverb | patched hverb => cases hverb
  | outdated _ hdoc hcurrent hrefused hcode =>
    rw [content_refused _ hrefused, statusOutcome, ApiError.hasCode, ApiError.hasCode, hcode]
    refine .changed hdoc fun he => hcurrent fun version hv => ?_
    rw [← he, ← hbody, hv]
  | barred hbars hdoc hcurrent hrefused hcode hcode' =>
    rw [content_refused _ hrefused, statusOutcome, ApiError.hasCode, ApiError.hasCode, decide_eq_false hcode,
      decide_eq_false hcode']
    exact .barred hbars (hsame hdoc (hcurrent rfl) ▸ hdoc)
  | replaced _ _ hdoc hcurrent hnames =>
    obtain rfl := hsame hdoc hcurrent
    have hnew := ofJson?_published hread hl hstatus hnames
    rw [hsent, content_ok (ofJson?_stamp hnew _), statusOutcome]
    exact .written hdoc hnew

end ServiceBalancer.Remote
