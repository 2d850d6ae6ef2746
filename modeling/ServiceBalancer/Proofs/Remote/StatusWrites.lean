import ServiceBalancer.Proofs.Remote.Calls

/-! A status is published in two requests, and others may write in between. The second request carries the version that
the first one read, so that it is taken only while that is current; then it changes nothing but the status. -/
namespace ServiceBalancer.Remote
open Api (Request Response)
open Leadership (stamp mark version?_of_info)
open Program (Among)
open Registry

/-- What a publication of a status has done to the services, told by its result. -/
structure Careful (svc : Service) (status : BalancerStatus) (calls : List Call)
    (result : Except StatusWriteError Unit) : Prop where
  /-- Only the balancer status of the service, as it was stored just before the write, is replaced. -/
  ok : result = .ok () → ∃ get put, calls = [get, put] ∧ get.after = get.before ∧
    ∃ stored, put.before.service? svc = some stored ∧
      put.after.service? svc = some
        { info := { stored.info with resourceVersion := some (mark put.after.version) }
          spec := stored.spec
          status := some { conditions := stored.status.bind (·.conditions), loadBalancer := some status } } ∧
      ∀ c n, ¬ (c = home svc ∧ n = svc.info.displayName) → put.after.document? c n = put.before.document? c n
  unchanged : result ≠ .ok () → ∀ call ∈ calls, call.after = call.before
  notFound : result = .error .notFound ↔ ∃ call ∈ calls, call.before.stored svc = none
  conflict : result = .error .conflict ↔ ∃ get put old new, calls = [get, put] ∧ get.before.stored svc = some old ∧
    put.before.stored svc = some new ∧ old ≠ new

variable {svc latest : Service} {status : BalancerStatus} {s s' : Registry} {calls : List Call}

private theorem conflict_iff {get put : Call} {old : Json} (hold : get.before.stored svc = some old) :
    (∃ g p o n, [get, put] = [g, p] ∧ g.before.stored svc = some o ∧ p.before.stored svc = some n ∧ o ≠ n) ↔
      ∃ new, put.before.stored svc = some new ∧ old ≠ new := by
  constructor
  · rintro ⟨g, p, o, n, he, ho, hn, hne⟩
    cases he
    rw [hold] at ho
    cases ho
    exact ⟨n, hn, hne⟩
  · rintro ⟨new, hnew, hne⟩
    exact ⟨get, put, old, new, rfl, hold, hnew, hne⟩

theorem inVersion_setBalancerStatus (stored : Service) (status : BalancerStatus) (n : Nat) :
    inVersion (stored.setBalancerStatus status) n =
      { info := { stored.info with resourceVersion := some (mark n) }
        spec := stored.spec
        status := some { conditions := stored.status.bind (·.conditions), loadBalancer := some status } } := by
  rw [inVersion, Service.setBalancerStatus]
  cases stored.status <;> rfl

theorem careful_of_published {get put : Call} {old : Json} {result : Except StatusWriteError Unit}
    (hget : get.after = get.before) (hold : get.before.stored svc = some old)
    (hread : Service.ofJson? old = some latest)
    (hput : Published true svc latest status old put.before put.after result) : Careful svc status [get, put] result := by
  obtain ⟨q, answer, before, after⟩ := put
  dsimp only at hput
  cases hput with
  | gone hnone =>
    refine ⟨nofun, by simp [hget], by simp [hnone], ?_⟩
    rw [conflict_iff hold]
    simp [hnone]
  | changed hnew hne =>
    refine ⟨nofun, by simp [hget], by simp [hold, hnew], ?_⟩
    rw [conflict_iff hold]
    simp [hnew, hne]
  | barred _ hsame =>
    refine ⟨nofun, by simp [hget], by simp [hold, hsame], ?_⟩
    rw [conflict_iff hold]
    simp [hsame]
  | written hsame hnew =>
    refine ⟨fun _ => ⟨_, _, rfl, hget, latest, ?_, ?_, fun c n hne => ?_⟩, by simp, by simp [hold, hsame], ?_⟩
    · rw [Registry.service?, hsame, Option.bind_some, hread]
    · rw [← inVersion_setBalancerStatus]
      simp only [Registry.service?, Registry.stored, Registry.put, and_self, if_true]
      exact ofJson?_stamp hnew _
    · simp only [Registry.put]
      exact if_neg hne
    · rw [conflict_iff hold]
      simp [hsame]

/-- Whatever others write between the two requests: a published status replaces nothing but the status of the service
that is stored then. Otherwise nothing is changed, and the result tells whether the service was missing at a request or
changed between them. -/
theorem updateStatus_careful {result : Except StatusWriteError Unit} (hs : s.Sound) (hstatus : status.Fits)
    (run : Among (Serves true) Meanwhile (updateStatus svc status) s calls result s') :
    Careful svc status calls result := by
  obtain ⟨found, mid, first, second, rfl, hfind, hrest⟩ := Program.among_bind.mp run
  rcases among_find hs (fun _ hm => hs.meanwhile hm) hfind with ⟨rfl, rfl, fault, _, rfl⟩ | ⟨answer, rfl, hm, hfound⟩
  · obtain ⟨rfl, rfl, _⟩ := Program.among_done.mp hrest
    constructor <;> simp
  cases hfound with
  | nothing hnone =>
    obtain ⟨rfl, rfl, _⟩ := Program.among_done.mp hrest
    constructor <;> simp [hnone]
  | barred _ hdoc =>
    obtain ⟨rfl, rfl, _⟩ := Program.among_done.mp hrest
    constructor <;> simp [hdoc]
  | read hold hread hl =>
    obtain ⟨written, after, first, second, rfl, hask, hdone⟩ := Program.among_bind.mp hrest
    obtain ⟨rfl, rfl, rfl⟩ := Program.among_done.mp hdone
    rcases among_ask hask with ⟨rfl, _, fault, _, rfl⟩ | ⟨put, before, rfl, hm', hserves, rfl⟩
    · constructor <;> simp [hold, statusOutcome, ApiError.hasCode]
    · exact careful_of_published rfl hold hread
        (published_of_serves (hs.meanwhile hm) hold hread hl hstatus hm' hserves)

/-- A status can be published if the service is the same at both requests. -/
theorem updateStatus_taken {first before : Registry} {old : Json} (hget : (lookup svc).fault? = none)
    (hput : (publication svc latest status).fault? = none) (hm : Meanwhile s first) (hold : first.stored svc = some old)
    (hm' : Meanwhile first before) (hold' : before.stored svc = some old) (hread : Service.ofJson? old = some latest)
    (hl : latest.Fits) (hstatus : status.Fits) :
    ∃ calls s', Among (Serves true) Meanwhile (updateStatus svc status) s calls (.ok ()) s' := by
  have hsent : (publication svc latest status).body.getD .null = (latest.setBalancerStatus status).toJson := rfl
  have hcurrent : Current (publication svc latest status) old := by
    intro version hv
    rw [← hv, hsent, version?_publication hl hstatus, version?_of_info (Service.ofJson?_eq_some.mp hread).2.1]
  have hshown : Serves true first (lookup svc) ⟨200, old⟩ first := .shown rfl hold
  have hreplaced := @Serves.replaced true before (publication svc latest status) old [] rfl rfl hold' hcurrent (by simp)
  have hfind := among_sent Service.ofJson? hget hm hshown
  have hpublish := among_sent Service.ofJson? hput hm' hreplaced
  rw [content_ok hread] at hfind
  rw [hsent, content_ok (ofJson?_stamp (ofJson?_published hread hl hstatus (by simp)) _)] at hpublish
  exact ⟨_, _, Program.among_bind.mpr ⟨_, _, _, _, rfl, Program.among_bind.mpr ⟨_, _, _, [], rfl, hfind, .done _ _⟩,
    Program.among_bind.mpr ⟨_, _, _, [], rfl, hpublish, .done _ _⟩⟩⟩

section Example

private def since : Timestamp := ⟨1700000000000000000⟩

private def web : Service where
  info := {
    annotations := some ⟨[(WellKnown.loadBalancerId, "lb-1")], by simp⟩
    creationTimestamp := some since
    finalizers := some ["example.com/keep"]
    generation := some 3
    managedFields := some [{
      fieldsV1 := some (.obj [("f:spec", .obj [])]), manager := some "kubectl", operation := some "Update",
      time := some since }]
    name := some "web"
    ns := some "default"
    ownerReferences := some [{ apiVersion := "v1", controller := some true, kind := "Shop", name := "shop", uid := "u0" }]
    uid := some "u1" }
  spec := some { ports := some [{ port := 80 }], type := some "LoadBalancer" }
  status := some {
    conditions := some [{ lastTransitionTime := since, observedGeneration := some 3, status := "True", type := "Ready" }] }

private def api : Service where
  info := { name := some "api", ns := some "default" }

private theorem since_whole : since.IsWhole := by decide +kernel

private theorem web_fits : web.Fits where
  info := by
    constructor
    case managedFields =>
      intro l hl f hf
      obtain rfl := Option.some.inj hl
      obtain rfl := List.mem_singleton.mp hf
      exact ⟨by simp, by simp [since_whole]⟩
    case generation =>
      intro n hn
      obtain rfl := Option.some.inj hn
      decide
    all_goals simp [web, since_whole]
  spec := by
    intro s hs
    obtain rfl := Option.some.inj hs
    refine ⟨by simp, fun l hl p hp => ?_, by simp⟩
    obtain rfl := Option.some.inj hl
    obtain rfl := List.mem_singleton.mp hp
    exact ⟨by decide, by simp, by simp⟩
  status := by
    intro s hs
    obtain rfl := Option.some.inj hs
    refine ⟨fun l hl c hc => ?_, by simp⟩
    obtain rfl := Option.some.inj hl
    obtain rfl := List.mem_singleton.mp hc
    refine ⟨since_whole, fun n hn => ?_⟩
    obtain rfl := Option.some.inj hn
    decide

private theorem api_fits : api.Fits where
  info := by constructor <;> simp [api]
  spec := by simp [api]
  status := by simp [api]

private def shop : Registry := Registry.put ⟨fun _ _ => none, 0⟩ (home web) "web" web.toJson

private theorem shop_sound : shop.Sound :=
  Sound.put (fun _ _ _ h => by cases h) ⟨web, Service.ofJson?_toJson web_fits, web_fits⟩

/-- A status is published although someone else writes another service in between. -/
theorem status_published_beside_others :
    ∃ (s' : Registry) (calls : List Call), shop.Sound ∧ BalancerStatus.Fits {} ∧
      Among (Serves true) Meanwhile (updateStatus web {}) shop calls (.ok ()) s' ∧ Careful web {} calls (.ok ()) := by
  have hfits : BalancerStatus.Fits {} := by simp [BalancerStatus.Fits]
  have hbusy : Meanwhile shop (shop.put (home api) "api" api.toJson) :=
    .single (.put shop _ _ ⟨api, Service.ofJson?_toJson api_fits, api_fits⟩)
  have hstored : shop.stored web = some (stamp 1 web.toJson) := rfl
  obtain ⟨calls, s', hrun⟩ := updateStatus_taken (by decide +kernel) (by decide +kernel) .refl hstored hbusy rfl
    (ofJson?_stamp (Service.ofJson?_toJson web_fits) 1) (inVersion_fits web_fits 1) hfits
  exact ⟨s', calls, shop_sound, hfits, hrun, updateStatus_careful shop_sound hfits hrun⟩

end Example

end ServiceBalancer.Remote
