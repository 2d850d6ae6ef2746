import ServiceBalancer.Proofs.Remote.Calls
import ServiceBalancer.Proofs.Sync.Stamps

/-! Syncs whose service is deleted from the API server meanwhile. A status write and the removal of a hash take it for
done that the service is gone, but the stamp of a hash does not, and a sync that comes to it ends with the refusal. -/
namespace ServiceBalancer.Remote
open Api (Request Response)
open Program (Among Visit)
open Registry

variable {svc : Service} {status : BalancerStatus} {r r' before after : Registry} {calls : List Call} {hash : Option String}

/-! ### Writes to a service that may be deleted -/

/-- Whether requests for a service and its status can be sent. -/
def Addressable (svc : Service) : Prop :=
  svc.info.displayName ≠ "" ∧ ∀ part ∈ ["", "/status"], Api.isAddress (home svc ++ ("/" ++ svc.info.displayName) ++ part)

instance (svc : Service) : Decidable (Addressable svc) := inferInstanceAs (Decidable (_ ∧ _))

theorem Addressable.fault?_eq_none (ha : Addressable svc) {q : Request} (hc : q.collection = home svc)
    (hn : q.name = some svc.info.displayName) (hp : q.part ∈ ["", "/status"]) : q.fault? = none := by
  have haddress : Api.isAddress q.address = true := by
    rw [Request.address, hc, hn]
    exact ha.2 _ hp
  rw [Request.fault?, hn, if_neg fun he => ha.1 (Option.some.inj he), if_pos haddress]

/-- The service may be deleted, and nothing else happens to it. -/
def Deleted (svc : Service) (r r' : Registry) : Prop := r' = r ∨ r' = r.drop (home svc) svc.info.displayName

theorem Deleted.meanwhile (h : Deleted svc r r') : Meanwhile r r' := by
  rcases h with rfl | rfl
  · exact .refl
  · exact .single (.drop r _ _)

theorem Deleted.stored (h : Deleted svc r r') : r'.stored svc = r.stored svc ∨ r'.stored svc = none := by
  rcases h with rfl | rfl
  · exact .inl rfl
  · exact .inr (by simp [Registry.stored, Registry.drop])

/-- Whether a failure tells that a service was not found. -/
def IsNotFound (e : ApiError) : Prop := ∃ refusal, e = .refused refusal ∧ refusal.code = 404 ∧ refusal.reason = "NotFound"

theorem updateStatus_departed {result : Except StatusWriteError Unit} (hs : r.Sound) (ha : Addressable svc)
    (hstatus : status.Fits) (run : Among (Serves false) (Deleted svc) (updateStatus svc status) r calls result r') :
    (result = .ok () ∨ result = .error .notFound) ∧ r'.Sound := by
  obtain ⟨found, mid, first, second, rfl, hfind, hrest⟩ := Program.among_bind.mp run
  rcases among_find hs (fun _ hd => hs.meanwhile hd.meanwhile) hfind with
    ⟨_, _, fault, hfault, _⟩ | ⟨answer, rfl, hd, hfound⟩
  · rw [ha.fault?_eq_none rfl rfl (by simp [lookup])] at hfault
    cases hfault
  have hmid := hs.meanwhile hd.meanwhile
  cases hfound with
  | barred hbars => cases hbars
  | nothing =>
    obtain ⟨rfl, rfl, rfl⟩ := Program.among_done.mp hrest
    exact ⟨.inr rfl, hmid⟩
  | @read old latest hold hread hl =>
    obtain ⟨written, last, first, second, rfl, hask, hdone⟩ := Program.among_bind.mp hrest
    obtain ⟨rfl, rfl, rfl⟩ := Program.among_done.mp hdone
    rcases among_ask hask with ⟨_, _, fault, hfault, _⟩ | ⟨answer, before, rfl, hd', hserves, rfl⟩
    · rw [ha.fault?_eq_none rfl rfl (by simp)] at hfault
      cases hfault
    · have hbefore := hmid.meanwhile hd'.meanwhile
      have hput := published_of_serves hmid hold hread hl hstatus hd'.meanwhile hserves
      generalize statusOutcome _ = result at hput ⊢
      cases hput with
      | barred hbars => cases hbars
      | gone => exact ⟨.inr rfl, hbefore⟩
      | changed hnew hne =>
        rcases hd'.stored with hsame | hgone
        · rw [hsame, hold] at hnew
          exact absurd (Option.some.inj hnew) hne
        · rw [hgone] at hnew
          cases hnew
      | written _ hnew => exact ⟨.inl rfl, hbefore.put ⟨_, hnew, setBalancerStatus_fits hl hstatus⟩⟩

/-- What patching the hash label comes to. -/
theorem patchHash_departed {result : Except ApiError Service} (hs : r.Sound) (ha : Addressable svc)
    (run : Among (Serves false) (Deleted svc) (patchHash svc hash) r calls result r') :
    ((∃ patched, result = .ok patched) ∨ ∃ e, result = .error e ∧ IsNotFound e ∧ r'.stored svc = none) ∧ r'.Sound := by
  rcases among_ask run with ⟨_, _, fault, hfault, _⟩ | ⟨answer, before, rfl, hd, hserves, rfl⟩
  · rw [ha.fault?_eq_none rfl rfl (by simp)] at hfault
    cases hfault
  have hbefore := hs.meanwhile hd.meanwhile
  cases hserves with
  | missing hnone hrefused hcode hreason =>
    rw [content_refused _ hrefused]
    exact ⟨.inr ⟨_, rfl, ⟨_, rfl, hcode, hreason⟩, hnone⟩, hbefore⟩
  | patched _ _ hdoc =>
    obtain ⟨⟨found, hread, hfits⟩, _⟩ := hbefore _ _ _ hdoc
    obtain ⟨labels, hnew⟩ := ofJson?_relabelled hread hash
    exact ⟨.inl ⟨_, content_ok (ofJson?_stamp hnew _)⟩, hbefore.put ⟨_, hnew, { hfits.info with }, hfits.spec, hfits.status⟩⟩
  | barred hbars => cases hbars
  | shown hverb | outdated hverb | replaced hverb => cases hverb

/-! ### Syncs of a service that may be deleted -/

/-- How a sync may be answered that has read a service from the cache: its writes by the API server, from which the
service may be deleted, and everything else as it asks. -/
inductive Answers (svc : Service) : Registry → (q : Sync.Request) → Sync.Answer q → Registry → Prop
  | writeStatus {r r' : Registry} {s : Service} {status : BalancerStatus} {calls : List Call}
      {result : Except StatusWriteError Unit} :
      Among (Serves false) (Deleted svc) (updateStatus s status) r calls result r' →
      Answers svc r (.writeStatus s status) result r'
  | setHash {r r' : Registry} {s : Service} {hash : String} {calls : List Call} {result : Except Error Unit} :
      Among (Serves false) (Deleted svc) (setHash s hash) r calls result r' → Answers svc r (.setHash s hash) result r'
  | removeHash {r r' : Registry} {s : Service} {calls : List Call} {result : Except Error Unit} :
      Among (Serves false) (Deleted svc) (removeHash s) r calls result r' → Answers svc r (.removeHash s) result r'
  | granted {r : Registry} {q : Sync.Request} {a : Sync.Answer q} : q.isWrite = false →
      Sync.favour svc q a = .granted → Answers svc r q a r

def Standing (settings : SyncSettings) (svc : Service) : Sync.Favour → Registry → Prop
  | .granted, r => r.Sound
  | .unstamped e, r => r.stored svc = none ∧ svc.needsBalancer = true ∧
      svc.info.labelMap.get? WellKnown.serviceHash ≠ some (svc.hash settings.digest) ∧ ∃ e', e = .api e' ∧ IsNotFound e'
  | .denied, _ => False

variable {settings : SyncSettings} {key : ServiceKey}

theorem Standing.deleted {g : Sync.Favour} (h : Standing settings svc g r) (hd : Deleted svc r r') :
    Standing settings svc g r' := by
  cases g with
  | granted => exact Sound.meanwhile h hd.meanwhile
  | unstamped e =>
    refine ⟨?_, h.2⟩
    rcases hd.stored with hsame | hgone
    · rw [hsame, h.1]
    · exact hgone
  | denied => exact h

theorem Standing.answers {g : Sync.Favour} {q : Sync.Request} {a : Sync.Answer q} (ha : Addressable svc)
    (hq : (Sync.favours settings svc).Allows g q) (h : Standing settings svc g r) (hans : Answers svc r q a r') :
    Standing settings svc ((Sync.favours settings svc).note g q a) r' := by
  cases g with
  | denied => exact h.elim
  | unstamped e =>
    cases hans with
    | granted => exact h
    | writeStatus | setHash | removeHash => cases hq
  | granted =>
    cases hans with
    | granted _ hf =>
      have hnote : (Sync.favours settings svc).note .granted q a = .granted := hf
      rw [hnote]
      exact h
    | writeStatus hrun =>
      obtain ⟨rfl, hfits⟩ := hq
      obtain ⟨rfl | rfl, hsound⟩ := updateStatus_departed h ha hfits hrun
      · exact hsound
      · exact hsound
    | setHash hrun =>
      obtain ⟨rfl, hneeds, rfl, hlabel⟩ := hq
      obtain ⟨patched, mid, first, second, rfl, hpatch, hdone⟩ := Program.among_bind.mp hrun
      obtain ⟨⟨_, rfl⟩ | ⟨e, rfl, hnotFound, hgone⟩, hsound⟩ := patchHash_departed h ha hpatch
      · obtain ⟨_, rfl, rfl⟩ := Program.among_done.mp hdone
        exact hsound
      · obtain ⟨_, rfl, rfl⟩ := Program.among_done.mp hdone
        exact ⟨hgone, hneeds, hlabel, e, rfl, hnotFound⟩
    | removeHash hrun =>
      obtain rfl := hq
      obtain ⟨patched, mid, first, second, rfl, hpatch, hdone⟩ := Program.among_bind.mp hrun
      obtain ⟨⟨_, rfl⟩ | ⟨e, rfl, ⟨refusal, rfl, hcode, _⟩, _⟩, hsound⟩ := patchHash_departed h ha hpatch
      · obtain ⟨_, rfl, rfl⟩ := Program.among_done.mp hdone
        exact hsound
      · obtain ⟨_, hresult, rfl⟩ := Program.among_done.mp hdone
        simp only [ApiError.hasCode, hcode, decide_true, if_true] at hresult
        subst hresult
        exact hsound

/-- A sync whose service may be deleted at any moment ends well exactly if no stamp of a hash was refused. Otherwise it
wants a balancer and has another hash, and it ends with that refusal, which is that the service was not found. -/
theorem program_departed {result : Except Error Unit} {visits : List (Visit Sync.Answer Registry)}
    (hu : svc.info.uid ≠ none) (ha : Addressable svc) (hs : r.Sound)
    (run : Among (Answers svc) (Deleted svc) (Sync.program settings key) r visits result r') :
    (result = .ok () ↔ Sync.stampRefusal? visits = none) ∧
      ∀ e, result = .error e → Sync.stampRefusal? visits = some e ∧ svc.needsBalancer = true ∧
        svc.info.labelMap.get? WellKnown.serviceHash ≠ some (svc.hash settings.digest) ∧ r'.stored svc = none ∧
        ∃ e', e = .api e' ∧ IsNotFound e' := by
  have hobeys : Program.Obeys (Sync.favours settings svc) (Sync.Ends fun _ => True) .granted (Sync.program settings key) :=
    Sync.obeys_favours hu key
  have hend := hobeys.among (Standing settings svc)
    (fun _ _ _ h hd => h.deleted hd) (fun _ _ _ _ _ hq h hans => h.answers ha hq hans) hs run
  have hrefusal : Sync.favourAfter settings svc .granted visits ≠ .denied →
      Sync.stampRefusal? visits = (Sync.favourAfter settings svc .granted visits).refusal? := Sync.stampRefusal?_eq
  rw [Sync.favourAfter] at hrefusal
  generalize visits.foldl _ Sync.Favour.granted = g at hend hrefusal
  cases g with
  | granted =>
    obtain ⟨⟨_, rfl, _⟩, _⟩ := hend
    exact ⟨iff_of_true rfl (hrefusal (by simp)), fun _ he => by cases he⟩
  | unstamped e =>
    obtain ⟨hresult, hgone, hneeds, hlabel, hnotFound⟩ := hend
    obtain rfl : result = .error e := hresult
    have hstamp := hrefusal (by simp)
    refine ⟨iff_of_false (by simp) (by rw [hstamp]; simp [Sync.Favour.refusal?]), fun e' he => ?_⟩
    cases he
    exact ⟨hstamp, hneeds, hlabel, hgone, hnotFound⟩
  | denied => exact hend.2.elim

section Example

private def fixedDigest : SyncSettings := { digest := fun _ => "0" }

private def parted : ServiceKey := ⟨"default", "web"⟩

private def wanting : Service where
  info := { name := some "web", ns := some "default", uid := some "u1" }
  spec := some { type := some "LoadBalancer" }

private def retired : Service where
  info := { wanting.info with labels := some ⟨[(WellKnown.serviceHash, "0")], by simp⟩ }

private theorem wanting_fits : wanting.Fits where
  info := by constructor <;> simp [wanting]
  spec := by
    intro s hs
    obtain rfl := Option.some.inj hs
    exact ⟨by simp, by simp, by simp⟩
  status := by simp [wanting]

private theorem retired_fits : retired.Fits where
  info := by constructor <;> simp [retired, wanting]
  spec := by simp [retired]
  status := by simp [retired]

private def single (svc : Service) : Registry :=
  Registry.put ⟨fun _ _ => none, 0⟩ (home svc) svc.info.displayName svc.toJson

private theorem single_sound {svc : Service} (h : svc.Fits) : (single svc).Sound :=
  Sound.put (fun _ _ _ h => by cases h) ⟨svc, Service.ofJson?_toJson h, h⟩

private def absence : Response where
  status := 404
  body := .obj [("status", .str "Failure"), ("reason", .str "NotFound"), ("code", .num 404)]

private theorem patchHash_absent {svc : Service} (ha : Addressable svc) (hash : Option String) :
    ∃ calls, Among (Serves false) (Deleted svc) (patchHash svc hash) (single svc) calls
      (.error (.refused absence.refusal)) ((single svc).drop (home svc) svc.info.displayName) := by
  have hanswer : absence.content Service.ofJson? = .error (.refused absence.refusal) := content_refused _ rfl
  rw [← hanswer]
  exact ⟨_, among_sent _ (ha.fault?_eq_none rfl rfl (by simp)) (.inr rfl)
    (.missing (by simp [Registry.about, Registry.drop]) rfl rfl rfl)⟩

private theorem setHash_absent {svc : Service} (ha : Addressable svc) (hash : String) :
    Answers svc (single svc) (.setHash svc hash) (.error (.api (.refused absence.refusal)))
      ((single svc).drop (home svc) svc.info.displayName) := by
  obtain ⟨calls, h⟩ := patchHash_absent ha (some hash)
  exact .setHash (Program.among_bind.mpr ⟨_, _, _, [], rfl, h, .done _ _⟩)

private theorem removeHash_absent {svc : Service} (ha : Addressable svc) :
    Answers svc (single svc) (.removeHash svc) (.ok ()) ((single svc).drop (home svc) svc.info.displayName) := by
  obtain ⟨calls, h⟩ := patchHash_absent ha none
  exact .removeHash (Program.among_bind.mpr ⟨_, _, _, [], rfl, h, .done _ _⟩)

private theorem among_granted {β : Type} {svc : Service} {r r' : Registry} {result : β}
    {visits : List (Visit Sync.Answer Registry)} (q : Sync.Request) {next : Sync.Answer q → Program Sync.Answer β}
    (a : Sync.Answer q) (hq : q.isWrite = false) (hf : Sync.favour svc q a = .granted)
    (h : Among (Answers svc) (Deleted svc) (next a) r visits result r') :
    Among (Answers svc) (Deleted svc) (.ask q next) r (⟨q, a, r, r⟩ :: visits) result r' :=
  .ask (.inl rfl) (.granted hq hf) h

/-- A service that needs a balancer no longer is deleted before its hash is removed, and the sync ends well. -/
theorem departed_retired : ∃ (r' : Registry) (visits : List (Visit Sync.Answer Registry)),
    retired.info.uid ≠ none ∧ Addressable retired ∧ (single retired).Sound ∧
      Among (Answers retired) (Deleted retired) (Sync.program fixedDigest parted) (single retired) visits (.ok ()) r' ∧
      Sync.stampRefusal? visits = none := by
  have hu : retired.info.uid ≠ none := nofun
  have ha : Addressable retired := by decide +kernel
  have hs : (single retired).Sound := single_sound retired_fits
  have run : ∃ visits r', Among (Answers retired) (Deleted retired) (Sync.program fixedDigest parted) (single retired)
      visits (.ok ()) r' := ⟨_, _,
    among_granted (.recall parted) none rfl rfl <|
    among_granted (.service parted) (.ok (some retired)) rfl (by simp [Sync.favour]) <|
    among_granted (.lookup _) (.ok none) rfl rfl <|
    among_granted (.forget parted) () rfl rfl <|
    .ask (Or.inl rfl) (removeHash_absent ha) <|
    among_granted (.observe "reconcile") () rfl rfl <|
    .done _ _⟩
  obtain ⟨visits, r', run⟩ := run
  exact ⟨r', visits, hu, ha, hs, run, (program_departed hu ha hs run).1.mp rfl⟩

/-- A sync of a service that wants a balancer fails if the service is deleted just before its stamp, although nothing
else is denied. -/
theorem departed_unstamped : wanting.info.uid ≠ none ∧ wanting.needsBalancer = true ∧ Addressable wanting ∧
    (single wanting).Sound ∧ (single wanting).service? wanting = some (inVersion wanting 1) ∧
    IsNotFound (.refused absence.refusal) ∧ ∃ visits r', Among (Answers wanting) (Deleted wanting)
      (Sync.program fixedDigest parted) (single wanting) visits (.error (.api (.refused absence.refusal))) r' := by
  have ha : Addressable wanting := by decide +kernel
  have hread : (single wanting).service? wanting = some (inVersion wanting 1) :=
    ofJson?_stamp (Service.ofJson?_toJson wanting_fits) 1
  exact ⟨nofun, by decide +kernel, ha, single_sound wanting_fits, hread, ⟨_, rfl, rfl, rfl⟩, _, _,
    among_granted (.recall parted) none rfl rfl <|
    among_granted (.service parted) (.ok (some wanting)) rfl (by simp [Sync.favour]) <|
    among_granted .nodes (.ok []) rfl rfl <|
    among_granted (.record _) () rfl rfl <|
    among_granted (.ensure wanting []) (.ok {}) rfl rfl <|
    among_granted (.observe "ensure") () rfl rfl <|
    among_granted (.record _) () rfl rfl <|
    .ask (Or.inl rfl) (setHash_absent ha _) <|
    among_granted (.observe "reconcile") () rfl rfl <|
    among_granted (.countError _) () rfl rfl <|
    .done _ _⟩

end Example

end ServiceBalancer.Remote
