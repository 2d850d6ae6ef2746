import ServiceBalancer.Cluster.Remote
import ServiceBalancer.Proofs.Json.Reading
import ServiceBalancer.Proofs.Leadership.Registry

/-! Services as documents of an API server: what is read of one after a patch of its metadata, or after a body was sent
for its status. -/
namespace ServiceBalancer
open Json (mergePatch memberList)
open Leadership (stamp mark)

variable {doc body : Json} {svc : Service} {info : Meta}

/-! ### Patched metadata -/

theorem get?_patched (target : Json) {name : String} {change : Json} {changes : List (String × Json)}
    (hm : (name, change) ∈ changes) (hn : (changes.map (·.1)).Nodup) (hc : change ≠ .null) :
    (mergePatch target (.obj changes)).get? name = some (mergePatch ((target.get? name).getD .null) change) := by
  rw [Json.get?_mergePatch_of_mem hm hn hc, Json.get?_eq target]
  cases target.memberList.lookup name with
  | none => rfl
  | some value => cases value <;> rfl

def Json.infoPatch (changes : List (String × Json)) : Json := .obj [("metadata", .obj changes)]

theorem metadata_patched (doc : Json) (changes : List (String × Json)) :
    ∃ value, (mergePatch doc (Json.infoPatch changes)).metadata = mergePatch value (.obj changes) ∧
      ∀ name, value.get? name = doc.metadata.get? name := by
  refine ⟨(doc.get? "metadata").getD .null, ?_, fun name => ?_⟩
  · rw [Json.metadata, Json.infoPatch, get?_patched doc (.head _) (by simp) (by simp)]
    rfl
  · rw [Json.metadata]
    cases doc.get? "metadata" <;> rfl

/-- A service is read of a document with patched metadata if its metadata is. -/
theorem ofJson?_patched (h : Service.ofJson? doc = some svc) (changes : List (String × Json))
    (hinfo : Resource.infoOf? (mergePatch doc (.infoPatch changes)) = some info) :
    Service.ofJson? (mergePatch doc (.infoPatch changes)) = some { svc with info } := by
  obtain ⟨hadmits, _, hspec, hstatus⟩ := Service.ofJson?_eq_some.mp h
  refine Service.ofJson?_eq_some.mpr ⟨?_, hinfo, ?_, ?_⟩
  · rw [← hadmits]
    refine admits_congr rfl (isObject_of_admits hadmits) (fun name hname => ?_) _ _
    refine Json.lookup_mergeMembers_of_not_mem ?_
    simp only [List.mem_cons, List.not_mem_nil, or_false] at hname
    rcases hname with rfl | rfl <;> simp
  · rw [← hspec, Json.optional?, Json.infoPatch, Json.get?_mergePatch_of_not_mem (by simp)]
    rfl
  · rw [← hstatus, Json.optional?, Json.infoPatch, Json.get?_mergePatch_of_not_mem (by simp)]
    rfl

/-- Members of the metadata that a patch does not name. -/
theorem get?_unpatched {value : Json} {changes : List (String × Json)}
    (hvalue : ∀ name, value.get? name = doc.metadata.get? name) {name : String} (hn : name ∉ changes.map (·.1)) :
    (mergePatch value (.obj changes)).get? name = doc.metadata.get? name := by
  rw [Json.get?_mergePatch_of_not_mem hn, hvalue]

/-- What is read of metadata in which nothing but the version was set or removed. -/
theorem infoOf?_versioned {patched value : Json} (h : Resource.infoOf? doc = some info) (version : Option String)
    (hvalue : patched.metadata = mergePatch value (.obj [("resourceVersion", (version.map Json.str).getD .null)]))
    (hget : ∀ name, value.get? name = doc.metadata.get? name) :
    Resource.infoOf? patched = some { info with resourceVersion := version } := by
  rw [infoOf?_eq] at h ⊢
  rw [hvalue]
  have hmembers := (Meta.ofJson?_eq_some.mp h).2
  refine Meta.ofJson?_eq_some.mpr ⟨rfl, hmembers.versioned ?_ ?_ fun name hn => get?_unpatched hget ?_⟩
  · cases version with
    | none =>
      rw [Json.optional?, Option.map_none, Option.getD_none, Json.get?_mergePatch_of_null (.head _) (by simp)]
    | some s =>
      rw [Json.optional?, Option.map_some, Option.getD_some, get?_patched value (.head _) (by simp) (by simp)]
      rfl
  · rw [← hmembers.labels, Json.optional?, get?_unpatched hget (by simp), Json.optional?]
  · simp only [List.mem_cons, List.not_mem_nil, or_false, not_or] at hn
    simpa using hn.1

/-- A stamped document is the same service in a new version. -/
theorem ofJson?_stamp (h : Service.ofJson? doc = some svc) (n : Nat) :
    Service.ofJson? (stamp n doc) = some { svc with info := { svc.info with resourceVersion := some (mark n) } } := by
  obtain ⟨value, hvalue, hget⟩ := metadata_patched doc [("resourceVersion", .str (mark n))]
  refine ofJson?_patched h _ ?_
  exact infoOf?_versioned (Service.ofJson?_eq_some.mp h).2.1 (some (mark n)) hvalue hget

/-! ### Patched labels -/

/-- A map of strings can be read of an object all of whose members are strings. -/
theorem stringMap?_obj {members : List (String × Json)} :
    (∃ m, Json.stringMap? (.obj members) = some m) ↔ ∀ e ∈ members, ∃ s, e.2 = .str s := by
  have hread : (∃ l, members.mapM (fun e => e.2.str?.map (fun s => (e.1, s))) = some l) ↔
      ∀ e ∈ members, ∃ s, e.2 = .str s := by
    induction members with
    | nil => simp
    | cons e rest ih =>
      rw [List.forall_mem_cons, ← ih]
      obtain ⟨key, value⟩ := e
      cases value with
      | str s =>
        simp only [List.mapM_cons, Json.str?, Option.map_some, Option.bind_eq_bind, Option.bind_some,
          Option.bind_eq_some_iff]
        constructor
        · rintro ⟨_, l, hl, _⟩
          exact ⟨⟨s, rfl⟩, l, hl⟩
        · rintro ⟨_, l, hl⟩
          exact ⟨_, l, hl, rfl⟩
      | null | bool | num | arr | obj => simp [List.mapM_cons, Json.str?]
  rw [← hread]
  simp only [Json.stringMap?, Json.members?, Option.bind_eq_bind, Option.bind_some, Option.bind_eq_some_iff]
  constructor
  · rintro ⟨_, l, hl, _⟩
    exact ⟨l, hl⟩
  · rintro ⟨l, hl⟩
    exact ⟨_, l, hl, rfl⟩

private theorem mem_setMember {key : String} {value : Json} {members : List (String × Json)} {e : String × Json}
    (h : e ∈ Json.setMember key value members) : e = (key, value) ∨ e ∈ members := by
  induction members with
  | nil => exact .inl (List.mem_singleton.mp h)
  | cons m rest ih =>
    rw [Json.setMember] at h
    split at h
    · exact (List.mem_cons.mp h).imp id (.tail _)
    · rcases List.mem_cons.mp h with rfl | h
      · exact .inr (.head _)
      · exact (ih h).imp id (.tail _)

/-- Labels can be read after one of them was set or removed. -/
theorem stringMap?_patched {j : Json} (h : j = .null ∨ ∃ m, Json.stringMap? j = some m) (key : String)
    (value : Option String) :
    ∃ m, Json.stringMap? (mergePatch j (.obj [(key, (value.map Json.str).getD .null)])) = some m := by
  have hmembers : ∀ e ∈ j.memberList, ∃ s, e.2 = .str s := by
    rcases h with rfl | h
    · simp [memberList, Json.members?]
    · cases j with
      | obj members => exact stringMap?_obj.mp h
      | null | bool | num | str | arr => simp [memberList, Json.members?]
  rw [mergePatch, stringMap?_obj]
  intro e he
  cases value with
  | none =>
    simp only [Option.map_none, Option.getD_none, Json.mergeMembers, mergePatch] at he
    exact hmembers e (List.mem_filter.mp he).1
  | some s =>
    simp only [Option.map_some, Option.getD_some, Json.mergeMembers, mergePatch] at he
    rcases mem_setMember he with rfl | he
    · exact ⟨s, rfl⟩
    · exact hmembers e he

/-- A document whose hash label was set or removed is the same service with other labels. -/
theorem ofJson?_relabelled (h : Service.ofJson? doc = some svc) (hash : Option String) :
    ∃ labels, Service.ofJson? (mergePatch doc (Remote.hashPatch hash)) =
      some { svc with info := { svc.info with labels := some labels } } := by
  have hinfo := (Service.ofJson?_eq_some.mp h).2.1
  rw [infoOf?_eq] at hinfo
  have hmembers := (Meta.ofJson?_eq_some.mp hinfo).2
  let label : List (String × Json) := [(WellKnown.serviceHash, (hash.map Json.str).getD .null)]
  obtain ⟨value, hvalue, hget⟩ := metadata_patched doc [("labels", .obj label)]
  have hold : (value.get? "labels").getD .null = .null ∨
      ∃ m, Json.stringMap? ((value.get? "labels").getD .null) = some m := by
    rw [hget]
    rcases Json.optional?_cases hmembers.labels with ⟨hnone, -⟩ | ⟨j, m, hj, hm, -⟩
    · exact .inl (by rw [hnone]; rfl)
    · exact .inr ⟨m, by rw [hj]; exact hm⟩
  obtain ⟨labels, hlabels⟩ := stringMap?_patched hold WellKnown.serviceHash hash
  refine ⟨labels, ofJson?_patched h _ ?_⟩
  rw [infoOf?_eq, hvalue]
  refine Meta.ofJson?_eq_some.mpr ⟨rfl, hmembers.versioned ?_ ?_ fun name hn => get?_unpatched hget ?_⟩
  · rw [← hmembers.resourceVersion, Json.optional?, get?_unpatched hget (by simp), Json.optional?]
  · rw [Json.optional?, get?_patched value (.head _) (by simp) (by simp), Option.map_eq_some_iff]
    exact ⟨labels, hlabels, rfl⟩
  · simp only [List.mem_cons, List.not_mem_nil, or_false, not_or] at hn
    simpa using hn.2

/-! ### Members taken over -/

def Json.takeOver (names : List String) (body doc : Json) : Json :=
  .obj (doc.memberList.filter (·.1 ∉ names) ++ body.memberList.filter (·.1 ∈ names))

private theorem lookup_filter (members : List (String × Json)) (p : String → Bool) (name : String) :
    (members.filter (fun m => p m.1)).lookup name = if p name then members.lookup name else none := by
  induction members with
  | nil => simp
  | cons m rest ih =>
    by_cases hp : p m.1
    · rw [List.filter_cons_of_pos (by simpa using hp), List.lookup_cons, List.lookup_cons, ih]
      by_cases hm : name = m.1
      · subst hm
        simp [hp]
      · rw [beq_false_of_ne hm]
    · rw [List.filter_cons_of_neg (by simpa using hp), ih, List.lookup_cons]
      by_cases hm : name = m.1
      · subst hm
        simp [hp]
      · rw [beq_false_of_ne hm]

theorem lookup_takeOver (names : List String) (body doc : Json) (name : String) :
    (Json.takeOver names body doc).memberList.lookup name =
      (if name ∈ names then body else doc).memberList.lookup name := by
  have hdoc := lookup_filter doc.memberList (fun n => decide (n ∉ names)) name
  have hbody := lookup_filter body.memberList (fun n => decide (n ∈ names)) name
  simp only [Json.takeOver, memberList, Json.members?, Option.getD_some] at hdoc hbody ⊢
  rw [List.lookup_append, hdoc, hbody]
  by_cases h : name ∈ names <;> simp [h]

theorem get?_takeOver (names : List String) (body doc : Json) (name : String) :
    (Json.takeOver names body doc).get? name = (if name ∈ names then body else doc).get? name := by
  rw [Json.get?_eq, lookup_takeOver, ← Json.get?_eq]

/-- What is read of a document whose status is taken over, and perhaps more of what was sent with it. -/
theorem ofJson?_takeOver {new : Service} (h : Service.ofJson? doc = some svc) (hbody : Service.ofJson? body = some new)
    {names : List String} (hnames : ∀ name ∈ names, name ∈ ["metadata", "spec"]) :
    Service.ofJson? (.takeOver ("status" :: names) body doc) = some
      { info := if "metadata" ∈ names then new.info else svc.info
        spec := if "spec" ∈ names then new.spec else svc.spec
        status := new.status } := by
  obtain ⟨hadmits, hinfo, hspec, _⟩ := Service.ofJson?_eq_some.mp h
  obtain ⟨_, hinfo', hspec', hstatus'⟩ := Service.ofJson?_eq_some.mp hbody
  have hmem (name : String) : name ∈ "status" :: names ↔ name = "status" ∨ name ∈ names := List.mem_cons
  refine Service.ofJson?_eq_some.mpr ⟨?_, ?_, ?_, ?_⟩
  · rw [← hadmits]
    refine admits_congr rfl (isObject_of_admits hadmits) (fun name hname => ?_) _ _
    have hnot : name ∉ "status" :: names := by
      intro hm
      rcases List.mem_cons.mp hm with rfl | hm
      · simp at hname
      · have := hnames _ hm
        simp only [List.mem_cons, List.not_mem_nil, or_false] at this hname
        rcases hname with rfl | rfl <;> simp at this
    rw [lookup_takeOver, if_neg hnot]
  · have hsame : (Json.takeOver ("status" :: names) body doc).metadata =
        (if "metadata" ∈ names then body else doc).metadata := by
      simp only [Json.metadata, get?_takeOver, hmem, String.reduceEq, false_or]
    rw [infoOf?_eq, hsame]
    by_cases hm : "metadata" ∈ names
    · rw [if_pos hm, if_pos hm, ← infoOf?_eq, hinfo']
    · rw [if_neg hm, if_neg hm, ← infoOf?_eq, hinfo]
  · rw [Json.optional?, get?_takeOver]
    simp only [hmem, String.reduceEq, false_or]
    by_cases hm : "spec" ∈ names
    · rw [if_pos hm, if_pos hm, ← hspec', Json.optional?]
    · rw [if_neg hm, if_neg hm, ← hspec, Json.optional?]
  · rw [Json.optional?, get?_takeOver, if_pos (.head _), ← hstatus', Json.optional?]

end ServiceBalancer
