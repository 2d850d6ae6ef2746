import ServiceBalancer.Object.ServiceJson
import ServiceBalancer.Proofs.Data.SortedMap
import ServiceBalancer.Proofs.Json.MergePatch
import ServiceBalancer.Proofs.Timestamp

/-! A service is read back from its JSON form as it was. Its numbers must have 32 or 64 bits, each as its kind has,
and its moments must be such as their texts tell. -/
namespace ServiceBalancer

/-! ### Members -/

namespace Json

def IsInt32 (n : Int) : Prop := -2147483648 ≤ n ∧ n ≤ 2147483647

def IsInt64 (n : Int) : Prop := -9223372036854775808 ≤ n ∧ n ≤ 9223372036854775807

instance (n : Int) : Decidable (IsInt32 n) := inferInstanceAs (Decidable (_ ∧ _))
instance (n : Int) : Decidable (IsInt64 n) := inferInstanceAs (Decidable (_ ∧ _))

variable {α : Type} {j : Json} {ms : List (String × Option Json)} {name : String} {v : Option Json}
  {read : Json → Option α} {w : α → Json} {x : Option α} {a : α}

private theorem lookup_present (hn : (ms.map (·.1)).Nodup) (hm : (name, v) ∈ ms) :
    (ms.filterMap (fun m => m.2.map (fun j => (m.1, j)))).lookup name = v := by
  induction ms with
  | nil => cases hm
  | cons m rest ih =>
    obtain ⟨hnew, hrest⟩ := List.nodup_cons.mp hn
    obtain ⟨key, w⟩ := m
    rcases List.mem_cons.mp hm with he | hrestm
    · cases he
      cases v with
      | some j => simp
      | none =>
        rw [List.filterMap_cons, Option.map_none, List.lookup_eq_none_iff]
        intro m hm
        obtain ⟨m', hm', he⟩ := List.mem_filterMap.mp hm
        obtain ⟨j, _, rfl⟩ := Option.map_eq_some_iff.mp he
        exact bne_iff_ne.mpr fun he => hnew (List.mem_map.mpr ⟨m', hm', he.symm⟩)
    · have hne : name ≠ key := by
        rintro rfl
        exact hnew (List.mem_map.mpr ⟨_, hrestm, rfl⟩)
      cases w with
      | some j => rw [List.filterMap_cons, Option.map_some, List.lookup_cons, beq_false_of_ne hne, ih hrest hrestm]
      | none => rw [List.filterMap_cons, Option.map_none, ih hrest hrestm]

/-- Whether a value is the object of some members, each of another name. -/
def Holds (j : Json) (ms : List (String × Option Json)) : Prop := j = ofMembers ms ∧ (ms.map (·.1)).Nodup

section Members
variable (hj : j.Holds ms)
include hj

theorem Holds.get? (hm : (name, v) ∈ ms) (hv : v ≠ some .null) : j.get? name = v := by
  rw [hj.1, ofMembers]
  simp only [Json.get?, lookup_present hj.2 hm]

/-- An optional member is read back if its values are. -/
theorem Holds.optional? (hm : (name, x.map w) ∈ ms) (hnull : read .null = none)
    (hr : ∀ a, x = some a → read (w a) = some a) : j.optional? name read = some x := by
  have hv : x.map w ≠ some .null := by
    intro he
    obtain ⟨a, rfl, ha⟩ := Option.map_eq_some_iff.mp he
    have := hr a rfl
    rw [ha, hnull] at this
    cases this
  rw [Json.optional?, hj.get? hm hv]
  cases x with
  | none => rfl
  | some a => exact congrArg (Option.map some) (hr a rfl)

/-- A member that has a fallback is read back if it is present. -/
theorem Holds.orElse? {value : Json} (fallback : α) (hm : (name, some value) ∈ ms) (hnull : read .null = none)
    (hr : read value = some a) : j.orElse? name read fallback = some a := by
  have hv : some value ≠ some Json.null := by
    rintro ⟨⟩
    rw [hnull] at hr
    cases hr
  rw [Json.orElse?, Json.optional?, hj.get? hm hv]
  simp only [hr, Option.map_some, Option.getD_some]

end Members

private theorem mapM_map_eq_some {β γ : Type} {f : β → Option γ} {g : γ → β} {l : List γ}
    (h : ∀ c ∈ l, f (g c) = some c) : (l.map g).mapM f = some l := by
  induction l with
  | nil => rfl
  | cons c rest ih =>
    rw [List.map_cons, List.mapM_cons, h c (.head _), ih fun d hd => h d (.tail _ hd)]
    rfl

theorem list?_map {l : List α} (hr : ∀ a ∈ l, read (w a) = some a) : list? read (.arr (l.map w)) = some l :=
  mapM_map_eq_some hr

theorem strings?_ofStrings (l : List String) : strings? (ofStrings l) = some l := list?_map fun _ _ => rfl

theorem stringMap?_ofStringMap (m : StringMap) : stringMap? (ofStringMap m) = some m := by
  have hread : (m.entries.map (fun e => (e.1, Json.str e.2))).mapM
      (fun e => e.2.str?.map (fun s => (e.1, s))) = some m.entries := mapM_map_eq_some fun _ _ => rfl
  simp only [stringMap?, ofStringMap, members?, Option.bind_eq_bind, Option.bind_some, hread]
  exact congrArg some m.ofList_entries

theorem int32?_num {n : Int} (h : IsInt32 n) : int32? (.num n) = some n := if_pos h

theorem int64?_num {n : Int} (h : IsInt64 n) : int64? (.num n) = some n := if_pos h

theorem timestamp?_text {t : Timestamp} (h : t.IsWhole) : timestamp? (.str t.text) = some t := by
  rw [timestamp?, str?, Option.bind_some, Timestamp.ofText?_text h]

section Kinds
variable (hj : j.Holds ms)
include hj

theorem Holds.str? {x : Option String} (hm : (name, x.map .str) ∈ ms) : j.optional? name Json.str? = some x :=
  hj.optional? hm rfl fun _ _ => rfl

theorem Holds.text? {s : String} (hm : (name, some (.str s)) ∈ ms) : j.orElse? name Json.str? "" = some s :=
  hj.orElse? "" hm rfl rfl

theorem Holds.bool? {x : Option Bool} (hm : (name, x.map .bool) ∈ ms) : j.optional? name Json.bool? = some x :=
  hj.optional? hm rfl fun _ _ => rfl

theorem Holds.int32? {x : Option Int} (hx : ∀ n, x = some n → IsInt32 n) (hm : (name, x.map .num) ∈ ms) :
    j.optional? name Json.int32? = some x :=
  hj.optional? hm rfl fun n hn => int32?_num (hx n hn)

theorem Holds.int64? {x : Option Int} (hx : ∀ n, x = some n → IsInt64 n) (hm : (name, x.map .num) ∈ ms) :
    j.optional? name Json.int64? = some x :=
  hj.optional? hm rfl fun n hn => int64?_num (hx n hn)

theorem Holds.value? {x : Option Json} (hx : x ≠ some .null) (hm : (name, x) ∈ ms) :
    j.optional? name Json.value? = some x := by
  rw [Json.optional?, hj.get? hm hx]
  cases x with
  | none => rfl
  | some value =>
    cases value with
    | null => exact absurd rfl hx
    | _ => rfl

theorem Holds.number? {n : Int} (hn : IsInt32 n) (hm : (name, some (.num n)) ∈ ms) :
    j.orElse? name Json.int32? 0 = some n :=
  hj.orElse? 0 hm rfl (int32?_num hn)

theorem Holds.strings? {x : Option (List String)} (hm : (name, x.map .ofStrings) ∈ ms) :
    j.optional? name Json.strings? = some x :=
  hj.optional? hm rfl fun l _ => strings?_ofStrings l

theorem Holds.stringMap? {x : Option StringMap} (hm : (name, x.map .ofStringMap) ∈ ms) :
    j.optional? name Json.stringMap? = some x :=
  hj.optional? hm rfl fun m _ => stringMap?_ofStringMap m

theorem Holds.timestamp? {x : Option Timestamp} (hx : ∀ t, x = some t → t.IsWhole)
    (hm : (name, x.map (fun t => .str t.text)) ∈ ms) : j.optional? name Json.timestamp? = some x :=
  have hnull : Json.timestamp? .null = none := rfl
  hj.optional? hm hnull fun t ht => timestamp?_text (hx t ht)

theorem Holds.moment? {t : Timestamp} (fallback : Timestamp) (ht : t.IsWhole)
    (hm : (name, some (.str t.text)) ∈ ms) : j.orElse? name Json.timestamp? fallback = some t :=
  have hnull : Json.timestamp? .null = none := rfl
  hj.orElse? fallback hm hnull (timestamp?_text ht)

theorem Holds.list? {x : Option (List α)} (hx : ∀ l, x = some l → ∀ a ∈ l, read (w a) = some a)
    (hm : (name, x.map (fun l => .arr (l.map w))) ∈ ms) : j.optional? name (Json.list? read) = some x :=
  hj.optional? hm rfl fun l hl => list?_map (hx l hl)

end Kinds

end Json

/-! ### Services -/

section Services
open Json

def TargetPort.Fits : TargetPort → Prop
  | number n => IsInt32 n
  | name _ => True

structure ServicePort.Fits (p : ServicePort) : Prop where
  port : IsInt32 p.port
  nodePort : ∀ n, p.nodePort = some n → IsInt32 n
  targetPort : ∀ t, p.targetPort = some t → t.Fits

def SessionAffinityConfig.Fits (c : SessionAffinityConfig) : Prop :=
  ∀ a, c.clientIP = some a → ∀ n, a.timeoutSeconds = some n → IsInt32 n

structure ServiceSpec.Fits (s : ServiceSpec) : Prop where
  healthCheckNodePort : ∀ n, s.healthCheckNodePort = some n → IsInt32 n
  ports : ∀ l, s.ports = some l → ∀ p ∈ l, p.Fits
  sessionAffinityConfig : ∀ c, s.sessionAffinityConfig = some c → c.Fits

def PortStatus.Fits (p : PortStatus) : Prop := IsInt32 p.port

def Ingress.Fits (i : Ingress) : Prop := ∀ l, i.ports = some l → ∀ p ∈ l, p.Fits

def BalancerStatus.Fits (s : BalancerStatus) : Prop := ∀ l, s.ingress = some l → ∀ i ∈ l, i.Fits

instance PortStatus.decidableFits (p : PortStatus) : Decidable p.Fits := inferInstanceAs (Decidable (IsInt32 _))
instance Ingress.decidableFits (i : Ingress) : Decidable i.Fits := inferInstanceAs (Decidable (∀ l ∈ i.ports, ∀ p ∈ l, p.Fits))
instance BalancerStatus.decidableFits (s : BalancerStatus) : Decidable s.Fits := inferInstanceAs (Decidable (∀ l ∈ s.ingress, ∀ i ∈ l, i.Fits))

structure ServiceCondition.Fits (c : ServiceCondition) : Prop where
  lastTransitionTime : c.lastTransitionTime.IsWhole
  observedGeneration : ∀ n, c.observedGeneration = some n → IsInt64 n

structure ServiceStatus.Fits (s : ServiceStatus) : Prop where
  conditions : ∀ l, s.conditions = some l → ∀ c ∈ l, c.Fits
  loadBalancer : ∀ b, s.loadBalancer = some b → b.Fits

structure ManagedFields.Fits (f : ManagedFields) : Prop where
  fieldsV1 : f.fieldsV1 ≠ some .null
  time : ∀ t, f.time = some t → t.IsWhole

structure Meta.Fits (m : Meta) : Prop where
  creationTimestamp : ∀ t, m.creationTimestamp = some t → t.IsWhole
  deletionGracePeriodSeconds : ∀ n, m.deletionGracePeriodSeconds = some n → IsInt64 n
  deletionTimestamp : ∀ t, m.deletionTimestamp = some t → t.IsWhole
  generation : ∀ n, m.generation = some n → IsInt64 n
  managedFields : ∀ l, m.managedFields = some l → ∀ f ∈ l, f.Fits

/-- Whether all numbers of a service have the bits of their kind, and all its moments are such as their texts tell. -/
structure Service.Fits (svc : Service) : Prop where
  info : svc.info.Fits
  spec : ∀ s, svc.spec = some s → s.Fits
  status : ∀ s, svc.status = some s → s.Fits

private theorem bind_read {β γ : Type} {x : Option β} {f : β → Option γ} {b : β} {r : Option γ}
    (h : x = some b) (hf : f b = r) : (x >>= f) = r := by
  rw [h]
  exact hf

theorem TargetPort.ofJson?_toJson {t : TargetPort} (h : t.Fits) : ofJson? t.toJson = some t := by
  cases t with
  | number n => exact congrArg (Option.map number) (int32?_num h)
  | name s => rfl

theorem ServicePort.ofJson?_toJson {p : ServicePort} (h : p.Fits) : ofJson? p.toJson = some p := by
  have hj : p.toJson.Holds _ := ⟨rfl, by simp⟩
  exact bind_read (b := ()) rfl <|
    bind_read (hj.str? (by simp)) <|
    bind_read (hj.str? (by simp)) <|
    bind_read (hj.int32? h.nodePort (by simp)) <|
    bind_read (hj.number? h.port (by simp)) <|
    bind_read (hj.str? (by simp)) <|
    bind_read (hj.optional? (by simp) rfl fun t ht => TargetPort.ofJson?_toJson (h.targetPort t ht)) rfl

theorem SessionAffinityConfig.ofJson?_toJson {c : SessionAffinityConfig} (h : c.Fits) :
    ofJson? c.toJson = some c := by
  have hj : c.toJson.Holds _ := ⟨rfl, by simp⟩
  refine bind_read (b := ()) rfl <|
    bind_read (hj.optional? (w := fun a => .ofMembers [("timeoutSeconds", a.timeoutSeconds.map .num)])
      (by simp) rfl fun a ha => ?_) rfl
  have hj : (Json.ofMembers [("timeoutSeconds", a.timeoutSeconds.map .num)]).Holds _ := ⟨rfl, by simp⟩
  exact bind_read (b := ()) rfl <|
    bind_read (hj.int32? (h a ha) (by simp)) rfl

theorem ServiceSpec.ofJson?_toJson {s : ServiceSpec} (h : s.Fits) : ofJson? s.toJson = some s := by
  have hj : s.toJson.Holds _ := ⟨rfl, by simp⟩
  exact bind_read (b := ()) rfl <|
    bind_read (hj.bool? (by simp)) <|
    bind_read (hj.str? (by simp)) <|
    bind_read (hj.strings? (by simp)) <|
    bind_read (hj.strings? (by simp)) <|
    bind_read (hj.str? (by simp)) <|
    bind_read (hj.str? (by simp)) <|
    bind_read (hj.int32? h.healthCheckNodePort (by simp)) <|
    bind_read (hj.str? (by simp)) <|
    bind_read (hj.strings? (by simp)) <|
    bind_read (hj.str? (by simp)) <|
    bind_read (hj.str? (by simp)) <|
    bind_read (hj.str? (by simp)) <|
    bind_read (hj.strings? (by simp)) <|
    bind_read (hj.list? (fun l hl p hp => ServicePort.ofJson?_toJson (h.ports l hl p hp)) (by simp)) <|
    bind_read (hj.bool? (by simp)) <|
    bind_read (hj.stringMap? (by simp)) <|
    bind_read (hj.str? (by simp)) <|
    bind_read (hj.optional? (by simp) rfl
      fun c hc => SessionAffinityConfig.ofJson?_toJson (h.sessionAffinityConfig c hc)) <|
    bind_read (hj.str? (by simp)) <|
    bind_read (hj.str? (by simp)) rfl

theorem PortStatus.ofJson?_toJson {p : PortStatus} (h : p.Fits) : ofJson? p.toJson = some p := by
  have hj : p.toJson.Holds _ := ⟨rfl, by simp⟩
  exact bind_read (b := ()) rfl <|
    bind_read (hj.str? (by simp)) <|
    bind_read (hj.number? h (by simp)) <|
    bind_read (hj.text? (by simp)) rfl

theorem Ingress.ofJson?_toJson {i : Ingress} (h : i.Fits) : ofJson? i.toJson = some i := by
  have hj : i.toJson.Holds _ := ⟨rfl, by simp⟩
  exact bind_read (b := ()) rfl <|
    bind_read (hj.str? (by simp)) <|
    bind_read (hj.str? (by simp)) <|
    bind_read (hj.str? (by simp)) <|
    bind_read (hj.list? (fun l hl p hp => PortStatus.ofJson?_toJson (h l hl p hp)) (by simp)) rfl

theorem BalancerStatus.ofJson?_toJson {s : BalancerStatus} (h : s.Fits) : ofJson? s.toJson = some s := by
  have hj : s.toJson.Holds _ := ⟨rfl, by simp⟩
  exact bind_read (b := ()) rfl <|
    bind_read (hj.list? (fun l hl i hi => Ingress.ofJson?_toJson (h l hl i hi)) (by simp)) rfl

theorem ServiceCondition.ofJson?_toJson {c : ServiceCondition} (h : c.Fits) : ofJson? c.toJson = some c := by
  have hj : c.toJson.Holds _ := ⟨rfl, by simp⟩
  exact bind_read (b := ()) rfl <|
    bind_read (hj.moment? ⟨0⟩ h.lastTransitionTime (by simp)) <|
    bind_read (hj.text? (by simp)) <|
    bind_read (hj.int64? h.observedGeneration (by simp)) <|
    bind_read (hj.text? (by simp)) <|
    bind_read (hj.text? (by simp)) <|
    bind_read (hj.text? (by simp)) rfl

theorem ServiceStatus.ofJson?_toJson {s : ServiceStatus} (h : s.Fits) : ofJson? s.toJson = some s := by
  have hj : s.toJson.Holds _ := ⟨rfl, by simp⟩
  exact bind_read (b := ()) rfl <|
    bind_read (hj.list? (fun l hl c hc => ServiceCondition.ofJson?_toJson (h.conditions l hl c hc)) (by simp)) <|
    bind_read (hj.optional? (by simp) rfl
      fun b hb => BalancerStatus.ofJson?_toJson (h.loadBalancer b hb)) rfl

theorem OwnerReference.ofJson?_toJson (r : OwnerReference) : ofJson? r.toJson = some r := by
  have hj : r.toJson.Holds _ := ⟨rfl, by simp⟩
  exact bind_read (b := ()) rfl <|
    bind_read (hj.text? (by simp)) <|
    bind_read (hj.bool? (by simp)) <|
    bind_read (hj.bool? (by simp)) <|
    bind_read (hj.text? (by simp)) <|
    bind_read (hj.text? (by simp)) <|
    bind_read (hj.text? (by simp)) rfl

theorem ManagedFields.ofJson?_toJson {f : ManagedFields} (h : f.Fits) : ofJson? f.toJson = some f := by
  have hj : f.toJson.Holds _ := ⟨rfl, by simp⟩
  exact bind_read (b := ()) rfl <|
    bind_read (hj.str? (by simp)) <|
    bind_read (hj.str? (by simp)) <|
    bind_read (hj.value? h.fieldsV1 (by simp)) <|
    bind_read (hj.str? (by simp)) <|
    bind_read (hj.str? (by simp)) <|
    bind_read (hj.str? (by simp)) <|
    bind_read (hj.timestamp? h.time (by simp)) rfl

theorem Meta.ofJson?_toJson {m : Meta} (h : m.Fits) : ofJson? m.toJson = some m := by
  have hj : m.toJson.Holds _ := ⟨rfl, by simp⟩
  exact bind_read (b := ()) rfl <|
    bind_read (hj.stringMap? (by simp)) <|
    bind_read (hj.timestamp? h.creationTimestamp (by simp)) <|
    bind_read (hj.int64? h.deletionGracePeriodSeconds (by simp)) <|
    bind_read (hj.timestamp? h.deletionTimestamp (by simp)) <|
    bind_read (hj.strings? (by simp)) <|
    bind_read (hj.str? (by simp)) <|
    bind_read (hj.int64? h.generation (by simp)) <|
    bind_read (hj.stringMap? (by simp)) <|
    bind_read (hj.list? (fun l hl f hf => ManagedFields.ofJson?_toJson (h.managedFields l hl f hf)) (by simp)) <|
    bind_read (hj.str? (by simp)) <|
    bind_read (hj.str? (by simp)) <|
    bind_read (hj.list? (fun _ _ r _ => r.ofJson?_toJson) (by simp)) <|
    bind_read (hj.str? (by simp)) <|
    bind_read (hj.str? (by simp)) <|
    bind_read (hj.str? (by simp)) rfl

/-- A service is read back from its JSON form as it was. -/
theorem Service.ofJson?_toJson {svc : Service} (h : svc.Fits) : ofJson? svc.toJson = some svc := by
  have hj : svc.toJson.Holds _ := ⟨rfl, by simp⟩
  have hinfo : svc.toJson.orElse? "metadata" Meta.ofJson? {} = some svc.info :=
    hj.orElse? {} (by simp) rfl (Meta.ofJson?_toJson h.info)
  exact bind_read (b := ()) rfl <|
    bind_read hinfo <|
    bind_read (hj.optional? (by simp) rfl fun s hs => ServiceSpec.ofJson?_toJson (h.spec s hs)) <|
    bind_read (hj.optional? (by simp) rfl fun s hs => ServiceStatus.ofJson?_toJson (h.status s hs)) rfl

end Services
end ServiceBalancer
