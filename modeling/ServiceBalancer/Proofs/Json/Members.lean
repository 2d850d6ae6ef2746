import ServiceBalancer.Object.ServiceJson

/-! The JSON form of what a service asks for determines it: each member of an object is told by its name,
and an absent one is told from all that are present. -/
namespace ServiceBalancer
namespace Json

private theorem not_mem_present {name : String} {j : Json} {ms : List (String × Option Json)}
    (hn : name ∉ ms.map (·.1)) : (name, j) ∉ ms.filterMap (fun m => m.2.map (fun j => (m.1, j))) := by
  intro hm
  obtain ⟨m, hm, he⟩ := List.mem_filterMap.mp hm
  obtain ⟨_, _, he⟩ := Option.map_eq_some_iff.mp he
  exact hn (List.mem_map.mpr ⟨m, hm, congrArg Prod.fst he⟩)

private theorem present_injective {ms ns : List (String × Option Json)} (hn : (ms.map (·.1)).Nodup)
    (hs : ms.map (·.1) = ns.map (·.1))
    (h : ms.filterMap (fun m => m.2.map (fun j => (m.1, j))) = ns.filterMap (fun m => m.2.map (fun j => (m.1, j)))) :
    ms = ns := by
  induction ms generalizing ns with
  | nil => exact (List.map_eq_nil_iff.mp hs.symm).symm
  | cons m ms ih =>
    cases ns with
    | nil => cases hs
    | cons n ns =>
      obtain ⟨name, v⟩ := m
      obtain ⟨name', w⟩ := n
      simp only [List.map_cons, List.cons.injEq] at hs
      obtain ⟨rfl, hs⟩ := hs
      have hms : name ∉ ms.map (·.1) := (List.nodup_cons.mp hn).1
      have hns : name ∉ ns.map (·.1) := hs ▸ hms
      have hrest := ih (List.nodup_cons.mp hn).2 hs
      cases v with
      | none =>
        cases w with
        | none => rw [hrest (by simpa using h)]
        | some k =>
          simp only [List.filterMap_cons, Option.map_none, Option.map_some] at h
          exact absurd (h ▸ List.mem_cons_self) (not_mem_present hms)
      | some j =>
        cases w with
        | none =>
          simp only [List.filterMap_cons, Option.map_none, Option.map_some] at h
          exact absurd (h.symm ▸ List.mem_cons_self) (not_mem_present hns)
        | some k =>
          simp only [List.filterMap_cons, Option.map_some, List.cons.injEq, Prod.mk.injEq, true_and] at h
          rw [h.1, hrest h.2]

/-- Objects of the same names have the same members if their texts are the same. -/
theorem ofMembers_injective {ms ns : List (String × Option Json)} (h : ofMembers ms = ofMembers ns)
    (hs : ms.map (·.1) = ns.map (·.1)) (hn : (ms.map (·.1)).Nodup) : ms = ns :=
  present_injective hn hs (Json.obj.inj h)

theorem ofStringMap_injective {m n : StringMap} (h : ofStringMap m = ofStringMap n) : m = n := by
  have he : m.entries = n.entries := by
    refine (List.map_inj_right ?_).mp (Json.obj.inj h)
    rintro ⟨k, v⟩ ⟨l, w⟩ he
    simp only [Prod.mk.injEq, Json.str.injEq] at he
    rw [he.1, he.2]
  cases m
  cases n
  simp_all

theorem ofStrings_injective {l m : List String} (h : ofStrings l = ofStrings m) : l = m :=
  (List.map_inj_right fun _ _ he => Json.str.inj he).mp (Json.arr.inj h)

end Json

/-! ### Services -/

private theorem map_str_inj {a b : Option String} : a.map Json.str = b.map .str ↔ a = b :=
  Option.map_inj_right fun _ _ => Json.str.inj

private theorem map_num_inj {a b : Option Int} : a.map Json.num = b.map .num ↔ a = b :=
  Option.map_inj_right fun _ _ => Json.num.inj

private theorem map_bool_inj {a b : Option Bool} : a.map Json.bool = b.map .bool ↔ a = b :=
  Option.map_inj_right fun _ _ => Json.bool.inj

private theorem map_strings_inj {a b : Option (List String)} : a.map Json.ofStrings = b.map .ofStrings ↔ a = b :=
  Option.map_inj_right fun _ _ => Json.ofStrings_injective

private theorem map_stringMap_inj {a b : Option StringMap} : a.map Json.ofStringMap = b.map .ofStringMap ↔ a = b :=
  Option.map_inj_right fun _ _ => Json.ofStringMap_injective

theorem TargetPort.toJson_injective {a b : TargetPort} (h : a.toJson = b.toJson) : a = b := by
  cases a <;> cases b <;> simp_all [TargetPort.toJson]

theorem ServicePort.toJson_injective {a b : ServicePort} (h : a.toJson = b.toJson) : a = b := by
  have hm := Json.ofMembers_injective h rfl (by simp)
  have ht := @Option.map_inj_right _ _ _ a.targetPort b.targetPort fun _ _ => TargetPort.toJson_injective
  simp only [List.cons.injEq, Prod.mk.injEq, true_and, map_str_inj, map_num_inj, ht, Option.some.injEq,
    Json.num.injEq] at hm
  cases a
  cases b
  simp_all

private theorem clientIP_injective {a b : ClientAffinity}
    (h : Json.ofMembers [("timeoutSeconds", a.timeoutSeconds.map .num)] =
      .ofMembers [("timeoutSeconds", b.timeoutSeconds.map .num)]) : a = b := by
  have hm := Json.ofMembers_injective h rfl (by simp)
  simp only [List.cons.injEq, Prod.mk.injEq, true_and, map_num_inj] at hm
  cases a
  cases b
  simp_all

theorem SessionAffinityConfig.toJson_injective {a b : SessionAffinityConfig} (h : a.toJson = b.toJson) : a = b := by
  have hm := Json.ofMembers_injective h rfl (by simp)
  have hc := @Option.map_inj_right _ _ _ a.clientIP b.clientIP fun _ _ => clientIP_injective
  simp only [List.cons.injEq, Prod.mk.injEq, true_and, hc] at hm
  cases a
  cases b
  simp_all

private theorem ports_injective {a b : List ServicePort}
    (h : Json.arr (a.map ServicePort.toJson) = .arr (b.map ServicePort.toJson)) : a = b :=
  (List.map_inj_right fun _ _ => ServicePort.toJson_injective).mp (Json.arr.inj h)

theorem ServiceSpec.toJson_injective {a b : ServiceSpec} (h : a.toJson = b.toJson) : a = b := by
  have hm := Json.ofMembers_injective h rfl (by simp)
  have hp := @Option.map_inj_right _ _ _ a.ports b.ports fun _ _ => ports_injective
  have hc := @Option.map_inj_right _ _ _ a.sessionAffinityConfig b.sessionAffinityConfig
    fun _ _ => SessionAffinityConfig.toJson_injective
  simp only [List.cons.injEq, Prod.mk.injEq, true_and, map_str_inj, map_num_inj, map_bool_inj, map_strings_inj,
    map_stringMap_inj, hp, hc] at hm
  cases a
  cases b
  simp_all

end ServiceBalancer
