import ServiceBalancer.SortedMap

/-! Sorted maps by their entries: looking a value up, and looking for the first value of a kind. -/
namespace ServiceBalancer.SortedMap
variable {κ β : Type} [Ord κ] [Std.TransOrd κ] [Std.LawfulEqOrd κ] [DecidableEq κ]

omit [Std.TransOrd κ] [DecidableEq κ] in
private theorem ne_of_lt {a b : κ} (h : compare a b = .lt) : a ≠ b := by
  rintro rfl
  simp at h

omit [Std.TransOrd κ] in
private theorem lookup?_eq_some {l : List (κ × β)} (hs : l.Pairwise (fun a b => compare a.1 b.1 = .lt)) {k : κ}
    {v : β} : lookup? k l = some v ↔ (k, v) ∈ l := by
  induction l with
  | nil => simp [lookup?]
  | cons e rest ih =>
    obtain ⟨hlt, hrest⟩ := List.pairwise_cons.mp hs
    by_cases he : e.1 = k
    · subst he
      have hv : (e.1, v) ∉ rest := fun hm => ne_of_lt (hlt _ hm) rfl
      simp only [lookup?, if_true, Option.some.injEq, List.mem_cons, hv, or_false]
      exact ⟨fun h => by rw [← h], fun h => (congrArg Prod.snd h).symm⟩
    · have hne : (k, v) ≠ e := fun h => he (congrArg Prod.fst h).symm
      simp only [lookup?, if_neg he, ih hrest, List.mem_cons, hne, false_or]

omit [Std.TransOrd κ] in
theorem get?_eq_some {m : SortedMap κ β} {k : κ} {v : β} : m.get? k = some v ↔ (k, v) ∈ m.entries :=
  lookup?_eq_some m.sorted

omit [Std.TransOrd κ] in
theorem mem_values {m : SortedMap κ β} {v : β} : v ∈ m.values ↔ ∃ k, m.get? k = some v := by
  simp [values, get?_eq_some]

omit [Std.TransOrd κ] [DecidableEq κ] in
theorem nodup_entries (m : SortedMap κ β) : m.entries.Nodup :=
  m.sorted.imp fun hlt he => ne_of_lt hlt (congrArg Prod.fst he)

/-- Maps with equal values at every key are equal. -/
theorem ext_get? {m m' : SortedMap κ β} (h : ∀ k, m.get? k = m'.get? k) : m = m' := by
  have hperm : m.entries.Perm m'.entries := by
    apply (List.perm_ext_iff_of_nodup m.nodup_entries m'.nodup_entries).mpr
    intro e
    rw [← get?_eq_some, ← get?_eq_some, h]
  have hentries : m.entries = m'.entries := by
    refine hperm.eq_of_pairwise (fun a b _ _ hab hba => ?_) m.sorted m'.sorted
    rw [Std.OrientedCmp.gt_of_lt hba] at hab
    cases hab
  cases m
  cases m'
  cases hentries
  rfl

def beyond (m m' : SortedMap κ β) : List (κ × β) := m.entries.filter fun e => !m'.contains e.1

omit [Std.TransOrd κ] in
theorem beyond_eq_nil {m m' : SortedMap κ β} (h : ∀ k v, m.get? k = some v → (m'.get? k).isSome) : m.beyond m' = [] := by
  refine List.filter_eq_nil_iff.mpr fun e he => ?_
  simp [contains, h e.1 e.2 (get?_eq_some.mpr he)]

theorem beyond_insert {m : SortedMap κ β} {k : κ} (h : m.get? k = none) (v : β) : (m.insert k v).beyond m = [(k, v)] := by
  have hnodup : ((m.insert k v).beyond m).Nodup := List.Pairwise.filter _ (nodup_entries _)
  have honly : ∀ e, e ∈ (m.insert k v).beyond m ↔ e ∈ [(k, v)] := by
    rintro ⟨k', v'⟩
    have hfree : (!m.contains k') = true ↔ m.get? k' = none := by simp [contains]
    simp only [beyond, List.mem_filter, ← get?_eq_some, get?_insert, hfree, List.mem_singleton, Prod.mk.injEq]
    by_cases hk : k = k'
    · subst hk
      simp [h, eq_comm]
    · simpa [hk, Ne.symm hk] using fun hv hnone => by cases hnone.symm.trans hv
  exact List.perm_singleton.mp ((List.perm_ext_iff_of_nodup hnodup (List.pairwise_singleton _ _)).mpr honly)

private theorem get?_foldl_insert {l : List (κ × β)} (hs : l.Pairwise (fun a b => compare a.1 b.1 = .lt))
    (m : SortedMap κ β) (k : κ) :
    (l.foldl (fun m e => m.insert e.1 e.2) m).get? k = (lookup? k l).or (m.get? k) := by
  induction l generalizing m with
  | nil => rfl
  | cons e rest ih =>
    obtain ⟨hlt, hrest⟩ := List.pairwise_cons.mp hs
    rw [List.foldl_cons, ih hrest, get?_insert, lookup?]
    by_cases he : e.1 = k
    · subst he
      have hnone : lookup? e.1 rest = none :=
        Option.eq_none_iff_forall_ne_some.mpr fun v hv => ne_of_lt (hlt _ ((lookup?_eq_some hrest).mp hv)) rfl
      rw [hnone, if_pos rfl, if_pos rfl]
      rfl
    · rw [if_neg he, if_neg he]

/-- A map is the map of its entries. -/
theorem ofList_entries (m : SortedMap κ β) : ofList m.entries = m := by
  refine ext_get? fun k => ?_
  rw [ofList, get?_foldl_insert m.sorted]
  exact Option.or_none

/-- Of the entries of a list with one key the last counts. -/
theorem get?_ofList (l : List (κ × β)) (k : κ) : (ofList l).get? k = (l.reverse.find? (·.1 = k)).map (·.2) := by
  have hfold : ∀ m : SortedMap κ β, (l.foldl (fun m e => m.insert e.1 e.2) m).get? k =
      ((l.reverse.find? (·.1 = k)).map (·.2)).or (m.get? k) := by
    induction l with
    | nil => exact fun m => rfl
    | cons e rest ih =>
      intro m
      rw [List.foldl_cons, ih, get?_insert, List.reverse_cons, List.find?_append]
      cases hfound : rest.reverse.find? (·.1 = k) with
      | some found => rfl
      | none => by_cases he : e.1 = k <;> simp [he]
  rw [ofList, hfold]
  exact Option.or_none

/-- The map of a list holds nothing else. -/
theorem mem_of_mem_ofList {l : List (κ × β)} {e : κ × β} (h : e ∈ (ofList l).entries) : e ∈ l := by
  rw [← get?_eq_some, get?_ofList] at h
  obtain ⟨found, hfound, hvalue⟩ := Option.map_eq_some_iff.mp h
  have hkey : found.1 = e.1 := by simpa using List.find?_some hfound
  rw [← (Prod.ext hkey hvalue : found = e)]
  exact List.mem_reverse.mp (List.mem_of_find?_eq_some hfound)

omit [Ord κ] [Std.TransOrd κ] [Std.LawfulEqOrd κ] in
private theorem lookup?_map (l : List (κ × β)) (g : κ → β → β) (k : κ) :
    lookup? k (l.map (fun e => (e.1, g e.1 e.2))) = (lookup? k l).map (g k) := by
  induction l with
  | nil => rfl
  | cons e rest ih =>
    by_cases he : e.1 = k
    · subst he
      simp [lookup?]
    · simpa [lookup?, he] using ih

omit [Std.TransOrd κ] [Std.LawfulEqOrd κ] in
/-- Changing the values leaves every value at its key. -/
theorem get?_mapValues (m : SortedMap κ β) (f : β → β) (k : κ) : (m.mapValues f).get? k = (m.get? k).map f :=
  lookup?_map m.entries (fun _ => f) k

omit [Std.TransOrd κ] [Std.LawfulEqOrd κ] in
theorem get?_modify (m : SortedMap κ β) (k k' : κ) (f : β → β) :
    (m.modify k f).get? k' = (m.get? k').map (fun v => if k' = k then f v else v) :=
  lookup?_map m.entries (fun k' v => if k' = k then f v else v) k'

/-! ### The first value of a kind -/

omit [Std.TransOrd κ] in
theorem find?_values_eq_none {m : SortedMap κ β} {p : β → Bool} :
    m.values.find? p = none ↔ ∀ k v, m.get? k = some v → p v = false := by
  simp only [List.find?_eq_none, mem_values, Bool.not_eq_true]
  exact ⟨fun h k v hk => h v ⟨k, hk⟩, fun h v ⟨k, hk⟩ => h k v hk⟩

omit [DecidableEq κ] in
private theorem find?_map_snd {l : List (κ × β)} (hs : l.Pairwise (fun a b => compare a.1 b.1 = .lt)) {p : β → Bool}
    {v : β} : (l.map (·.2)).find? p = some v ↔
      ∃ k, (k, v) ∈ l ∧ p v ∧ ∀ e ∈ l, p e.2 → e.1 = k ∨ compare k e.1 = .lt := by
  induction l with
  | nil => simp
  | cons e rest ih =>
    obtain ⟨hlt, hrest⟩ := List.pairwise_cons.mp hs
    by_cases hp : p e.2
    · simp only [List.map_cons, List.find?_cons_of_pos (l := rest.map (·.2)) hp, Option.some.injEq]
      constructor
      · rintro rfl
        exact ⟨e.1, .head _, hp, fun x hx _ => (List.mem_cons.mp hx).imp (congrArg Prod.fst) (hlt x)⟩
      · rintro ⟨k, hm, _, hfirst⟩
        rcases List.mem_cons.mp hm with rfl | hm
        · rfl
        · rcases hfirst e (.head _) hp with rfl | hk
          · exact absurd rfl (ne_of_lt (hlt (e.1, v) hm))
          · have hgt := Std.OrientedCmp.gt_of_lt hk
            rw [hlt (k, v) hm] at hgt
            cases hgt
    · rw [List.map_cons, List.find?_cons_of_neg hp, ih hrest]
      have hne {k : κ} (hv : p v) : (k, v) ≠ e := by
        rintro rfl
        exact hp hv
      refine exists_congr fun k => ⟨fun ⟨hm, hv, hfirst⟩ => ⟨.tail _ hm, hv, ?_⟩, fun ⟨hm, hv, hfirst⟩ =>
        ⟨(List.mem_cons.mp hm).resolve_left (hne hv), hv, fun x hx => hfirst x (.tail _ hx)⟩⟩
      intro x hx hpx
      rcases List.mem_cons.mp hx with rfl | hx
      · exact absurd hpx hp
      · exact hfirst x hx hpx

/-- The first value of a kind is the one with the least key. -/
theorem find?_values_eq_some {m : SortedMap κ β} {p : β → Bool} {v : β} : m.values.find? p = some v ↔
    ∃ k, m.get? k = some v ∧ p v ∧ ∀ k' v', m.get? k' = some v' → p v' → k' = k ∨ compare k k' = .lt := by
  rw [values, find?_map_snd m.sorted]
  simp [get?_eq_some]

variable {m : SortedMap κ β} {p : β → Bool} {k : κ} {v v' : β}

/-- Replacing the first value of a kind by another of the kind. -/
theorem find?_values_insert_same (h : m.values.find? p = some v) (hk : ∀ k', m.get? k' = some v → k' = k)
    (hp : p v') : (m.insert k v').values.find? p = some v' := by
  obtain ⟨k', hm, _, hfirst⟩ := find?_values_eq_some.mp h
  obtain rfl := hk k' hm
  refine find?_values_eq_some.mpr ⟨k', by simp, hp, fun k₂ v₂ h₂ hp₂ => ?_⟩
  by_cases he : k' = k₂
  · exact .inl he.symm
  · rw [get?_insert, if_neg he] at h₂
    exact hfirst k₂ v₂ h₂ hp₂

/-- Adding the only value of a kind. -/
theorem find?_values_insert_new (h : m.values.find? p = none) (hp : p v') :
    (m.insert k v').values.find? p = some v' := by
  refine find?_values_eq_some.mpr ⟨k, by simp, hp, fun k₂ v₂ h₂ hp₂ => ?_⟩
  by_cases he : k = k₂
  · exact .inl he.symm
  · rw [get?_insert, if_neg he] at h₂
    simp [find?_values_eq_none.mp h k₂ v₂ h₂] at hp₂

/-- Adding a value behind all others. -/
theorem find?_values_insert_last (h : m.values.find? p = some v)
    (hk : ∀ k' v', m.get? k' = some v' → compare k' k = .lt) : (m.insert k v').values.find? p = some v := by
  obtain ⟨k₀, hm, hp, hfirst⟩ := find?_values_eq_some.mp h
  have hlast := hk k₀ v hm
  refine find?_values_eq_some.mpr ⟨k₀, by rw [get?_insert, if_neg (Ne.symm (ne_of_lt hlast)), hm], hp, ?_⟩
  intro k₂ v₂ h₂ hp₂
  by_cases he : k = k₂
  · exact .inr (he ▸ hlast)
  · rw [get?_insert, if_neg he] at h₂
    exact hfirst k₂ v₂ h₂ hp₂

/-- A change at a key matters to what is found first of a kind only if that is at the key, or if a value
of the kind comes to the key. -/
theorem find?_values_insert_other (hk : ∀ v, m.values.find? p = some v → m.get? k ≠ some v)
    (hp : p v' → ∃ old, m.get? k = some old ∧ p old) :
    (m.insert k v').values.find? p = m.values.find? p := by
  cases h : m.values.find? p with
  | none =>
    have hnone := find?_values_eq_none.mp h
    refine find?_values_eq_none.mpr fun k₂ v₂ h₂ => ?_
    by_cases he : k = k₂
    · rw [get?_insert, if_pos he] at h₂
      obtain rfl := Option.some.inj h₂
      refine Bool.eq_false_iff.mpr fun hv => ?_
      obtain ⟨old, ho, hpo⟩ := hp hv
      simp [hnone k old ho] at hpo
    · rw [get?_insert, if_neg he] at h₂
      exact hnone k₂ v₂ h₂
  | some v =>
    obtain ⟨k', hm, hv, hfirst⟩ := find?_values_eq_some.mp h
    have hne : k ≠ k' := by
      rintro rfl
      exact hk v h hm
    refine find?_values_eq_some.mpr ⟨k', by rw [get?_insert, if_neg hne, hm], hv, fun k₂ v₂ h₂ hp₂ => ?_⟩
    by_cases he : k = k₂
    · subst he
      rw [get?_insert, if_pos rfl] at h₂
      obtain rfl := Option.some.inj h₂
      obtain ⟨old, ho, hpo⟩ := hp hp₂
      exact hfirst k old ho hpo
    · rw [get?_insert, if_neg he] at h₂
      exact hfirst k₂ v₂ h₂ hp₂

/-- Dropping a key matters to what is found first of a kind only if that is at the key. -/
theorem find?_values_erase_other (hk : ∀ v, m.values.find? p = some v → m.get? k ≠ some v) :
    (m.erase k).values.find? p = m.values.find? p := by
  have hsub {k₂ : κ} {v₂ : β} (h₂ : (m.erase k).get? k₂ = some v₂) : m.get? k₂ = some v₂ := by
    rw [get?_erase] at h₂
    split at h₂
    · cases h₂
    · exact h₂
  cases h : m.values.find? p with
  | none => exact find?_values_eq_none.mpr fun k₂ v₂ h₂ => find?_values_eq_none.mp h k₂ v₂ (hsub h₂)
  | some v =>
    obtain ⟨k', hm, hv, hfirst⟩ := find?_values_eq_some.mp h
    have hne : k ≠ k' := by
      rintro rfl
      exact hk v h hm
    exact find?_values_eq_some.mpr ⟨k', by rw [get?_erase, if_neg hne, hm], hv,
      fun k₂ v₂ h₂ => hfirst k₂ v₂ (hsub h₂)⟩

end ServiceBalancer.SortedMap
