import ServiceBalancer.Json

/-! Merge patches: what a server makes of a value by a patch that names the members to change. Members that a patch
does not name stay as they are. -/
namespace ServiceBalancer.Json

/-- The members of an object. Any other value has none. -/
def memberList (j : Json) : List (String × Json) := j.members?.getD []

def setMember (name : String) (value : Json) : List (String × Json) → List (String × Json)
  | [] => [(name, value)]
  | m :: rest => if m.1 = name then (name, value) :: rest else m :: setMember name value rest

mutual
/-- A value after a merge patch. An object is changed member by member, and anything else is replaced. -/
def mergePatch (target : Json) : Json → Json
  | .obj changes => .obj (mergeMembers target.memberList changes)
  | .null => .null
  | .bool b => .bool b
  | .num n => .num n
  | .str s => .str s
  | .arr items => .arr items
/-- Members after the changes of a merge patch. A null takes a member away. -/
def mergeMembers (members : List (String × Json)) : List (String × Json) → List (String × Json)
  | [] => members
  | (name, change) :: rest =>
    match mergePatch ((members.lookup name).getD .null) change with
    | .null => mergeMembers (members.filter (·.1 ≠ name)) rest
    | merged => mergeMembers (setMember name merged members) rest
end

variable {members changes : List (String × Json)} {name other : String} {value change target : Json}

private theorem lookup_cons_if (m : String × Json) :
    (m :: members).lookup name = if name = m.1 then some m.2 else members.lookup name := by
  by_cases h : name = m.1
  · rw [List.lookup_cons, beq_iff_eq.mpr h, if_pos h]
  · rw [List.lookup_cons, beq_false_of_ne h, if_neg h]

theorem lookup_setMember : (setMember name value members).lookup other =
    if other = name then some value else members.lookup other := by
  induction members with
  | nil => rw [setMember, lookup_cons_if]
  | cons m rest ih =>
    rw [setMember]
    split
    · next hm =>
      rw [lookup_cons_if, lookup_cons_if, hm]
      split <;> rfl
    · next hm =>
      rw [lookup_cons_if, lookup_cons_if, ih]
      by_cases ho : other = m.1
      · rw [if_pos ho, if_pos ho, if_neg fun he => hm (ho.symm.trans he)]
      · rw [if_neg ho, if_neg ho]

private theorem lookup_filter_ne (h : other ≠ name) :
    (members.filter (·.1 ≠ name)).lookup other = members.lookup other := by
  induction members with
  | nil => rfl
  | cons m rest ih =>
    rw [lookup_cons_if]
    by_cases hm : m.1 = name
    · rw [List.filter_cons_of_neg (by simpa using hm), ih, if_neg fun ho => h (ho.trans hm)]
    · rw [List.filter_cons_of_pos (by simpa using hm), lookup_cons_if, ih]

theorem mergePatch_ne_null (h : change ≠ .null) : mergePatch target change ≠ .null := by
  cases change with
  | null => exact absurd rfl h
  | obj changes | bool b | num n | str s | arr items => simp [mergePatch]

/-- A member that is not named by a patch. -/
theorem lookup_mergeMembers_of_not_mem (h : name ∉ changes.map (·.1)) :
    (mergeMembers members changes).lookup name = members.lookup name := by
  induction changes generalizing members with
  | nil => rfl
  | cons c rest ih =>
    have hne : name ≠ c.1 := fun he => h (he ▸ .head _)
    have hrest : name ∉ rest.map (·.1) := fun hm => h (.tail _ hm)
    rw [mergeMembers]
    split
    · rw [ih hrest, lookup_filter_ne hne]
    · rw [ih hrest, lookup_setMember, if_neg hne]

/-- A member that a patch sets. -/
theorem lookup_mergeMembers_of_mem (hm : (name, change) ∈ changes) (hn : (changes.map (·.1)).Nodup)
    (hc : change ≠ .null) : (mergeMembers members changes).lookup name =
      some (mergePatch ((members.lookup name).getD .null) change) := by
  induction changes generalizing members with
  | nil => cases hm
  | cons c rest ih =>
    obtain ⟨hnew, hrest⟩ := List.nodup_cons.mp hn
    rw [mergeMembers]
    rcases List.mem_cons.mp hm with rfl | hm
    · split
      · next hnull => exact absurd hnull (mergePatch_ne_null hc)
      · rw [lookup_mergeMembers_of_not_mem hnew, lookup_setMember, if_pos rfl]
    · have hne : name ≠ c.1 := by
        rintro rfl
        exact hnew (List.mem_map.mpr ⟨_, hm, rfl⟩)
      split
      · rw [ih hm hrest, lookup_filter_ne hne]
      · rw [ih hm hrest, lookup_setMember, if_neg hne]

/-- A member that a patch takes away. -/
theorem lookup_mergeMembers_of_null (hm : (name, .null) ∈ changes) (hn : (changes.map (·.1)).Nodup) :
    (mergeMembers members changes).lookup name = none := by
  induction changes generalizing members with
  | nil => cases hm
  | cons c rest ih =>
    obtain ⟨hnew, hrest⟩ := List.nodup_cons.mp hn
    rw [mergeMembers]
    rcases List.mem_cons.mp hm with rfl | hm
    · have hgone : (members.filter (·.1 ≠ name)).lookup name = none :=
        List.lookup_eq_none_iff.mpr fun m hm =>
          bne_iff_ne.mpr (Ne.symm (of_decide_eq_true (List.mem_filter.mp hm).2))
      simp only [mergePatch]
      rw [lookup_mergeMembers_of_not_mem hnew, hgone]
    · split
      · exact ih hm hrest
      · exact ih hm hrest

/-! ### The members of a patched value -/

def present? : Json → Option Json
  | .null => none
  | value => some value

theorem get?_eq (j : Json) (name : String) : j.get? name = (j.memberList.lookup name).bind present? := by
  cases j with
  | obj members =>
    simp only [get?, memberList, members?, Option.getD_some]
    cases members.lookup name with
    | none => rfl
    | some value => cases value <;> rfl
  | null | bool b | num n | str s | arr items => rfl

theorem get?_mergePatch_of_not_mem (h : name ∉ changes.map (·.1)) :
    (mergePatch target (.obj changes)).get? name = target.get? name := by
  rw [get?_eq target, ← lookup_mergeMembers_of_not_mem h, mergePatch, get?_eq]
  rfl

theorem get?_mergePatch_of_mem (hm : (name, change) ∈ changes) (hn : (changes.map (·.1)).Nodup) (hc : change ≠ .null) :
    (mergePatch target (.obj changes)).get? name =
      some (mergePatch ((target.memberList.lookup name).getD .null) change) := by
  have hpresent {j : Json} (hj : j ≠ .null) : present? j = some j := by cases j <;> first | exact absurd rfl hj | rfl
  rw [mergePatch, get?_eq, ← hpresent (mergePatch_ne_null hc)]
  exact congrArg (·.bind present?) (lookup_mergeMembers_of_mem hm hn hc)

theorem get?_mergePatch_of_null (hm : (name, .null) ∈ changes) (hn : (changes.map (·.1)).Nodup) :
    (mergePatch target (.obj changes)).get? name = none := by
  have hgone : (mergePatch target (.obj changes)).memberList.lookup name = none := by
    rw [mergePatch]
    exact lookup_mergeMembers_of_null hm hn
  rw [get?_eq, hgone, Option.bind_none]

/-- A patch of a member patches what the value has there. -/
theorem get?_mergePatch_nested (target : Json) {inner : List (String × Json)} (hm : (name, .obj inner) ∈ changes)
    (hn : (changes.map (·.1)).Nodup) :
    ∃ value, (mergePatch target (.obj changes)).get? name = some (mergePatch value (.obj inner)) ∧
      ∀ other, value.get? other = (target.get? name).bind (·.get? other) := by
  refine ⟨_, get?_mergePatch_of_mem hm hn (by simp), fun other => ?_⟩
  rw [get?_eq target name]
  cases target.memberList.lookup name with
  | none => rfl
  | some value => cases value <;> rfl

end ServiceBalancer.Json
