/-! Finite maps held as lists in increasing order of keys, so that equal maps are equal lists. -/
namespace ServiceBalancer

structure SortedMap (κ β : Type) [Ord κ] where
  entries : List (κ × β)
  sorted : entries.Pairwise (fun a b => compare a.1 b.1 = .lt)

namespace SortedMap
variable {κ β : Type} [Ord κ]

instance [DecidableEq κ] [DecidableEq β] : DecidableEq (SortedMap κ β) := fun a b =>
  decidable_of_iff (a.entries = b.entries)
    ⟨fun h => by cases a; cases b; simp_all, fun h => h ▸ rfl⟩

def empty : SortedMap κ β := ⟨[], .nil⟩

instance : EmptyCollection (SortedMap κ β) := ⟨empty⟩
instance : Inhabited (SortedMap κ β) := ⟨empty⟩

def insertEntry (k : κ) (v : β) : List (κ × β) → List (κ × β)
  | [] => [(k, v)]
  | e :: rest =>
    match compare k e.1 with
    | .lt => (k, v) :: e :: rest
    | .eq => (k, v) :: rest
    | .gt => e :: insertEntry k v rest

theorem mem_insertEntry {k : κ} {v : β} {l : List (κ × β)} {a : κ × β}
    (h : a ∈ insertEntry k v l) : a = (k, v) ∨ a ∈ l := by
  induction l with
  | nil => simpa [insertEntry] using h
  | cons e rest ih =>
    simp only [insertEntry] at h
    split at h <;> grind

theorem pairwise_insertEntry [Std.TransOrd κ] [Std.LawfulEqOrd κ] (k : κ) (v : β) {l : List (κ × β)}
    (h : l.Pairwise (fun a b => compare a.1 b.1 = .lt)) :
    (insertEntry k v l).Pairwise (fun a b => compare a.1 b.1 = .lt) := by
  induction l with
  | nil => simp [insertEntry]
  | cons e rest ih =>
    have hr := List.pairwise_cons.mp h
    simp only [insertEntry]
    split
    · next hk => exact .cons (fun a ha => (List.mem_cons.mp ha).elim (fun he => he ▸ hk)
        (fun hm => Std.TransCmp.lt_trans hk (hr.1 a hm))) h
    · next hk =>
      have hke : k = e.1 := Std.LawfulEqOrd.eq_of_compare hk
      exact .cons (fun a ha => hke ▸ hr.1 a ha) hr.2
    · next hk => exact .cons (fun a ha => (mem_insertEntry ha).elim
        (fun he => he ▸ Std.OrientedCmp.gt_iff_lt.mp hk) (hr.1 a)) (ih hr.2)

def insert [Std.TransOrd κ] [Std.LawfulEqOrd κ] (m : SortedMap κ β) (k : κ) (v : β) : SortedMap κ β :=
  ⟨insertEntry k v m.entries, pairwise_insertEntry k v m.sorted⟩

variable [DecidableEq κ]

def lookup? (k : κ) : List (κ × β) → Option β
  | [] => none
  | e :: rest => if e.1 = k then some e.2 else lookup? k rest

def get? (m : SortedMap κ β) (k : κ) : Option β := lookup? k m.entries

def contains (m : SortedMap κ β) (k : κ) : Bool := (m.get? k).isSome

def erase (m : SortedMap κ β) (k : κ) : SortedMap κ β :=
  ⟨m.entries.filter (fun e => e.1 ≠ k), m.sorted.filter _⟩

def mapValues (m : SortedMap κ β) (f : β → β) : SortedMap κ β :=
  ⟨m.entries.map (fun e => (e.1, f e.2)), by
    simpa [List.pairwise_map] using m.sorted⟩

def modify (m : SortedMap κ β) (k : κ) (f : β → β) : SortedMap κ β :=
  ⟨m.entries.map (fun e => (e.1, if e.1 = k then f e.2 else e.2)), by
    simpa [List.pairwise_map] using m.sorted⟩

def keys (m : SortedMap κ β) : List κ := m.entries.map (·.1)
def values (m : SortedMap κ β) : List β := m.entries.map (·.2)
def size (m : SortedMap κ β) : Nat := m.entries.length
def isEmpty (m : SortedMap κ β) : Bool := m.entries.isEmpty

def ofList [Std.TransOrd κ] [Std.LawfulEqOrd κ] (l : List (κ × β)) : SortedMap κ β :=
  l.foldl (fun m e => m.insert e.1 e.2) empty

@[simp] theorem get?_empty (k : κ) : (∅ : SortedMap κ β).get? k = none := rfl

theorem lookup?_insertEntry [Std.TransOrd κ] [Std.LawfulEqOrd κ] (k k' : κ) (v : β) (l : List (κ × β)) :
    lookup? k' (insertEntry k v l) = if k = k' then some v else lookup? k' l := by
  induction l with
  | nil => simp [insertEntry, lookup?]
  | cons e rest ih =>
    simp only [insertEntry]
    split
    · simp [lookup?]
    · next hk =>
      have hke : k = e.1 := Std.LawfulEqOrd.eq_of_compare hk
      subst hke
      by_cases h : e.1 = k' <;> simp [lookup?, h]
    · next hk =>
      have hne : e.1 ≠ k := by rintro rfl; simp at hk
      by_cases h : e.1 = k'
      · subst h; simp [lookup?, Ne.symm hne]
      · simp [lookup?, h, ih]

@[simp] theorem get?_insert [Std.TransOrd κ] [Std.LawfulEqOrd κ] (m : SortedMap κ β) (k k' : κ) (v : β) :
    (m.insert k v).get? k' = if k = k' then some v else m.get? k' :=
  lookup?_insertEntry k k' v m.entries

omit [Ord κ] in
theorem lookup?_filter (k k' : κ) (l : List (κ × β)) :
    lookup? k' (l.filter (fun e => e.1 ≠ k)) = if k = k' then none else lookup? k' l := by
  induction l with
  | nil => simp [lookup?]
  | cons e rest ih =>
    by_cases h : e.1 = k
    · by_cases hk : k = k' <;> simp_all [lookup?]
    · by_cases hk : e.1 = k'
      · subst hk; simp [lookup?, h, Ne.symm h]
      · simp_all [lookup?]

@[simp] theorem get?_erase (m : SortedMap κ β) (k k' : κ) :
    (m.erase k).get? k' = if k = k' then none else m.get? k' :=
  lookup?_filter k k' m.entries

end SortedMap
end ServiceBalancer
