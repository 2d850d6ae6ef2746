import ServiceBalancer.Proofs.Cloud.Names
import ServiceBalancer.Proofs.Cloud.Seeded

/-! The order of ids. As long as their digits have room, ids are in the order in which they were given out, so a
balancer that comes later is behind those of its name that are there, and what a service finds by its name stays. -/
namespace ServiceBalancer.MemoryCloud

/-- How many ids have their digits in order, which is also where a counter of 32 bits ends. -/
abbrev idRoom : Nat := UInt32.size

private theorem compare_of_lt {s t : String} (h : s < t) : compare s t = .lt := compareOfLessAndEq_eq_lt.mpr h

theorem compare_idOf {m n : Nat} (hm : m < n) (hn : n < idRoom) : compare (idOf m) (idOf n) = .lt := by
  have room {k : Nat} (hk : k ≤ n) : (Text.hexDigits k).length ≤ 8 :=
    (Nat.length_toDigits_le_iff (by decide) (by decide)).mpr (Nat.lt_of_le_of_lt hk hn)
  have digit {k : Nat} : ∀ c ∈ List.replicate (8 - (Text.hexDigits k).length) '0' ++ Text.hexDigits k,
      Text.IsHexDigit c := by
    intro c hc
    rcases List.mem_append.mp hc with hc | hc
    · exact (List.mem_replicate.mp hc).2 ▸ Text.isHexDigit_zero
    · exact Text.isHexDigit_of_mem_hexDigits hc
  have hlen : (List.replicate (8 - (Text.hexDigits m).length) '0' ++ Text.hexDigits m).length =
      (List.replicate (8 - (Text.hexDigits n).length) '0' ++ Text.hexDigits n).length := by
    have hroom := room (Nat.le_of_lt hm)
    have hroom' := room (Nat.le_refl n)
    simp only [List.length_append, List.length_replicate]
    omega
  have hdigits := Text.lt_of_ofHexDigits_lt digit digit hlen (by simpa using hm)
  have hlt : idOf m < idOf n := by
    simp only [String.lt_iff, idOf, String.toList_ofList]
    exact List.append_left_lt hdigits
  exact compare_of_lt hlt

def Numbered (c : MemoryCloud) : Prop := ∀ id b, c.balancers.get? id = some b → ∃ n ≤ c.allocated, id = idOf n

variable {c : MemoryCloud} {name : String}

theorem Numbered.operate (h : c.Numbered) (hs : c.Sound) (op : Operation) : (c.operate op).Numbered := by
  intro id b hb
  by_cases hid : id = idOf (c.allocated + 1)
  · refine ⟨c.allocated + 1, Nat.le_of_not_lt fun hlt => ?_, hid⟩
    cases (hid ▸ hb).symm.trans ((hs.operate op).fresh _ hlt)
  · cases hc : c.balancers.get? id with
    | none => cases hb.symm.trans (hs.get?_operate hc hid)
    | some b' =>
      obtain ⟨n, hn, rfl⟩ := h id b' hc
      exact ⟨n, Nat.le_trans hn (c.allocated_le_operate op), rfl⟩

theorem Reachable.numbered (h : c.Reachable) : c.Numbered := by
  induction h with
  | new rules => simp [Numbered]
  | seed name h ih => exact ih.operate h.sound (.seed name)
  | inject message h ih => exact ih.operate h.sound (.inject message)
  | lookup svc h ih => exact ih.operate h.sound (.lookup svc)
  | ensure svc nodes h ih => exact ih.operate h.sound (.ensure svc nodes)
  | delete svc h ih => exact ih.operate h.sound (.delete svc)
  | clearCalls h ih => exact ih

/-- A balancer that the controller does not own comes behind those of its name. -/
theorem Sole.seed (h : c.Sole name) (hn : c.Numbered) (hroom : c.allocated + 1 < idRoom) (other : String) :
    (c.seed other).2.Sole name := by
  have hlast : ∀ id b, c.balancers.get? id = some b → compare id (idOf (c.allocated + 1)) = .lt := by
    intro id b hb
    obtain ⟨n, hle, rfl⟩ := hn id b hb
    exact compare_idOf (Nat.lt_succ_of_le hle) hroom
  intro x hx hxn hxu
  rcases mem_insert_balancer hx with rfl | ⟨id, _, hid⟩
  · cases hxu
  · exact SortedMap.find?_values_insert_last (h x (SortedMap.mem_values.mpr ⟨id, hid⟩) hxn hxu) hlast

/-- Whatever a cloud has been asked to do, its balancers that are the controller's own are found by their names. -/
theorem Reachable.sole (h : c.Reachable) (hroom : c.allocated < idRoom) (name : String) : c.Sole name := by
  have earlier {c : MemoryCloud} (op : Operation) (hop : (c.operate op).allocated < idRoom) : c.allocated < idRoom :=
    Nat.lt_of_le_of_lt (c.allocated_le_operate op) hop
  induction h with
  | new rules => exact sole_of_not_bears (by simp [Bears, SortedMap.mem_values])
  | seed other h ih => exact (ih (earlier (.seed other) hroom)).seed h.numbered hroom other
  | inject message h ih => exact ih hroom
  | lookup svc h ih => exact (lookup_alike _ svc).sole (ih (earlier (.lookup svc) hroom))
  | ensure svc nodes h ih => exact (ih (earlier (.ensure svc nodes) hroom)).ensure h.sound svc nodes
  | delete svc h ih => exact (ih (earlier (.delete svc) hroom)).delete h.sound svc
  | clearCalls h ih => exact ih hroom

end ServiceBalancer.MemoryCloud
