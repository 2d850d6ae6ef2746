import ServiceBalancer.Proofs.Cloud.Holdings

/-! Balancers that the controller does not own. A call may change their traffic and nothing else of them, unless it is
to delete the balancer of a service that names none by its id: such a call takes away what it finds, whoever owns it. -/
namespace ServiceBalancer

/-- A balancer without its traffic: the id, the name, the address, the tags, and who owns it. -/
def Balancer.bare (b : Balancer) : Balancer := { b with listeners := [], backends := [] }

namespace MemoryCloud

/-- What a cloud can be asked to do, or to have. -/
inductive Operation where
  | seed (name : String)
  | inject (message : String)
  | lookup (svc : Service)
  | ensure (svc : Service) (nodes : List Node)
  | delete (svc : Service)

def operate (c : MemoryCloud) : Operation → MemoryCloud
  | .seed name => (c.seed name).2
  | .inject message => c.inject message
  | .lookup svc => (c.lookup svc).2
  | .ensure svc nodes => (c.ensure svc nodes).2
  | .delete svc => (c.delete svc).2

def operateAll (c : MemoryCloud) (ops : List Operation) : MemoryCloud := ops.foldl operate c

/-- Whether a deletion for a service takes away the balancer with an id: no failure waits, and the service names no
balancer by its id and finds this one. -/
def TakesAway (c : MemoryCloud) (svc : Service) (id : String) : Prop :=
  c.failures = [] ∧ svc.givenBalancerId? = none ∧ ∃ b, c.find? svc = some (some b) ∧ b.id = id

variable {c c' : MemoryCloud} {b : Balancer} {id : String} {svc : Service} {op : Operation}

theorem Sound.operate (h : c.Sound) (op : Operation) : (c.operate op).Sound := by
  cases op with
  | seed name => exact h.seed name
  | inject message => exact h.inject message
  | lookup svc => exact (c.lookup_alike svc).sound h
  | ensure svc nodes => exact h.ensure svc nodes
  | delete svc => exact h.delete svc

/-- A new balancer takes the place of none. -/
theorem Sound.get?_new (h : c.Sound) (hid : c.balancers.get? id = some b) {d : Balancer}
    (hd : d.id = idOf (c.allocated + 1)) : (c.balancers.insert d.id d).get? id = some b := by
  have hfree : c.balancers.get? d.id = none := hd ▸ h.fresh _ (Nat.lt_succ_self _)
  have hne : d.id ≠ id := by
    rintro rfl
    cases hfree.symm.trans hid
  rw [SortedMap.get?_insert, if_neg hne, hid]

/-- A balancer that the controller does not own changes in its traffic only when one is created or updated. -/
theorem Sound.ensure_bare (h : c.Sound) (hb : c.balancers.get? id = some b) (hu : b.userManaged = true) (svc : Service)
    (nodes : List Node) :
    ∃ b', (c.ensure svc nodes).2.balancers.get? id = some b' ∧ b'.bare = b.bare := by
  have hgo := c.ensured svc nodes
  generalize c.ensure svc nodes = r at hgo ⊢
  cases hgo with
  | failed | unnamed | refused => exact ⟨b, hb, rfl⟩
  | @updated old _ hfind =>
    have hold := h.get?_of_find? hfind
    by_cases hid : old.id = id
    · obtain rfl := Option.some.inj (hold.symm.trans (hid ▸ hb))
      exact ⟨configure old svc nodes, by simp [updated, hid], by simp [configure, Balancer.bare, hu]⟩
    · exact ⟨b, by simp [updated, hid, hb], rfl⟩
  | @extended name _ _ _ _ =>
    exact ⟨b, h.get?_new (d := configure (blank (c.allocated + 1) name) svc nodes) hb rfl, rfl⟩

theorem Sound.delete_bare (h : c.Sound) (hb : c.balancers.get? id = some b) (hn : ¬c.TakesAway svc id) :
    ∃ b', (c.delete svc).2.balancers.get? id = some b' ∧ b'.bare = b.bare := by
  rcases c.delete_cases svc with ⟨ha, _⟩ | ⟨c₁, d, ha, hf, hr, ⟨hg, he⟩ | ⟨_, he⟩⟩
  · exact ⟨b, ha.1 ▸ hb, rfl⟩
  · have hne : d.id ≠ id := fun hid => hn ⟨calm_of_delete hr, hg, d, (ha.find? svc).symm.trans hf, hid⟩
    exact ⟨b, by rw [he, SortedMap.get?_erase, if_neg hne, ha.1, hb], rfl⟩
  · have hd := (ha.sound h).get?_of_find? hf
    rw [he]
    by_cases hid : d.id = id
    · subst hid
      obtain rfl := Option.some.inj (hd.symm.trans (ha.1 ▸ hb))
      exact ⟨{ d with listeners := [], backends := [] }, by simp, rfl⟩
    · exact ⟨b, by rw [SortedMap.get?_insert, if_neg hid, ha.1, hb], rfl⟩

theorem get?_delete_of_takesAway (ht : c.TakesAway svc id) : (c.delete svc).2.balancers.get? id = none := by
  obtain ⟨hcalm, hg, b, hf, rfl⟩ := ht
  have hgo := c.deleted svc
  generalize c.delete svc = r at hgo ⊢
  cases hgo with
  | failed hfails => cases hcalm.symm.trans hfails
  | unnamed _ hnone => cases hf.symm.trans hnone
  | absent _ hnone => cases hf.symm.trans hnone
  | emptied _ _ hgiven => simp [hg] at hgiven
  | stripped _ hfound _ =>
    obtain rfl := Option.some.inj (Option.some.inj (hf.symm.trans hfound))
    exact (SortedMap.get?_erase ..).trans (if_pos rfl)

theorem allocated_le_operate (c : MemoryCloud) (op : Operation) : c.allocated ≤ (c.operate op).allocated := by
  cases op with
  | seed name => exact Nat.le_succ _
  | inject message => exact Nat.le_refl _
  | lookup svc => exact Nat.le_of_eq (c.lookup_alike svc).2.symm
  | ensure svc nodes =>
    rcases c.ensure_cases svc nodes with ⟨ha, _⟩ | ⟨c₁, _, n, ha, _, _, _, he, ⟨rfl, _⟩ | ⟨rfl, _⟩⟩
    · exact Nat.le_of_eq ha.2.symm
    · simp [operate, he, ha.2]
    · simp [operate, he, ha.2]
  | delete svc =>
    rcases c.delete_cases svc with ⟨ha, _⟩ | ⟨c₁, _, ha, _, _, ⟨_, he⟩ | ⟨_, he⟩⟩
    · exact Nat.le_of_eq ha.2.symm
    · simp [operate, he, ha.2]
    · simp [operate, he, ha.2]

/-- A balancer comes to an id that had none only as a new one. -/
theorem Sound.get?_operate (h : c.Sound) (hnone : c.balancers.get? id = none) (hid : id ≠ idOf (c.allocated + 1)) :
    (c.operate op).balancers.get? id = none := by
  -- what is changed in place was there before
  have hplace {c₁ : MemoryCloud} {svc : Service} {d old : Balancer} (ha : c.Alike c₁)
      (hf : c₁.find? svc = some (some old)) (hd : d.id = old.id) : (c₁.balancers.insert d.id d).get? id = none := by
    have hold := (ha.sound h).get?_of_find? hf
    have hne : d.id ≠ id := by
      intro he
      cases hnone.symm.trans (ha.1 ▸ he ▸ hd ▸ hold)
    rw [SortedMap.get?_insert, if_neg hne, ha.1, hnone]
  cases op with
  | seed name => exact (SortedMap.get?_insert ..).trans ((if_neg (Ne.symm hid)).trans hnone)
  | inject message => exact hnone
  | lookup svc => exact (c.lookup_alike svc).1 ▸ hnone
  | ensure svc nodes =>
    rcases c.ensure_cases svc nodes with ⟨ha, _⟩ | ⟨c₁, b, n, ha, _, _, _, he, ⟨_, old, hf, hi, _⟩ | ⟨rfl, _, hi, _⟩⟩
    · exact ha.1 ▸ hnone
    · simp only [MemoryCloud.operate, he]
      exact hplace ha hf hi
    · have hne : b.id ≠ id := by rwa [hi, ha.2, ne_comm]
      simp only [MemoryCloud.operate, he]
      rw [SortedMap.get?_insert, if_neg hne, ha.1, hnone]
  | delete svc =>
    rcases c.delete_cases svc with ⟨ha, _⟩ | ⟨c₁, b, ha, hf, _, ⟨_, he⟩ | ⟨_, he⟩⟩
    · exact ha.1 ▸ hnone
    · simp only [MemoryCloud.operate, he]
      rw [SortedMap.get?_erase, ha.1, hnone, ite_self]
    · simp only [MemoryCloud.operate, he]
      exact hplace (d := { b with listeners := [], backends := [] }) ha hf rfl

/-- An id that was given out is not given out again. -/
theorem Sound.get?_operateAll (h : c.Sound) {n : Nat} (hn : n ≤ c.allocated) (hnone : c.balancers.get? (idOf n) = none)
    (ops : List Operation) : (c.operateAll ops).balancers.get? (idOf n) = none := by
  induction ops generalizing c with
  | nil => exact hnone
  | cons op ops ih =>
    have hid : idOf n ≠ idOf (c.allocated + 1) := by
      intro he
      have := idOf_injective he
      omega
    exact ih (h.operate op) (Nat.le_trans hn (c.allocated_le_operate op)) (h.get?_operate hnone hid)

/-- No operation but a deletion takes anything away. -/
theorem Sound.operate_bare (h : c.Sound) (hb : c.balancers.get? id = some b) (hu : b.userManaged = true)
    (hn : ∀ svc, op = .delete svc → ¬c.TakesAway svc id) :
    ∃ b', (c.operate op).balancers.get? id = some b' ∧ b'.bare = b.bare := by
  cases op with
  | seed name => exact ⟨b, h.get?_new hb rfl, rfl⟩
  | inject message => exact ⟨b, hb, rfl⟩
  | lookup svc => exact ⟨b, (c.lookup_alike svc).1 ▸ hb, rfl⟩
  | ensure svc nodes => exact h.ensure_bare hb hu svc nodes
  | delete svc => exact h.delete_bare hb (hn svc rfl)

/-- A balancer that the controller does not own stays as it is, but for its traffic, exactly if no deletion takes it
away. -/
theorem Sound.operateAll_bare (h : c.Sound) {n : Nat} (hn : n ≤ c.allocated) (hb : c.balancers.get? (idOf n) = some b)
    (hu : b.userManaged = true) (ops : List Operation) :
    ((c.operateAll ops).balancers.get? (idOf n)).map Balancer.bare = some b.bare ↔
      ∀ before svc after, ops = before ++ .delete svc :: after → ¬(c.operateAll before).TakesAway svc (idOf n) := by
  induction ops generalizing c b with
  | nil => simp [operateAll, hb]
  | cons op ops ih =>
    by_cases htake : ∃ svc, op = .delete svc ∧ c.TakesAway svc (idOf n)
    · obtain ⟨svc, rfl, htake⟩ := htake
      have hgone := (h.delete svc).get?_operateAll (Nat.le_trans hn (c.allocated_le_operate (.delete svc)))
        (get?_delete_of_takesAway htake) ops
      constructor
      · intro hkept
        change ((operateAll (c.delete svc).2 ops).balancers.get? (idOf n)).map Balancer.bare = _ at hkept
        rw [hgone] at hkept
        cases hkept
      · exact fun hnot => absurd htake (hnot [] svc ops rfl)
    · have hnot : ∀ svc, op = .delete svc → ¬c.TakesAway svc (idOf n) := fun svc he ht => htake ⟨svc, he, ht⟩
      obtain ⟨b', hb', hbare⟩ := h.operate_bare hb hu hnot
      have hu' : b'.userManaged = true := (congrArg Balancer.userManaged hbare).trans hu
      rw [← hbare]
      refine (ih (h.operate op) (Nat.le_trans hn (c.allocated_le_operate op)) hb' hu').trans ?_
      constructor
      · intro hlater before svc after he
        rcases List.cons_eq_append_iff.mp he with ⟨rfl, hrest⟩ | ⟨before', rfl, hrest⟩
        · exact hnot svc (List.cons.inj hrest).1.symm
        · exact hlater before' svc after hrest
      · exact fun hall before svc after he => hall (op :: before) svc after (congrArg (op :: ·) he)

theorem Sound.operateAll (h : c.Sound) (ops : List Operation) : (c.operateAll ops).Sound := by
  induction ops generalizing c with
  | nil => exact h
  | cons op ops ih => exact ih (h.operate op)

/-- A balancer that was there before the controller is in the cloud for good, with the id, the name and the address that
it was registered with, no tags, and as nobody else's, whatever is asked of the cloud before and after: unless, and only
unless, a call is made with no failure waiting to delete the balancer of a service that names none by its id, and finds
this one by its name. -/
theorem seeded_stays_iff (rules : List ClassifierRule) (earlier : List Operation) (name : String)
    (later : List Operation) :
    let c := ({ rules } : MemoryCloud).operateAll earlier
    let id := (c.seed name).1
    (((c.seed name).2.operateAll later).balancers.get? id).map Balancer.bare =
        some { id, name, address := addressOf (c.allocated + 1), userManaged := true } ↔
      ∀ before svc after, later = before ++ .delete svc :: after →
        ¬((c.seed name).2.operateAll before).TakesAway svc id := by
  intro c id
  have hsound : c.Sound := Sound.operateAll ⟨by simp, by simp⟩ earlier
  have hseeded : (c.seed name).2.balancers.get? id =
      some { id, name, address := addressOf (c.allocated + 1), userManaged := true } :=
    (SortedMap.get?_insert ..).trans (if_pos rfl)
  exact (hsound.seed name).operateAll_bare (Nat.le_refl _) hseeded rfl later

private def plain (uid : String) : Service := { info := { name := some "web", ns := some "default", uid := some uid } }

/-- A balancer that was there before, and happens to bear the name that is made for a service, is taken away when the
balancer of the service is deleted. -/
theorem not_seeded_stays_namesake :
    ¬∀ (rules : List ClassifierRule) (earlier : List Operation) (name : String) (later : List Operation),
      let c := ({ rules } : MemoryCloud).operateAll earlier
      let id := (c.seed name).1
      (((c.seed name).2.operateAll later).balancers.get? id).map Balancer.bare =
        some { id, name, address := addressOf (c.allocated + 1), userManaged := true } := by
  intro hstays
  have hgone := hstays [] [] "au1" [.delete (plain "u1")]
  revert hgone
  decide +kernel

end MemoryCloud
end ServiceBalancer
