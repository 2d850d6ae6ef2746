import ServiceBalancer.Proofs.Cloud.Calls
import ServiceBalancer.Proofs.Data.SortedMap
import ServiceBalancer.Proofs.Text.Hex

/-! What a cloud in memory holds. Each balancer is kept under its id, and an id is given out once. A
call changes the balancer of its service, and no other. -/
namespace ServiceBalancer.MemoryCloud

theorem idOf_injective {m n : Nat} (h : idOf m = idOf n) : m = n := by
  have hl := congrArg String.toList h
  simp only [idOf, String.toList_ofList, List.append_cancel_left_eq] at hl
  have hv := congrArg Text.ofHexDigits hl
  simpa using hv

/-- Each balancer is kept under its id, and ids that are yet to be given out are free. -/
structure Sound (c : MemoryCloud) : Prop where
  keyed : ∀ id b, c.balancers.get? id = some b → b.id = id
  fresh : ∀ n, c.allocated < n → c.balancers.get? (idOf n) = none

theorem sound_empty : ({} : MemoryCloud).Sound := ⟨by simp, by simp⟩

theorem Sound.inject {c : MemoryCloud} (h : c.Sound) (message : String) : (c.inject message).Sound := ⟨h.keyed, h.fresh⟩

variable {c c' : MemoryCloud} {svc : Service} {nodes : List Node} {b d : Balancer}

/-- Putting a balancer under its id, be it there already or newly given out. -/
theorem Sound.insert (h : c.Sound) {n : Nat} (hn : c.allocated ≤ n)
    (hb : c.balancers.get? b.id ≠ none ∨ ∃ m, c.allocated < m ∧ m ≤ n ∧ b.id = idOf m) :
    ({ c with allocated := n, balancers := c.balancers.insert b.id b }).Sound where
  keyed id x hx := by
    dsimp only at hx
    rw [SortedMap.get?_insert] at hx
    split at hx
    · next he => rwa [← Option.some.inj hx]
    · exact h.keyed id x hx
  fresh m hm := by
    dsimp only at hm ⊢
    rw [SortedMap.get?_insert, if_neg, h.fresh m (by omega)]
    intro he
    rcases hb with hb | ⟨k, hk, hkn, hb⟩
    · exact hb (he ▸ h.fresh m (by omega))
    · have := idOf_injective (hb ▸ he)
      omega

theorem Sound.erase (h : c.Sound) (id : String) : ({ c with balancers := c.balancers.erase id }).Sound := by
  constructor
  · intro id' x hx
    dsimp only at hx
    rw [SortedMap.get?_erase] at hx
    split at hx
    · cases hx
    · exact h.keyed id' x hx
  · intro m hm
    simp [h.fresh m hm]

theorem Sound.seed (h : c.Sound) (name : String) : (c.seed name).2.Sound :=
  h.insert (Nat.le_succ _) (.inr ⟨_, Nat.lt_succ_self _, Nat.le_refl _, rfl⟩)

/-- The clouds that can come to be, from a new one on. -/
inductive Reachable : MemoryCloud → Prop where
  | new (rules : List ClassifierRule) : Reachable { rules }
  | seed {c : MemoryCloud} (name : String) : Reachable c → Reachable (c.seed name).2
  | inject {c : MemoryCloud} (message : String) : Reachable c → Reachable (c.inject message)
  | lookup {c : MemoryCloud} (svc : Service) : Reachable c → Reachable (c.lookup svc).2
  | ensure {c : MemoryCloud} (svc : Service) (nodes : List Node) : Reachable c → Reachable (c.ensure svc nodes).2
  | delete {c : MemoryCloud} (svc : Service) : Reachable c → Reachable (c.delete svc).2
  | clearCalls {c : MemoryCloud} : Reachable c → Reachable { c with calls := [] }

/-! ### Finding -/

/-- What a service finds is kept under its id. -/
theorem Sound.get?_of_find? (h : c.Sound) (hf : c.find? svc = some (some b)) : c.balancers.get? b.id = some b := by
  unfold find? at hf
  split at hf
  · next id _ =>
    have hg := Option.some.inj hf
    rwa [h.keyed id b hg]
  · obtain ⟨name, _, hv⟩ := Option.map_eq_some_iff.mp hf
    obtain ⟨id, hg, _⟩ := SortedMap.find?_values_eq_some.mp hv
    rwa [h.keyed id b hg]

/-- A balancer that is changed in place is found as before. -/
theorem Sound.find?_insert_same (h : c.Sound) (hf : c.find? svc = some (some b)) (hi : d.id = b.id)
    (hn : d.name = b.name) (n : Nat) :
    ({ c with allocated := n, balancers := c.balancers.insert d.id d }).find? svc = some (some d) := by
  unfold find? at hf ⊢
  split at hf
  · next id _ =>
    have hg := Option.some.inj hf
    simp [h.keyed id b hg, hi]
  · obtain ⟨name, hname, hv⟩ := Option.map_eq_some_iff.mp hf
    obtain ⟨_, _, hp, _⟩ := SortedMap.find?_values_eq_some.mp hv
    rw [hname, Option.map_some, SortedMap.find?_values_insert_same hv fun k hk => hi ▸ (h.keyed k b hk).symm]
    simpa [hn] using hp

/-- A balancer that is changed in place matters to those only who find it. -/
theorem find?_insert_other (hb : c.balancers.get? b.id = some b) (hi : d.id = b.id) (hn : d.name = b.name)
    (hf : c.find? svc ≠ some (some b)) (n : Nat) :
    ({ c with allocated := n, balancers := c.balancers.insert d.id d }).find? svc = c.find? svc := by
  unfold find? at hf ⊢
  rw [hi]
  split
  · next id he =>
    simp only [he] at hf
    have hne : b.id ≠ id := by
      rintro rfl
      exact hf (congrArg some hb)
    simp [hne]
  · next he =>
    simp only [he] at hf
    cases hname : svc.balancerName? with
    | none => rfl
    | some name =>
      rw [hname] at hf
      simp only [Option.map_some, ne_eq, Option.some.injEq] at hf ⊢
      refine SortedMap.find?_values_insert_other (fun x hx hg => ?_) fun hp => ⟨b, hb, by simpa [hn] using hp⟩
      rw [hb] at hg
      exact hf (Option.some.inj hg ▸ hx)

/-- A new balancer matters to those only who have found none and find it now. -/
theorem find?_insert_new (svc : Service) (hfree : c.balancers.get? b.id = none)
    (hnone : c.balancers.values.find? (fun x => x.name = b.name) = none) (n : Nat) :
    ({ c with allocated := n, balancers := c.balancers.insert b.id b }).find? svc = c.find? svc ∨
      c.find? svc = some none ∧
        ({ c with allocated := n, balancers := c.balancers.insert b.id b }).find? svc = some (some b) := by
  unfold find?
  split
  · next id he =>
    by_cases hi : b.id = id
    · subst hi
      exact .inr ⟨congrArg some hfree, by simp⟩
    · exact .inl (by simp [hi])
  · next he =>
    cases hname : svc.balancerName? with
    | none => exact .inl rfl
    | some name =>
      simp only [Option.map_some, Option.some.injEq]
      by_cases hn : b.name = name
      · subst hn
        exact .inr ⟨hnone, SortedMap.find?_values_insert_new hnone (by simp)⟩
      · refine .inl (SortedMap.find?_values_insert_other (fun x _ => by simp [hfree]) fun hp => ?_)
        exact absurd (by simpa using hp) hn

/-- A deleted balancer matters to those only who found it. -/
theorem find?_erase_other (hb : c.balancers.get? b.id = some b) (hf : c.find? svc ≠ some (some b)) :
    ({ c with balancers := c.balancers.erase b.id }).find? svc = c.find? svc := by
  unfold find? at hf ⊢
  split
  · next id he =>
    simp only [he] at hf
    have hne : b.id ≠ id := by
      rintro rfl
      exact hf (congrArg some hb)
    simp [hne]
  · next he =>
    simp only [he] at hf
    cases hname : svc.balancerName? with
    | none => rfl
    | some name =>
      rw [hname] at hf
      simp only [Option.map_some, ne_eq, Option.some.injEq] at hf ⊢
      refine SortedMap.find?_values_erase_other fun x hx hg => ?_
      rw [hb] at hg
      exact hf (Option.some.inj hg ▸ hx)

/-! ### Calls -/

theorem Alike.sound (h : c.Alike c') (hs : c.Sound) : c'.Sound where
  keyed := h.1 ▸ hs.keyed
  fresh := by rw [h.1, h.2]; exact hs.fresh

/-- What a call may do that is to create or update. It fails and changes nothing, or it sets up a balancer:
the one that is found, or a new one if there is none. -/
theorem ensure_cases (c : MemoryCloud) (svc : Service) (nodes : List Node) :
    c.Alike (c.ensure svc nodes).2 ∧ (∀ status, (c.ensure svc nodes).1 ≠ some (.ok status)) ∨
    ∃ c₁ b n, c.Alike c₁ ∧ b.listeners = svc.listeners ∧ b.backends = nodes.map Node.name ∧
      (b.userManaged = false → b.tags = svc.tags) ∧
      c.ensure svc nodes = (some (.ok b.status), { c₁ with allocated := n, balancers := c₁.balancers.insert b.id b }) ∧
      ((n = c₁.allocated ∧ ∃ old, c₁.find? svc = some (some old) ∧ b.id = old.id ∧ b.name = old.name ∧
          b.userManaged = old.userManaged) ∨
        n = c₁.allocated + 1 ∧ c₁.find? svc = some none ∧ b.id = idOf n ∧ svc.givenBalancerId? = none ∧
          svc.balancerName? = some b.name ∧ b.userManaged = false) := by
  have hgo := c.ensured svc nodes
  generalize c.ensure svc nodes = r at hgo ⊢
  cases hgo with
  | failed _ => exact .inl ⟨c.alike_noted _, by simp⟩
  | unnamed _ _ => exact .inl ⟨c.alike_noted _, by simp⟩
  | refused _ _ _ => exact .inl ⟨c.alike_noted _, by simp⟩
  | @updated b _ hfind =>
    have htags : (configure b svc nodes).userManaged = false → (configure b svc nodes).tags = svc.tags := by
      intro hown
      have hown : b.userManaged = false := hown
      simp [configure, hown]
    exact .inr ⟨c.asked svc nodes, configure b svc nodes, _, c.alike_noted _, rfl, rfl, htags, rfl,
      .inl ⟨rfl, b, (c.find?_noted _ svc).trans hfind, rfl, rfl, rfl⟩⟩
  | @extended name _ hfind hg hn =>
    exact .inr ⟨c.asked svc nodes, configure (blank (c.allocated + 1) name) svc nodes, _, c.alike_noted _, rfl, rfl,
      fun _ => rfl, rfl, .inr ⟨rfl, (c.find?_noted _ svc).trans hfind, rfl, hg, hn, rfl⟩⟩

theorem Sound.ensure (h : c.Sound) (svc : Service) (nodes : List Node) : (c.ensure svc nodes).2.Sound := by
  rcases c.ensure_cases svc nodes with ⟨ha, _⟩ | ⟨c₁, b, n, ha, _, _, _, he, ⟨rfl, old, hf, hi, _⟩ | ⟨rfl, _, hi, _, _⟩⟩
  · exact ha.sound h
  · rw [he]
    have hb := (ha.sound h).get?_of_find? hf
    exact (ha.sound h).insert (Nat.le_refl _) (.inl (by simp [hi, hb]))
  · rw [he]
    exact (ha.sound h).insert (Nat.le_succ _) (.inr ⟨_, Nat.lt_succ_self _, Nat.le_refl _, hi⟩)

theorem find?_name_eq_none {c : MemoryCloud} {name : String} (hf : c.find? svc = some none)
    (hg : svc.givenBalancerId? = none) (hn : svc.balancerName? = some name) :
    c.balancers.values.find? (fun x => x.name = name) = none := by
  simpa [find?, hg, hn] using hf

theorem find?_named {c : MemoryCloud} {name : String} {b : Balancer} (hg : svc.givenBalancerId? = none)
    (hn : svc.balancerName? = some name) (hv : c.balancers.values.find? (fun x => x.name = name) = some b) :
    c.find? svc = some (some b) := by
  simp [find?, hg, hn, hv]

/-- A service without an id finds only what bears its name. -/
theorem name_of_find? (hg : svc.givenBalancerId? = none) (hf : c.find? svc = some (some b)) :
    svc.balancerName? = some b.name := by
  simp only [find?, hg] at hf
  obtain ⟨name, hname, hv⟩ := Option.map_eq_some_iff.mp hf
  have hb : b.name = name := by simpa using List.find?_some hv
  rw [hname, hb]

/-- A service finds a balancer under the id it gives, or else one of its name. -/
theorem Sound.place_of_find? (h : c.Sound) (hf : c.find? svc = some (some b)) :
    svc.givenBalancerId? = some b.id ∨ svc.givenBalancerId? = none ∧ svc.balancerName? = some b.name := by
  cases hg : svc.givenBalancerId? with
  | some id =>
    simp only [find?, hg, Option.some.injEq] at hf
    exact .inl (by rw [h.keyed id b hf])
  | none => exact .inr ⟨rfl, name_of_find? hg hf⟩

/-- After a successful call the balancer of the service has its listeners, the nodes as backends, its tags if
the controller owns it, and the status that was told. -/
theorem Sound.ensure_ok (h : c.Sound) {status : BalancerStatus} (hr : (c.ensure svc nodes).1 = some (.ok status)) :
    ∃ b, (c.ensure svc nodes).2.find? svc = some (some b) ∧ b.listeners = svc.listeners ∧
      b.backends = nodes.map Node.name ∧ (b.userManaged = false → b.tags = svc.tags) ∧ b.status = status := by
  rcases c.ensure_cases svc nodes with ⟨_, hne⟩ | ⟨c₁, b, n, ha, hl, hb, ht, he, hcase⟩
  · exact absurd hr (hne status)
  · rw [he] at hr ⊢
    refine ⟨b, ?_, hl, hb, ht, Except.ok.inj (Option.some.inj hr)⟩
    rcases hcase with ⟨_, old, hf, hi, hn, _⟩ | ⟨_, hf, _, hg, hn, _⟩
    · exact (ha.sound h).find?_insert_same hf hi hn n
    · exact find?_named hg hn (SortedMap.find?_values_insert_new (find?_name_eq_none hf hg hn) (by simp))

/-- A call that fails leaves the balancers as they are. -/
theorem ensure_failed (hr : ∀ status, (c.ensure svc nodes).1 ≠ some (.ok status)) : c.Alike (c.ensure svc nodes).2 := by
  rcases c.ensure_cases svc nodes with ⟨ha, _⟩ | ⟨_, _, _, _, _, _, _, he, _⟩
  · exact ha
  · exact absurd (congrArg Prod.fst he) (hr _)

/-- A call for one service changes what another finds only if they find the same, and then it is still the balancer that
the other has found before, if it has found one. -/
theorem Sound.ensure_other (h : c.Sound) (svc other : Service) (nodes : List Node) :
    (c.ensure svc nodes).2.find? other = c.find? other ∨
      ∃ b, (c.ensure svc nodes).2.find? other = some (some b) ∧ (c.ensure svc nodes).2.find? svc = some (some b) ∧
        ∀ x, c.find? other = some (some x) → b.id = x.id := by
  rcases c.ensure_cases svc nodes with ⟨ha, _⟩ | ⟨c₁, b, n, ha, _, _, _, he, ⟨_, old, hf, hi, hn, _⟩ | ⟨rfl, hf, hi, hg, hn, _⟩⟩
  · exact .inl (ha.find? other)
  · rw [he, ← ha.find? other]
    by_cases ho : c₁.find? other = some (some old)
    · refine .inr ⟨b, (ha.sound h).find?_insert_same ho hi hn n, (ha.sound h).find?_insert_same hf hi hn n, fun x hx => ?_⟩
      obtain rfl := Option.some.inj (Option.some.inj (ho.symm.trans hx))
      exact hi
    · exact .inl (find?_insert_other ((ha.sound h).get?_of_find? hf) hi hn ho n)
  · rw [he, ← ha.find? other]
    have hfree : c₁.balancers.get? b.id = none := hi ▸ (ha.sound h).fresh _ (Nat.lt_succ_self _)
    have hnone := find?_name_eq_none hf hg hn
    rcases find?_insert_new other hfree hnone (c₁.allocated + 1) with ho | ⟨hother, ho⟩
    · exact .inl ho
    · refine .inr ⟨b, ho, find?_named hg hn (SortedMap.find?_values_insert_new hnone (by simp)), fun x hx => ?_⟩
      cases hother.symm.trans hx

/-! ### Deletions -/

/-- What a deletion may do: nothing if it fails or there is no balancer; else the balancer that is found
goes, or is emptied. -/
theorem delete_cases (c : MemoryCloud) (svc : Service) :
    c.Alike (c.delete svc).2 ∧ ((c.delete svc).1 = some (.ok ()) → c.find? svc = some none) ∨
    ∃ c₁ b, c.Alike c₁ ∧ c₁.find? svc = some (some b) ∧ (c.delete svc).1 = some (.ok ()) ∧
      (svc.givenBalancerId? = none ∧ (c.delete svc).2 = { c₁ with balancers := c₁.balancers.erase b.id } ∨
        svc.givenBalancerId?.isSome ∧ (c.delete svc).2 =
          { c₁ with balancers := c₁.balancers.insert b.id { b with listeners := [], backends := [] } }) := by
  have hgo := c.deleted svc
  generalize c.delete svc = r at hgo ⊢
  cases hgo with
  | failed _ => exact .inl ⟨c.alike_noted _, by simp⟩
  | unnamed _ _ => exact .inl ⟨c.alike_noted _, by simp⟩
  | absent _ hfind => exact .inl ⟨c.alike_noted _, fun _ => hfind⟩
  | @emptied b _ hfind hg =>
    exact .inr ⟨c.dismissed svc, b, c.alike_noted _, (c.find?_noted _ svc).trans hfind, rfl, .inr ⟨hg, rfl⟩⟩
  | @stripped b _ hfind hg =>
    exact .inr ⟨c.dismissed svc, b, c.alike_noted _, (c.find?_noted _ svc).trans hfind, rfl, .inl ⟨hg, rfl⟩⟩

theorem Sound.delete (h : c.Sound) (svc : Service) : (c.delete svc).2.Sound := by
  rcases c.delete_cases svc with ⟨ha, _⟩ | ⟨c₁, b, ha, hf, _, ⟨_, he⟩ | ⟨_, he⟩⟩
  · exact ha.sound h
  · rw [he]
    exact (ha.sound h).erase b.id
  · rw [he]
    have hb := (ha.sound h).get?_of_find? hf
    exact (ha.sound h).insert (b := { b with listeners := [], backends := [] }) (Nat.le_refl _) (.inl (by simp [hb]))

theorem delete_failed (hr : (c.delete svc).1 ≠ some (.ok ())) : c.Alike (c.delete svc).2 := by
  rcases c.delete_cases svc with ⟨ha, _⟩ | ⟨c₁, b, ha, _, he, _⟩
  · exact ha
  · exact absurd he hr

/-- A deletion for one service changes what another finds only if they found the same. -/
theorem Sound.delete_other (h : c.Sound) (svc other : Service) : (c.delete svc).2.find? other = c.find? other ∨
    ∃ b, c.find? svc = some (some b) ∧ c.find? other = some (some b) := by
  rcases c.delete_cases svc with ⟨ha, _⟩ | ⟨c₁, b, ha, hf, _, he⟩
  · exact .inl (ha.find? other)
  · by_cases ho : c₁.find? other = some (some b)
    · exact .inr ⟨b, (ha.find? svc).symm.trans hf, (ha.find? other).symm.trans ho⟩
    · have hb := (ha.sound h).get?_of_find? hf
      refine .inl (.trans ?_ (ha.find? other))
      rcases he with ⟨_, he⟩ | ⟨_, he⟩
      · rw [he]
        exact find?_erase_other hb ho
      · rw [he]
        exact find?_insert_other (d := { b with listeners := [], backends := [] }) hb rfl rfl ho c₁.allocated

theorem Reachable.sound (h : c.Reachable) : c.Sound := by
  induction h with
  | new => exact ⟨by simp, by simp⟩
  | seed name _ ih => exact ih.seed name
  | inject message _ ih => exact ih.inject message
  | lookup svc _ ih => exact (lookup_alike _ svc).sound ih
  | ensure svc nodes _ ih => exact ih.ensure svc nodes
  | delete svc _ ih => exact ih.delete svc
  | clearCalls _ ih => exact ⟨ih.keyed, ih.fresh⟩

/-! ### Calls that succeed -/

/-- Whether a service can be given a balancer: one can be looked for, and one that the user named is there. -/
def Serves (c : MemoryCloud) (svc : Service) : Prop :=
  ∃ found, c.find? svc = some found ∧ (svc.givenBalancerId?.isSome → found.isSome)

/-- Whether a balancer can be looked for is told by the service alone. -/
theorem isSome_find? (c c' : MemoryCloud) (svc : Service) : (c'.find? svc).isSome = (c.find? svc).isSome := by
  unfold find?
  split
  · rfl
  · simp

/-- What a service finds is what it is told. -/
theorem find?_of_lookup {told : Option BalancerDescriptor} (hr : (c.lookup svc).1 = some (.ok told)) :
    ∃ found, c.find? svc = some found ∧ told = found.map Balancer.descriptor := by
  have hgo := c.looked svc
  generalize c.lookup svc = r at hgo hr
  cases hgo with
  | failed _ => cases hr
  | told _ =>
    obtain ⟨found, hfind, htold⟩ := Option.map_eq_some_iff.mp hr
    exact ⟨found, hfind, (Except.ok.inj htold).symm⟩

theorem lookup_calm {found : Option Balancer} (hf : c.failures = []) (hfind : c.find? svc = some found) :
    (c.lookup svc).1 = some (.ok (found.map Balancer.descriptor)) ∧ (c.lookup svc).2.failures = [] := by
  refine ⟨?_, (c.notes_lookup svc).failures.trans (congrArg List.tail hf)⟩
  have hgo := c.looked svc
  generalize c.lookup svc = r at hgo ⊢
  cases hgo with
  | failed hfails => cases hf.symm.trans hfails
  | told _ => simp only [hfind, Option.map_some]

theorem delete_calm {found : Option Balancer} (hf : c.failures = []) (hfind : c.find? svc = some found) :
    (c.delete svc).1 = some (.ok ()) ∧ (c.delete svc).2.failures = [] := by
  refine ⟨?_, (c.notes_delete svc).failures.trans (congrArg List.tail hf)⟩
  have hgo := c.deleted svc
  generalize c.delete svc = r at hgo ⊢
  cases hgo with
  | failed hfails => cases hf.symm.trans hfails
  | unnamed _ hnone => cases hfind.symm.trans hnone
  | absent | emptied | stripped => rfl

/-- A deletion that succeeds has met no failure. -/
theorem calm_of_delete (hr : (c.delete svc).1 = some (.ok ())) : c.failures = [] := by
  have hgo := c.deleted svc
  generalize c.delete svc = r at hgo hr
  cases hgo with
  | failed _ => cases hr
  | unnamed hf _ => exact hf
  | absent hf _ => exact hf
  | emptied hf _ _ => exact hf
  | stripped hf _ _ => exact hf

theorem Serves.ensure (h : c.Serves svc) (hf : c.failures = []) (nodes : List Node) :
    (∃ status, (c.ensure svc nodes).1 = some (.ok status)) ∧ (c.ensure svc nodes).2.failures = [] := by
  refine ⟨?_, (c.notes_ensure svc nodes).failures.trans (congrArg List.tail hf)⟩
  obtain ⟨found, hfind, hgiven⟩ := h
  have hgo := c.ensured svc nodes
  generalize c.ensure svc nodes = r at hgo ⊢
  cases hgo with
  | failed hfails => cases hf.symm.trans hfails
  | unnamed _ hnone => cases hfind.symm.trans hnone
  | updated _ _ => exact ⟨_, rfl⟩
  | refused _ hnone hg =>
    obtain rfl := Option.some.inj (hfind.symm.trans hnone)
    cases hgiven (by simp [hg])
  | extended _ _ _ _ => exact ⟨_, rfl⟩

/-- After a deletion a service can be given a balancer again. -/
theorem Serves.delete (h : c.Serves svc) (hs : c.Sound) (hf : c.failures = []) :
    (c.delete svc).1 = some (.ok ()) ∧ (c.delete svc).2.Serves svc ∧ (c.delete svc).2.failures = [] := by
  obtain ⟨found, hfind, hgiven⟩ := h
  obtain ⟨hok, hcalm⟩ := delete_calm hf hfind
  refine ⟨hok, ?_, hcalm⟩
  have hgo := c.deleted svc
  generalize c.delete svc = r at hgo ⊢
  cases hgo with
  | failed hfails => cases hf.symm.trans hfails
  | unnamed _ hnone => cases hfind.symm.trans hnone
  | absent _ hnone =>
    obtain rfl := Option.some.inj (hfind.symm.trans hnone)
    exact ⟨none, (c.find?_noted _ svc).trans hnone, hgiven⟩
  | @emptied b _ hfound hg =>
    exact ⟨_, hs.find?_insert_same (d := { b with listeners := [], backends := [] }) hfound rfl rfl c.allocated,
      fun _ => rfl⟩
  | @stripped b _ hfound hg =>
    have hsome := isSome_find? c (c.stripped svc b) svc
    rw [hfound] at hsome
    obtain ⟨found, hfound⟩ := Option.isSome_iff_exists.mp hsome
    exact ⟨found, hfound, fun h => by simp [hg] at h⟩

end ServiceBalancer.MemoryCloud
