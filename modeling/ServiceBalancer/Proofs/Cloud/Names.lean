import ServiceBalancer.Proofs.Cloud.Holdings

/-! Names of balancers. A UID gives a name unless a character of it stands across the limit, and by the name a
service finds the balancer that the controller has made for it. -/
namespace ServiceBalancer

/-- Where each character takes one byte, the limit counts characters. -/
theorem cutBytes?_eq_take (limit : Nat) {l : List Char} (h : ∀ c ∈ l, c.utf8Size = 1) :
    cutBytes? limit l = some (l.take limit) := by
  induction l generalizing limit with
  | nil => cases limit <;> rfl
  | cons c rest ih =>
    cases limit with
    | zero => rfl
    | succ limit =>
      have hc : c.utf8Size = 1 := h c (.head _)
      have hrest := ih limit fun d hd => h d (.tail _ hd)
      simp only [cutBytes?, hc, Nat.le_add_left, if_true, Nat.add_sub_cancel, hrest, Option.map_some,
        List.take_succ_cons]

/-- A UID of ASCII characters gives a name. -/
theorem balancerNameOf?_of_ascii {uid : String} (h : ∀ c ∈ uid.toList, c.toNat < 128) :
    balancerNameOf? uid = some (.ofList (('a' :: uid.toList.filter (· ≠ '-')).take 32)) := by
  rw [balancerNameOf?, cutBytes?_eq_take, Option.map_some]
  intro c hc
  rcases List.mem_cons.mp hc with rfl | hc
  · rfl
  · have hascii := h c (List.mem_filter.mp hc).1
    refine Char.utf8Size_eq_one_iff.mpr ?_
    rw [UInt32.le_iff_toNat_le]
    exact Nat.le_of_lt_succ hascii

theorem isSome_balancerNameOf? {uid : String} (h : ∀ c ∈ uid.toList, c.toNat < 128) : (balancerNameOf? uid).isSome :=
  Option.isSome_of_eq_some (balancerNameOf?_of_ascii h)

/-- Whether the UID of a service is made of ASCII characters. -/
def Service.Ascii (svc : Service) : Prop := ∀ c ∈ (svc.info.uid.getD "").toList, c.toNat < 128

namespace MemoryCloud
variable {c c' : MemoryCloud} {svc : Service} {nodes : List Node} {name : String} {b : Balancer}

/-- A service with such a UID can be looked for. -/
theorem isSome_find?_of_ascii (c : MemoryCloud) (h : svc.Ascii) : (c.find? svc).isSome := by
  unfold find?
  split
  · rfl
  · rw [Option.isSome_map]
    exact isSome_balancerNameOf? h

theorem isSome_lookup (c : MemoryCloud) (h : svc.Ascii) : (c.lookup svc).1.isSome := by
  have hgo := c.looked svc
  generalize c.lookup svc = r at hgo ⊢
  cases hgo with
  | failed _ => rfl
  | told _ => exact (Option.isSome_map ..).trans (isSome_find?_of_ascii c h)

theorem isSome_ensure (c : MemoryCloud) (h : svc.Ascii) (nodes : List Node) : (c.ensure svc nodes).1.isSome := by
  have hgo := c.ensured svc nodes
  generalize c.ensure svc nodes = r at hgo ⊢
  cases hgo with
  | unnamed _ hnone => cases hnone ▸ isSome_find?_of_ascii c h
  | failed | updated | refused | extended => rfl

theorem isSome_delete (c : MemoryCloud) (h : svc.Ascii) : (c.delete svc).1.isSome := by
  have hgo := c.deleted svc
  generalize c.delete svc = r at hgo ⊢
  cases hgo with
  | unnamed _ hnone => cases hnone ▸ isSome_find?_of_ascii c h
  | failed | absent | emptied | stripped => rfl

theorem serves_of_name (hname : svc.balancerName?.isSome)
    (hid : ∀ id, svc.givenBalancerId? = some id → (c.balancers.get? id).isSome) : c.Serves svc := by
  unfold Serves find?
  split
  · next id he => exact ⟨_, rfl, fun _ => hid id he⟩
  · next he =>
    obtain ⟨name, hname⟩ := Option.isSome_iff_exists.mp hname
    rw [hname, he]
    exact ⟨_, rfl, fun h => by cases h⟩

/-! ### Balancers of the controller -/

/-- Whether the controller has a balancer of its own under a name. -/
def Bears (c : MemoryCloud) (name : String) : Prop := ∃ b ∈ c.balancers.values, b.name = name ∧ b.userManaged = false

instance (c : MemoryCloud) (name : String) : Decidable (c.Bears name) := inferInstanceAs (Decidable (∃ b ∈ _, _))

/-- Whether a balancer of the controller is the first of its name, so that a service finds it by the name. -/
def Sole (c : MemoryCloud) (name : String) : Prop :=
  ∀ b ∈ c.balancers.values, b.name = name → b.userManaged = false → c.balancers.values.find? (·.name = name) = some b

theorem sole_of_not_bears (h : ¬c.Bears name) : c.Sole name := fun b hb hn hu => absurd ⟨b, hb, hn, hu⟩ h

theorem Alike.bears (h : c.Alike c') : c'.Bears name ↔ c.Bears name := by rw [Bears, h.1, Bears]

theorem Alike.sole (h : c.Alike c') (hs : c.Sole name) : c'.Sole name := by rwa [Sole, h.1]

theorem mem_insert_balancer {x : Balancer} (h : x ∈ (c.balancers.insert b.id b).values) :
    x = b ∨ ∃ id, id ≠ b.id ∧ c.balancers.get? id = some x := by
  obtain ⟨id, hid⟩ := SortedMap.mem_values.mp h
  rw [SortedMap.get?_insert] at hid
  split at hid
  · exact .inl (Option.some.inj hid).symm
  · next hne => exact .inr ⟨id, Ne.symm hne, hid⟩

theorem mem_erase_balancer {x : Balancer} (h : x ∈ (c.balancers.erase b.id).values) :
    ∃ id, id ≠ b.id ∧ c.balancers.get? id = some x := by
  obtain ⟨id, hid⟩ := SortedMap.mem_values.mp h
  rw [SortedMap.get?_erase] at hid
  split at hid
  · cases hid
  · next hne => exact ⟨id, Ne.symm hne, hid⟩

/-- A balancer is at no other place than under its id. -/
theorem Sound.get?_ne {x : Balancer} {id other : String} (h : c.Sound) (hx : c.balancers.get? id = some x)
    (hne : id ≠ other) : c.balancers.get? other ≠ some x :=
  fun ho => hne ((h.keyed id x hx).symm.trans (h.keyed other x ho))

/-- A balancer that is changed in place stays the first of its name, or not. -/
theorem Sole.update (h : c.Sole name) (hs : c.Sound) {old : Balancer} (ho : c.balancers.get? old.id = some old)
    (hi : b.id = old.id) (hn : b.name = old.name) (hu : b.userManaged = old.userManaged) (n : Nat) :
    ({ c with allocated := n, balancers := c.balancers.insert b.id b } : MemoryCloud).Sole name := by
  intro x hx hxn hxu
  rcases mem_insert_balancer hx with rfl | ⟨id, hne, hid⟩
  · have hfirst := h old (SortedMap.mem_values.mpr ⟨_, ho⟩) (hn ▸ hxn) (hu ▸ hxu)
    refine SortedMap.find?_values_insert_same hfirst (fun k hk => ?_) (by simpa using hxn)
    rw [hi, hs.keyed k old hk]
  · have hfirst := h x (SortedMap.mem_values.mpr ⟨id, hid⟩) hxn hxu
    refine (SortedMap.find?_values_insert_other (fun v hv => ?_) fun hp => ⟨old, hi ▸ ho, by simpa [hn] using hp⟩).trans
      hfirst
    obtain rfl := Option.some.inj (hfirst.symm.trans hv)
    exact hs.get?_ne hid hne

/-- A new balancer is the first of its name if there is no other. -/
theorem Sole.create (h : c.Sole name) (hfree : c.balancers.get? b.id = none)
    (hnone : c.balancers.values.find? (fun x => x.name = b.name) = none) (n : Nat) :
    ({ c with allocated := n, balancers := c.balancers.insert b.id b } : MemoryCloud).Sole name := by
  intro x hx hxn hxu
  rcases mem_insert_balancer hx with rfl | ⟨id, hne, hid⟩
  · exact SortedMap.find?_values_insert_new (hxn ▸ hnone) (by simpa using hxn)
  · have hfirst := h x (SortedMap.mem_values.mpr ⟨id, hid⟩) hxn hxu
    refine (SortedMap.find?_values_insert_other (fun v _ => by simp [hfree]) fun hp => ?_).trans hfirst
    have hbn : b.name = name := by simpa using hp
    cases (hbn ▸ hnone).symm.trans hfirst

theorem Sole.erase (h : c.Sole name) (hs : c.Sound) (b : Balancer) :
    ({ c with balancers := c.balancers.erase b.id } : MemoryCloud).Sole name := by
  intro x hx hxn hxu
  obtain ⟨id, hne, hid⟩ := mem_erase_balancer hx
  have hfirst := h x (SortedMap.mem_values.mpr ⟨id, hid⟩) hxn hxu
  refine (SortedMap.find?_values_erase_other fun v hv => ?_).trans hfirst
  obtain rfl := Option.some.inj (hfirst.symm.trans hv)
  exact hs.get?_ne hid hne

theorem Sole.ensure (h : c.Sole name) (hs : c.Sound) (svc : Service) (nodes : List Node) :
    (c.ensure svc nodes).2.Sole name := by
  rcases c.ensure_cases svc nodes with
    ⟨ha, _⟩ | ⟨c₁, b, n, ha, _, _, _, he, ⟨_, old, hf, hi, hn, hu⟩ | ⟨rfl, hf, hi, hg, hn, _⟩⟩
  · exact ha.sole h
  · rw [he]
    exact (ha.sole h).update (ha.sound hs) ((ha.sound hs).get?_of_find? hf) hi hn hu n
  · rw [he]
    exact (ha.sole h).create (hi ▸ (ha.sound hs).fresh _ (Nat.lt_succ_self _)) (find?_name_eq_none hf hg hn) _

theorem Sole.delete (h : c.Sole name) (hs : c.Sound) (svc : Service) : (c.delete svc).2.Sole name := by
  rcases c.delete_cases svc with ⟨ha, _⟩ | ⟨c₁, b, ha, hf, _, ⟨_, he⟩ | ⟨_, he⟩⟩
  · exact ha.sole h
  · rw [he]
    exact (ha.sole h).erase (ha.sound hs) b
  · rw [he]
    exact (ha.sole h).update (b := { b with listeners := [], backends := [] }) (ha.sound hs)
      ((ha.sound hs).get?_of_find? hf) rfl rfl rfl c₁.allocated

/-- Only a service of that name gets a balancer of that name. -/
theorem bears_of_ensure (hs : c.Sound) (h : (c.ensure svc nodes).2.Bears name) :
    c.Bears name ∨ svc.givenBalancerId? = none ∧ svc.balancerName? = some name := by
  rcases c.ensure_cases svc nodes with ⟨ha, _⟩ | ⟨c₁, b, n, ha, _, _, _, he, hcase⟩
  · exact .inl (ha.bears.mp h)
  · rw [he] at h
    obtain ⟨x, hx, hxn, hxu⟩ := h
    rcases mem_insert_balancer hx with rfl | ⟨id, _, hid⟩
    · rcases hcase with ⟨_, old, hf, _, hn, hu⟩ | ⟨_, _, _, hg, hn, _⟩
      · have hold := (ha.sound hs).get?_of_find? hf
        exact .inl (ha.bears.mp ⟨old, SortedMap.mem_values.mpr ⟨_, hold⟩, hn ▸ hxn, hu ▸ hxu⟩)
      · exact .inr ⟨hg, hxn ▸ hn⟩
    · exact .inl (ha.bears.mp ⟨x, SortedMap.mem_values.mpr ⟨id, hid⟩, hxn, hxu⟩)

theorem bears_of_delete (hs : c.Sound) (h : (c.delete svc).2.Bears name) : c.Bears name := by
  rcases c.delete_cases svc with ⟨ha, _⟩ | ⟨c₁, b, ha, hf, _, ⟨_, he⟩ | ⟨_, he⟩⟩
  · exact ha.bears.mp h
  · rw [he] at h
    obtain ⟨x, hx, hxn, hxu⟩ := h
    obtain ⟨id, _, hid⟩ := mem_erase_balancer hx
    exact ha.bears.mp ⟨x, SortedMap.mem_values.mpr ⟨id, hid⟩, hxn, hxu⟩
  · rw [he] at h
    obtain ⟨x, hx, hxn, hxu⟩ := h
    have hb := (ha.sound hs).get?_of_find? hf
    rcases mem_insert_balancer (b := { b with listeners := [], backends := [] }) hx with rfl | ⟨id, _, hid⟩
    · exact ha.bears.mp ⟨b, SortedMap.mem_values.mpr ⟨_, hb⟩, hxn, hxu⟩
    · exact ha.bears.mp ⟨x, SortedMap.mem_values.mpr ⟨id, hid⟩, hxn, hxu⟩

private theorem not_bears_of_find?_none (hg : svc.givenBalancerId? = none) (hn : svc.balancerName? = some name)
    (hf : c.find? svc = some none) : ¬c.Bears name := by
  rintro ⟨x, hx, hxn, _⟩
  have hnone := List.find?_eq_none.mp (find?_name_eq_none hf hg hn) x hx
  simp [hxn] at hnone

/-- A deletion takes the balancer of the controller away. -/
theorem Sole.not_bears_of_delete (h : c.Sole name) (hs : c.Sound) (hg : svc.givenBalancerId? = none)
    (hn : svc.balancerName? = some name) (hr : (c.delete svc).1 = some (.ok ())) : ¬(c.delete svc).2.Bears name := by
  rcases c.delete_cases svc with ⟨ha, hnone⟩ | ⟨c₁, b, ha, hf, _, ⟨_, he⟩ | ⟨hid, _⟩⟩
  · exact fun hb => not_bears_of_find?_none hg hn (hnone hr) (ha.bears.mp hb)
  · rw [he]
    rintro ⟨x, hx, hxn, hxu⟩
    obtain ⟨id, hne, hid⟩ := mem_erase_balancer hx
    have hfirst := ha.sole h x (SortedMap.mem_values.mpr ⟨id, hid⟩) hxn hxu
    rw [find?_named hg hn hfirst] at hf
    obtain rfl := Option.some.inj (Option.some.inj hf)
    exact hne ((ha.sound hs).keyed id x hid).symm
  · simp [hg] at hid

/-- If a service is told to have no balancer, the controller has none under its name. -/
theorem not_bears_of_lookup (hg : svc.givenBalancerId? = none) (hn : svc.balancerName? = some name)
    (hr : (c.lookup svc).1 = some (.ok none)) : ¬(c.lookup svc).2.Bears name := by
  obtain ⟨found, hf, hfound⟩ := find?_of_lookup hr
  obtain rfl := Option.map_eq_none_iff.mp hfound.symm
  exact fun hb => not_bears_of_find?_none hg hn hf ((c.lookup_alike svc).bears.mp hb)

/-! ### What a service finds after a deletion -/

/-- Whether no two balancers bear the name that is made for a service. -/
def Unambiguous (c : MemoryCloud) (svc : Service) : Prop :=
  ∀ name, svc.balancerName? = some name → ∀ b ∈ c.balancers.values, ∀ b' ∈ c.balancers.values,
    b.name = name → b'.name = name → b = b'

theorem Alike.unambiguous (h : c.Alike c') (hu : c.Unambiguous svc) : c'.Unambiguous svc := by
  rwa [Unambiguous, h.1]

theorem unambiguous_delete (hg : svc.givenBalancerId? = none) (hu : c.Unambiguous svc) :
    (c.delete svc).2.Unambiguous svc := by
  rcases c.delete_cases svc with ⟨ha, _⟩ | ⟨c₁, b, ha, _, _, ⟨_, he⟩ | ⟨hid, _⟩⟩
  · exact ha.unambiguous hu
  · have former {x : Balancer} (hx : x ∈ (c₁.balancers.erase b.id).values) : x ∈ c.balancers.values := by
      obtain ⟨id, _, hid⟩ := mem_erase_balancer hx
      exact SortedMap.mem_values.mpr ⟨id, ha.1 ▸ hid⟩
    rw [he]
    exact fun name hn x hx x' hx' => hu name hn x (former hx) x' (former hx')
  · simp [hg] at hid

/-- After a deletion a service with a name of its own finds no balancer. -/
theorem Sound.find?_of_delete_named (h : c.Sound) (hg : svc.givenBalancerId? = none) (hn : c.Unambiguous svc)
    (hr : (c.delete svc).1 = some (.ok ())) : (c.delete svc).2.find? svc = some none := by
  rcases c.delete_cases svc with ⟨ha, hnone⟩ | ⟨c₁, b, ha, hf, _, ⟨_, he⟩ | ⟨hid, _⟩⟩
  · rw [ha.find? svc]
    exact hnone hr
  · have hb := (ha.sound h).get?_of_find? hf
    have hname := name_of_find? hg hf
    rw [he]
    simp only [find?, hg, hname, Option.map_some, Option.some.injEq]
    refine List.find?_eq_none.mpr fun x hx hxn => ?_
    obtain ⟨id, hne, hid⟩ := mem_erase_balancer hx
    have hxm : x ∈ c.balancers.values := SortedMap.mem_values.mpr ⟨id, ha.1 ▸ hid⟩
    have hbm : b ∈ c.balancers.values := SortedMap.mem_values.mpr ⟨b.id, ha.1 ▸ hb⟩
    obtain rfl := hn b.name hname x hxm b hbm (by simpa using hxn) rfl
    exact hne ((ha.sound h).keyed id x hid).symm
  · simp [hg] at hid

/-- After a deletion a service with a balancer that the user gave finds it empty. -/
theorem Sound.find?_of_delete_given (h : c.Sound) {id : String} (hg : svc.givenBalancerId? = some id)
    (hb : c.balancers.get? id = some b) (hr : (c.delete svc).1 = some (.ok ())) :
    (c.delete svc).2.find? svc = some (some { b with listeners := [], backends := [] }) := by
  have hfind : c.find? svc = some (some b) := by simp [find?, hg, hb]
  rcases c.delete_cases svc with ⟨_, hnone⟩ | ⟨c₁, d, ha, hf, _, ⟨hid, _⟩ | ⟨_, he⟩⟩
  · cases hfind.symm.trans (hnone hr)
  · cases hg.symm.trans hid
  · obtain rfl := Option.some.inj (Option.some.inj (hfind.symm.trans ((ha.find? svc).symm.trans hf)))
    rw [he]
    exact (ha.sound h).find?_insert_same (d := { b with listeners := [], backends := [] }) hf rfl rfl c₁.allocated

end MemoryCloud
end ServiceBalancer
