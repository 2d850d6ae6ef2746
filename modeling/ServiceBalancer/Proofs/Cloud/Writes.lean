import ServiceBalancer.Proofs.Cloud.Names

/-! What successful calls leave in a cloud that are all made for one service, in whatever versions of it. Each version
names a place for its balancer, an id that the user gave or the name made from the UID, and a place is as the last
call for it has left it. -/
namespace ServiceBalancer

inductive Write where
  | ensure (svc : Service) (nodes : List Node)
  | delete (svc : Service)

namespace Write

def service : Write → Service
  | ensure svc _ | delete svc => svc

/-- The id of the balancer that a call was about. There is none if that goes by its name. -/
def place (w : Write) : Option String := w.service.givenBalancerId?

def leaves : Write → List Listener × List String
  | ensure svc nodes => (svc.listeners, nodes.map Node.name)
  | delete _ => ([], [])

/-- The last call about a place, the newest call being the first of the list. -/
def lastAt? (place : Option String) (writes : List Write) : Option Write := writes.find? (·.place = place)

variable {w : Write} {writes : List Write} {place : Option String}

theorem lastAt?_cons_same : lastAt? w.place (w :: writes) = some w := by simp [lastAt?]

theorem lastAt?_cons_other (h : w.place ≠ place) : lastAt? place (w :: writes) = lastAt? place writes := by
  simp [lastAt?, h]

end Write

def Balancer.holdings (b : Balancer) : List Listener × List String := (b.listeners, b.backends)

namespace MemoryCloud
open Write
variable {name : String} {start c c' : MemoryCloud} {writes : List Write} {w : Write} {svc : Service} {b old : Balancer}
  {n : Nat} {nodes : List Node}

/-- Whether a cloud is as calls have left it that were made for services of one name. There is a balancer of the name
if the last call about it was to ensure one; any other was there before, and has what the last call about its id has
left. -/
structure LeftBy (name : String) (c start : MemoryCloud) (writes : List Write) : Prop where
  sound : c.Sound
  own : ∀ id b, c.balancers.get? id = some b → b.name = name → b.userManaged = false
  one : ∀ id b id' b', c.balancers.get? id = some b → c.balancers.get? id' = some b' → b.name = name →
    b'.name = name → id = id'
  made : (∃ id b, c.balancers.get? id = some b ∧ b.name = name) ↔
    ∃ svc nodes, lastAt? none writes = some (.ensure svc nodes)
  others : ∀ id b, c.balancers.get? id = some b → b.name ≠ name → ∃ b₀, start.balancers.get? id = some b₀ ∧
    b.userManaged = b₀.userManaged ∧ b.holdings = ((lastAt? (some id) writes).map leaves).getD b₀.holdings

theorem leftBy_start (hs : start.Sound) (hn : ∀ b ∈ start.balancers.values, b.name ≠ name) :
    start.LeftBy name start [] := by
  have hne {id : String} {b : Balancer} (hb : start.balancers.get? id = some b) : b.name ≠ name :=
    hn b (SortedMap.mem_values.mpr ⟨id, hb⟩)
  refine ⟨hs, fun id b hb h => absurd h (hne hb), fun id b _ _ hb _ h => absurd h (hne hb), ?_, ?_⟩
  · constructor
    · rintro ⟨id, b, hb, h⟩
      exact absurd h (hne hb)
    · rintro ⟨_, _, h⟩
      cases h
  · exact fun id b hb _ => ⟨b, hb, rfl, rfl⟩

theorem LeftBy.bears (h : c.LeftBy name start writes) :
    c.Bears name ↔ ∃ svc nodes, lastAt? none writes = some (.ensure svc nodes) := by
  rw [← h.made]
  constructor
  · rintro ⟨b, hm, hn, _⟩
    obtain ⟨id, hb⟩ := SortedMap.mem_values.mp hm
    exact ⟨id, b, hb, hn⟩
  · rintro ⟨id, b, hb, hn⟩
    exact ⟨b, SortedMap.mem_values.mpr ⟨id, hb⟩, hn, h.own id b hb hn⟩

theorem LeftBy.alike (h : c.LeftBy name start writes) (ha : c.Alike c') : c'.LeftBy name start writes := by
  refine ⟨ha.sound h.sound, ?_, ?_, ?_, ?_⟩
  all_goals rw [ha.1]
  · exact h.own
  · exact h.one
  · exact h.made
  · exact h.others

private theorem get?_insert_cases {id : String} {x : Balancer} (h : (c.balancers.insert b.id b).get? id = some x) :
    id = b.id ∧ x = b ∨ id ≠ b.id ∧ c.balancers.get? id = some x := by
  rw [SortedMap.get?_insert] at h
  split at h
  · next he => exact .inl ⟨he.symm, (Option.some.inj h).symm⟩
  · next he => exact .inr ⟨Ne.symm he, h⟩

private theorem LeftBy.others_cons (h : c.LeftBy name start writes) {id : String} {x : Balancer}
    (hx : c.balancers.get? id = some x) (hxn : x.name ≠ name) (hw : w.place ≠ some id) :
    ∃ b₀, start.balancers.get? id = some b₀ ∧ x.userManaged = b₀.userManaged ∧
      x.holdings = ((lastAt? (some id) (w :: writes)).map leaves).getD b₀.holdings := by
  rw [lastAt?_cons_other hw]
  exact h.others id x hx hxn

private theorem LeftBy.update (h : c.LeftBy name start writes) (hn : w.service.balancerName? = some name)
    (hf : c.find? w.service = some (some old)) (hi : b.id = old.id) (hb : b.name = old.name)
    (hu : b.userManaged = old.userManaged) (hl : b.holdings = w.leaves)
    (hm : w.place = none → ∃ svc nodes, w = .ensure svc nodes)
    (hs : ({ c with allocated := n, balancers := c.balancers.insert b.id b } : MemoryCloud).Sound) :
    ({ c with allocated := n, balancers := c.balancers.insert b.id b } : MemoryCloud).LeftBy name start (w :: writes) := by
  have hold : c.balancers.get? b.id = some old := hi ▸ h.sound.get?_of_find? hf
  have hplace : w.place = some b.id ∨ w.place = none ∧ b.name = name := by
    rw [hi, hb]
    refine (h.sound.place_of_find? hf).imp_right fun ⟨hg, hname⟩ => ⟨hg, ?_⟩
    exact Option.some.inj (hname.symm.trans hn)
  -- A balancer that there is now was there before, with the same name and the same owner.
  have former {id : String} {x : Balancer} (hx : (c.balancers.insert b.id b).get? id = some x) :
      ∃ y, c.balancers.get? id = some y ∧ y.name = x.name ∧ y.userManaged = x.userManaged := by
    rcases get?_insert_cases hx with ⟨rfl, rfl⟩ | ⟨_, hx⟩
    · exact ⟨old, hold, hb.symm, hu.symm⟩
    · exact ⟨x, hx, rfl, rfl⟩
  refine ⟨hs, fun id x hx hxn => ?_, fun id x id' x' hx hx' hxn hxn' => ?_, ?_, fun id x hx hxn => ?_⟩
  · obtain ⟨y, hy, hyn, hyu⟩ := former hx
    exact hyu ▸ h.own id y hy (hyn.trans hxn)
  · obtain ⟨y, hy, hyn, _⟩ := former hx
    obtain ⟨y', hy', hyn', _⟩ := former hx'
    exact h.one id y id' y' hy hy' (hyn.trans hxn) (hyn'.trans hxn')
  · have hsame : (∃ id x, (c.balancers.insert b.id b).get? id = some x ∧ x.name = name) ↔
        ∃ id x, c.balancers.get? id = some x ∧ x.name = name := by
      constructor
      · rintro ⟨id, x, hx, hxn⟩
        obtain ⟨y, hy, hyn, _⟩ := former hx
        exact ⟨id, y, hy, hyn.trans hxn⟩
      · rintro ⟨id, x, hx, hxn⟩
        by_cases hid : b.id = id
        · obtain rfl := Option.some.inj (hold.symm.trans (hid ▸ hx))
          exact ⟨b.id, b, by simp, hb.trans hxn⟩
        · exact ⟨id, x, by rw [SortedMap.get?_insert, if_neg hid, hx], hxn⟩
    refine hsame.trans ?_
    rcases hplace with hg | ⟨hg, hbn⟩
    · rw [lastAt?_cons_other (by simp [hg])]
      exact h.made
    · obtain ⟨svc, nodes, rfl⟩ := hm hg
      rw [← hg, lastAt?_cons_same]
      exact ⟨fun _ => ⟨svc, nodes, rfl⟩, fun _ => ⟨b.id, old, hold, hb.symm.trans hbn⟩⟩
  · rcases get?_insert_cases hx with ⟨rfl, rfl⟩ | ⟨hid, hx⟩
    · obtain ⟨b₀, hb₀, hown, _⟩ := h.others x.id old hold (hb ▸ hxn)
      have hgiven : w.place = some x.id := hplace.resolve_right fun hnamed => hxn hnamed.2
      exact ⟨b₀, hb₀, hu.trans hown, by rw [← hgiven, lastAt?_cons_same]; exact hl⟩
    · refine h.others_cons hx hxn ?_
      rcases hplace with hg | ⟨hg, _⟩
      · rw [hg]
        exact fun he => hid (Option.some.inj he).symm
      · simp [hg]

private theorem LeftBy.create (h : c.LeftBy name start writes) (hg : svc.givenBalancerId? = none)
    (hf : c.balancers.values.find? (fun x => x.name = name) = none) (hb : b.name = name) (hu : b.userManaged = false)
    (hs : ({ c with allocated := n, balancers := c.balancers.insert b.id b } : MemoryCloud).Sound) :
    ({ c with allocated := n, balancers := c.balancers.insert b.id b } : MemoryCloud).LeftBy name start
      (.ensure svc nodes :: writes) := by
  have hnone {id : String} {x : Balancer} (hx : c.balancers.get? id = some x) : x.name ≠ name := by
    simpa using List.find?_eq_none.mp hf x (SortedMap.mem_values.mpr ⟨id, hx⟩)
  have only {id : String} {x : Balancer} (hx : (c.balancers.insert b.id b).get? id = some x) (hxn : x.name = name) :
      id = b.id ∧ x = b := (get?_insert_cases hx).resolve_right fun hold => hnone hold.2 hxn
  refine ⟨hs, fun id x hx hxn => ?_, fun id x id' x' hx hx' hxn hxn' => ?_, ?_, fun id x hx hxn => ?_⟩
  · rw [(only hx hxn).2, hu]
  · rw [(only hx hxn).1, (only hx' hxn').1]
  · rw [← hg]
    exact ⟨fun _ => ⟨svc, nodes, lastAt?_cons_same⟩, fun _ => ⟨b.id, b, by simp, hb⟩⟩
  · rcases get?_insert_cases hx with ⟨_, rfl⟩ | ⟨_, hx⟩
    · exact absurd hb hxn
    · refine h.others_cons hx hxn ?_
      rw [place, service, hg]
      exact (Option.some_ne_none id).symm

theorem LeftBy.ensure (h : c.LeftBy name start writes) (hn : svc.balancerName? = some name) {status : BalancerStatus}
    (hr : (c.ensure svc nodes).1 = some (.ok status)) :
    (c.ensure svc nodes).2.LeftBy name start (.ensure svc nodes :: writes) := by
  have hs := h.sound.ensure svc nodes
  rcases c.ensure_cases svc nodes with
    ⟨_, hne⟩ | ⟨c₁, b, n, ha, hl, hb, _, he, ⟨_, old, hf, hi, hbn, hu⟩ | ⟨rfl, hf, hi, hg, hbn, hu⟩⟩
  · exact absurd hr (hne status)
  · rw [he] at hs ⊢
    exact (h.alike ha).update hn hf hi hbn hu (Prod.ext hl hb) (fun _ => ⟨svc, nodes, rfl⟩) hs
  · rw [he] at hs ⊢
    exact (h.alike ha).create hg (find?_name_eq_none hf hg hn) (Option.some.inj (hbn.symm.trans hn)) hu hs

private theorem LeftBy.remove (h : c.LeftBy name start writes) (hg : svc.givenBalancerId? = none) (hs : c'.Sound)
    (hstays : ∀ id x, c'.balancers.get? id = some x → c.balancers.get? id = some x ∧ x.name ≠ name) :
    c'.LeftBy name start (.delete svc :: writes) := by
  refine ⟨hs, fun id x hx hxn => ?_, fun id x _ _ hx _ hxn _ => ?_, ?_, fun id x hx hxn => ?_⟩
  · exact absurd hxn (hstays id x hx).2
  · exact absurd hxn (hstays id x hx).2
  · rw [← hg]
    constructor
    · rintro ⟨id, x, hx, hxn⟩
      exact absurd hxn (hstays id x hx).2
    · rintro ⟨_, _, hlast⟩
      cases lastAt?_cons_same.symm.trans hlast
  · refine h.others_cons (hstays id x hx).1 hxn ?_
    rw [place, service, hg]
    exact (Option.some_ne_none id).symm

private theorem LeftBy.missing (h : c.LeftBy name start writes) {id : String} (hg : w.place = some id)
    (hb : c.balancers.get? id = none) : c.LeftBy name start (w :: writes) := by
  refine ⟨h.sound, h.own, h.one, ?_, fun id' x hx hxn => ?_⟩
  · rw [lastAt?_cons_other (by simp [hg])]
    exact h.made
  · refine h.others_cons hx hxn fun he => ?_
    cases hg.symm.trans he
    cases hb.symm.trans hx

theorem LeftBy.delete (h : c.LeftBy name start writes) (hn : svc.balancerName? = some name)
    (hr : (c.delete svc).1 = some (.ok ())) : (c.delete svc).2.LeftBy name start (.delete svc :: writes) := by
  have hs := h.sound.delete svc
  rcases c.delete_cases svc with ⟨ha, hnone⟩ | ⟨c₁, b, ha, hf, _, ⟨hg, he⟩ | ⟨hg, he⟩⟩
  · have hf := hnone hr
    cases hg : svc.givenBalancerId? with
    | some id => exact (h.alike ha).missing (w := .delete svc) hg (by simpa [find?, hg, ha.1] using hf)
    | none =>
      refine h.remove hg hs fun id x hx => ?_
      rw [ha.1] at hx
      exact ⟨hx, by simpa using List.find?_eq_none.mp (find?_name_eq_none hf hg hn) x (SortedMap.mem_values.mpr ⟨id, hx⟩)⟩
  · rw [he] at hs ⊢
    have h₁ := h.alike ha
    have hb := h₁.sound.get?_of_find? hf
    have hbn : b.name = name := Option.some.inj ((name_of_find? hg hf).symm.trans hn)
    refine h₁.remove hg hs fun id x hx => ?_
    rw [SortedMap.get?_erase] at hx
    split at hx
    · cases hx
    · next hne => exact ⟨hx, fun hxn => hne (h₁.one b.id b id x hb hx hbn hxn)⟩
  · rw [he] at hs ⊢
    refine (h.alike ha).update (w := .delete svc) (b := { b with listeners := [], backends := [] }) (n := c₁.allocated)
      hn hf rfl rfl rfl rfl (fun hnone => ?_) hs
    obtain ⟨id, hid⟩ := Option.isSome_iff_exists.mp hg
    cases hid.symm.trans hnone

end MemoryCloud
end ServiceBalancer
