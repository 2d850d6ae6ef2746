import ServiceBalancer.Proofs.Cloud.Order

/-! What tells balancers apart. An id and an address are given out once, also when the balancer that has borne them is
long gone, and of each name the controller has at most one balancer of its own. -/
namespace ServiceBalancer.MemoryCloud

/-! ### Addresses -/

abbrev addressRoom : Nat := 256 * 256 * 256

private theorem toString_append_dot_inj {m n : Nat} {s t : List Char}
    (h : (toString m).toList ++ '.' :: s = (toString n).toList ++ '.' :: t) : m = n ∧ s = t := by
  have upto (k : Nat) (l : List Char) :
      ((toString k).toList ++ '.' :: l).takeWhile Char.isDigit = (toString k).toList := by
    rw [List.takeWhile_append_of_pos, List.takeWhile_cons_of_neg (by decide), List.append_nil]
    exact fun c hc => Nat.isDigit_of_mem_toDigits (b := 10) (n := k) (by decide) (by decide) (by simpa using hc)
  have hnumber : (toString m).toList = (toString n).toList := by
    rw [← upto m s, h, upto]
  have hread := congrArg (fun digits => Nat.ofDigitChars 10 digits 0) hnumber
  rw [hnumber] at h
  exact ⟨by simpa using hread, (List.cons.inj (List.append_cancel_left h)).2⟩

theorem addressOf_injective {m n : Nat} (hm : m < addressRoom) (hn : n < addressRoom) (h : addressOf m = addressOf n) :
    m = n := by
  -- with a dot behind the last number too, each of the three ends at one
  have parts (k : Nat) : (addressOf k ++ ".").toList = "10.".toList ++ ((toString (k / 65536 % 256)).toList ++ '.' ::
      ((toString (k / 256 % 256)).toList ++ '.' :: ((toString (k % 256)).toList ++ ['.']))) := by
    simp [addressOf]
  have hl := List.append_cancel_left ((parts m).symm.trans ((congrArg (fun s => (s ++ ".").toList) h).trans (parts n)))
  obtain ⟨hhigh, hl⟩ := toString_append_dot_inj hl
  obtain ⟨hmiddle, hl⟩ := toString_append_dot_inj hl
  obtain ⟨hlow, _⟩ := toString_append_dot_inj hl
  simp only [addressRoom] at hm hn
  omega

/-! ### What a run of operations brings -/

variable {c c' c'' : MemoryCloud} {given given' : List (Operation × Balancer)}

/-- The balancers that have come to a cloud since it was another one: those under an id that had none. -/
def come (c c' : MemoryCloud) : List Balancer := (c'.balancers.beyond c.balancers).map (·.2)

/-- All balancers that come with a run of operations, one after another, each with the operation that brings it. Those
that go again later are among them. -/
def allocations (c : MemoryCloud) : List Operation → List (Operation × Balancer)
  | [] => []
  | op :: ops => (c.come (c.operate op)).map (op, ·) ++ (c.operate op).allocations ops

/-- Whether a list has all that has come to a cloud since it was another one. What has come is numbered on, and is the
controller's own exactly if a call to create or update has brought it. Whatever is there was there before or has come
since, and only its traffic and its tags may have changed. -/
structure Ledger (c : MemoryCloud) (given : List (Operation × Balancer)) (c' : MemoryCloud) : Prop where
  allocated : c'.allocated = c.allocated + given.length
  ids : given.map (·.2.id) = (List.range' (c.allocated + 1) given.length).map idOf
  addresses : given.map (·.2.address) = (List.range' (c.allocated + 1) given.length).map addressOf
  owned : ∀ e ∈ given, e.2.userManaged = false ↔ ∃ svc nodes, e.1 = .ensure svc nodes
  whole : ∀ id b, c'.balancers.get? id = some b →
    (∃ old, c.balancers.get? id = some old ∧ b.descriptor = old.descriptor) ∨
      ∃ e ∈ given, b.descriptor = e.2.descriptor

theorem Ledger.nil (c : MemoryCloud) : c.Ledger [] c where
  allocated := rfl
  ids := rfl
  addresses := rfl
  owned := by simp
  whole _ b hb := .inl ⟨b, hb, rfl⟩

theorem Ledger.append (h : c.Ledger given c') (h' : c'.Ledger given' c'') : c.Ledger (given ++ given') c'' where
  allocated := by
    rw [h'.allocated, h.allocated, List.length_append, Nat.add_assoc]
  ids := by
    rw [List.map_append, h.ids, h'.ids, h.allocated, List.length_append, ← List.range'_append_1, List.map_append,
      Nat.add_right_comm]
  addresses := by
    rw [List.map_append, h.addresses, h'.addresses, h.allocated, List.length_append, ← List.range'_append_1,
      List.map_append, Nat.add_right_comm]
  owned e he := (List.mem_append.mp he).elim (h.owned e) (h'.owned e)
  whole id b hb := by
    rcases h'.whole id b hb with ⟨old, hold, hb⟩ | ⟨e, he, hb⟩
    · rcases h.whole id old hold with ⟨first, hfirst, ho⟩ | ⟨e, he, ho⟩
      · exact .inl ⟨first, hfirst, hb.trans ho⟩
      · exact .inr ⟨e, List.mem_append_left _ he, hb.trans ho⟩
    · exact .inr ⟨e, List.mem_append_right _ he, hb⟩

private theorem ledger_of_kept (op : Operation) (hallocated : c'.allocated = c.allocated)
    (hkept : ∀ id b, c'.balancers.get? id = some b →
      ∃ old, c.balancers.get? id = some old ∧ b.descriptor = old.descriptor) :
    c.Ledger ((c.come c').map (op, ·)) c' := by
  have hnone : c.come c' = [] := by
    refine List.map_eq_nil_iff.mpr (SortedMap.beyond_eq_nil fun id b hb => ?_)
    obtain ⟨old, hold, _⟩ := hkept id b hb
    exact Option.isSome_of_eq_some hold
  rw [hnone]
  exact ⟨hallocated, rfl, rfl, by simp, fun id b hb => .inl (hkept id b hb)⟩

private theorem Alike.ledger (h : c.Alike c') (op : Operation) : c.Ledger ((c.come c').map (op, ·)) c' :=
  ledger_of_kept op h.2 fun _ b hb => ⟨b, h.1 ▸ hb, rfl⟩

private theorem Sound.ledger_of_change (h : c.Sound) (op : Operation) {svc : Service} {old b : Balancer}
    (hfind : c.find? svc = some (some old)) (hallocated : c'.allocated = c.allocated)
    (hput : c'.balancers = c.balancers.insert old.id b) (hb : b.descriptor = old.descriptor) :
    c.Ledger ((c.come c').map (op, ·)) c' := by
  refine ledger_of_kept op hallocated fun id d hd => ?_
  rw [hput, SortedMap.get?_insert] at hd
  split at hd
  · next he =>
    obtain rfl := Option.some.inj hd
    exact ⟨old, he ▸ h.get?_of_find? hfind, hb⟩
  · exact ⟨d, hd, rfl⟩

private theorem Sound.ledger_of_new (h : c.Sound) {op : Operation} {b : Balancer}
    (hid : b.id = idOf (c.allocated + 1)) (haddress : b.address = addressOf (c.allocated + 1))
    (howned : b.userManaged = false ↔ ∃ svc nodes, op = .ensure svc nodes) (hallocated : c'.allocated = c.allocated + 1)
    (hput : c'.balancers = c.balancers.insert (idOf (c.allocated + 1)) b) : c.Ledger ((c.come c').map (op, ·)) c' := by
  have hone : c.come c' = [b] := by
    rw [come, hput, SortedMap.beyond_insert (h.fresh _ (Nat.lt_succ_self _))]
    rfl
  rw [hone]
  refine ⟨hallocated, congrArg (fun s => [s]) hid, congrArg (fun s => [s]) haddress, by simpa using howned, ?_⟩
  intro id d hd
  rw [hput, SortedMap.get?_insert] at hd
  split at hd
  · exact .inr ⟨(op, b), by simp, congrArg _ (Option.some.inj hd).symm⟩
  · exact .inl ⟨d, hd, rfl⟩

theorem Sound.ledger_operate (h : c.Sound) (op : Operation) :
    c.Ledger ((c.come (c.operate op)).map (op, ·)) (c.operate op) := by
  cases op with
  | seed name => exact h.ledger_of_new rfl rfl (by simp) rfl rfl
  | inject message =>
    have ha : c.Alike (c.inject message) := ⟨rfl, rfl⟩
    exact ha.ledger _
  | lookup svc => exact (c.lookup_alike svc).ledger _
  | ensure svc nodes =>
    have hgo := c.ensured svc nodes
    simp only [MemoryCloud.operate]
    generalize c.ensure svc nodes = r at hgo ⊢
    cases hgo with
    | failed | unnamed | refused => exact (c.alike_noted _).ledger _
    | updated _ hfind => exact h.ledger_of_change _ hfind rfl rfl rfl
    | extended _ _ _ _ => exact h.ledger_of_new rfl rfl (by simp [configure, blank]) rfl rfl
  | delete svc =>
    have hgo := c.deleted svc
    simp only [MemoryCloud.operate]
    generalize c.delete svc = r at hgo ⊢
    cases hgo with
    | failed | unnamed | absent => exact (c.alike_noted _).ledger _
    | emptied _ hfind _ => exact h.ledger_of_change _ hfind rfl rfl rfl
    | stripped =>
      refine ledger_of_kept _ rfl fun id d hd => ⟨d, ?_, rfl⟩
      simp only [stripped, SortedMap.get?_erase] at hd
      split at hd
      · cases hd
      · exact hd

theorem Sound.ledger_operateAll (h : c.Sound) (ops : List Operation) :
    c.Ledger (c.allocations ops) (c.operateAll ops) := by
  induction ops generalizing c with
  | nil => exact .nil c
  | cons op ops ih => exact (h.ledger_operate op).append (ih (h.operate op))

theorem Ledger.nodup_ids (h : c.Ledger given c') : (given.map (·.2.id)).Nodup := by
  rw [h.ids]
  exact List.pairwise_map.mpr ((List.nodup_range' ..).imp fun hne he => hne (idOf_injective he))

theorem Ledger.nodup_addresses (h : c.Ledger given c') (hroom : c'.allocated < addressRoom) :
    (given.map (·.2.address)).Nodup := by
  have room {n : Nat} (hn : n ∈ List.range' (c.allocated + 1) given.length) : n < addressRoom := by
    have := List.mem_range'_1.mp hn
    have := h.allocated
    omega
  rw [h.addresses]
  refine List.pairwise_map.mpr ((List.nodup_range' ..).imp_of_mem fun hm hn hne he => hne ?_)
  exact addressOf_injective (room hm) (room hn) he

/-! ### Runs from a new cloud -/

theorem Reachable.operate (h : c.Reachable) (op : Operation) : (c.operate op).Reachable := by
  cases op with
  | seed name => exact h.seed name
  | inject message => exact h.inject message
  | lookup svc => exact h.lookup svc
  | ensure svc nodes => exact h.ensure svc nodes
  | delete svc => exact h.delete svc

theorem Reachable.operateAll (h : c.Reachable) (ops : List Operation) : (c.operateAll ops).Reachable := by
  induction ops generalizing c with
  | nil => exact h
  | cons op ops ih => exact ih (h.operate op)

/-- As long as there is room for the addresses, no two balancers that ever come have an id or an address in common, also
when one is gone before the other comes. Those that are there are kept under their ids, each is one that has come, and
those of them that a call to create or update has brought have different names. -/
theorem identities_distinct (rules : List ClassifierRule) (ops : List Operation)
    (hfew : (({ rules } : MemoryCloud).allocations ops).length < addressRoom) :
    let given := ({ rules } : MemoryCloud).allocations ops
    let c := ({ rules } : MemoryCloud).operateAll ops
    (given.map (·.2.id)).Nodup ∧ (given.map (·.2.address)).Nodup ∧
    (∀ id b, c.balancers.get? id = some b → b.id = id ∧ ∃ e ∈ given, b.descriptor = e.2.descriptor ∧
      (b.userManaged = false ↔ ∃ svc nodes, e.1 = .ensure svc nodes)) ∧
    ∀ b ∈ c.balancers.values, ∀ b' ∈ c.balancers.values, b.userManaged = false → b'.userManaged = false →
      b.name = b'.name → b = b' := by
  intro given c
  have hnew : ({ rules } : MemoryCloud).Reachable := .new rules
  have hledger : ({ rules } : MemoryCloud).Ledger given c := hnew.sound.ledger_operateAll ops
  have hallocated : c.allocated = given.length := hledger.allocated.trans (Nat.zero_add _)
  have hreach : c.Reachable := hnew.operateAll ops
  refine ⟨hledger.nodup_ids, hledger.nodup_addresses (hallocated ▸ hfew), fun id b hb => ?_, ?_⟩
  · refine ⟨hreach.sound.keyed id b hb, ?_⟩
    rcases hledger.whole id b hb with ⟨old, hold, _⟩ | ⟨e, he, hd⟩
    · cases hold
    · refine ⟨e, he, hd, ?_⟩
      have hsame : b.userManaged = e.2.userManaged := congrArg BalancerDescriptor.userManaged hd
      rw [hsame]
      exact hledger.owned e he
  · intro b hb b' hb' hu hu' hn
    have hroom : c.allocated < idRoom := hallocated ▸ Nat.lt_trans hfew (by decide)
    have hsole := hreach.sole hroom b'.name
    exact Option.some.inj ((hsole b hb hn hu).symm.trans (hsole b' hb' rfl hu'))

private def stall : Service := { info := { uid := some "u1" } }

/-- A balancer that is made again after its deletion, and one that is registered under the same name, get an id and an
address of their own. -/
theorem identities_distinct_remade :
    let ops := [.ensure stall [], .delete stall, .ensure stall [], .seed "au1"]
    let given := ({} : MemoryCloud).allocations ops
    let c := ({} : MemoryCloud).operateAll ops
    given.length < addressRoom ∧ given.map (·.2.name) = ["au1", "au1", "au1"] ∧
      (given.map (·.2.id)).Nodup ∧ (given.map (·.2.address)).Nodup ∧
      c.balancers.keys = ["lb-00000002", "lb-00000003"] ∧
      ∀ b ∈ c.balancers.values, ∃ e ∈ given, b.descriptor = e.2.descriptor := by
  intro ops given c
  have hnames : given.map (·.2.name) = ["au1", "au1", "au1"] := by decide +kernel
  have hfew : given.length < addressRoom := by
    have hlength := congrArg List.length hnames
    rw [List.length_map] at hlength
    rw [hlength]
    decide
  obtain ⟨hids, haddresses, hthere, _⟩ := identities_distinct ClassifierRule.defaults ops hfew
  refine ⟨hfew, hnames, hids, haddresses, by decide +kernel, fun b hb => ?_⟩
  obtain ⟨id, hid⟩ := SortedMap.mem_values.mp hb
  obtain ⟨_, e, he, hd, _⟩ := hthere id b hid
  exact ⟨e, he, hd⟩

end ServiceBalancer.MemoryCloud
