import Mathlib.Algebra.GroupWithZero.Nat
import Mathlib.Data.List.Nodup
import ServiceBalancer.Proofs.Cloud.Identities

/-! Services whose balancers bear the same name. The name has room for all digits of a UID of canonical form but the
last, so two such UIDs give the same name exactly if they differ in the last digit at most. Services with different names
are kept apart, in what they find and in what they delete. -/
namespace ServiceBalancer

/-! ### UIDs -/

/-- Whether a text is made of groups of digits to base sixteen, in lower case, with dashes between them. -/
def Grouped (sizes : List Nat) (s : List Char) : Prop :=
  ∃ groups : List (List Char), groups.map List.length = sizes ∧ (∀ group ∈ groups, ∀ c ∈ group, Text.IsHexDigit c) ∧
    s = ['-'].intercalate groups

def CanonicalUid (uid : String) : Prop := Grouped [8, 4, 4, 4, 12] uid.toList

variable {sizes : List Nat} {s t : List Char} {uid uid' : String}

theorem isHexDigit_plain {c : Char} (h : Text.IsHexDigit c) : c ≠ '-' ∧ c.toNat < 128 := by
  obtain ⟨d, hd, rfl⟩ := h
  have hall : ∀ d < 16, d.digitChar ≠ '-' ∧ d.digitChar.toNat < 128 := by decide
  exact hall d hd

private theorem filter_intercalate {groups : List (List Char)} (h : ∀ group ∈ groups, ∀ c ∈ group, Text.IsHexDigit c) :
    (['-'].intercalate groups).filter (· ≠ '-') = groups.flatten := by
  have kept {group : List Char} (hg : group ∈ groups) : group.filter (· ≠ '-') = group :=
    List.filter_eq_self.mpr fun c hc => by simpa using (isHexDigit_plain (h group hg c hc)).1
  induction groups with
  | nil => rfl
  | cons first others ih =>
    have ih := ih (fun group hg => h group (.tail _ hg)) fun hg => kept (.tail _ hg)
    cases others with
    | nil => simpa using kept (.head _)
    | cons second others =>
      have hdash : ['-'].filter (· ≠ '-') = [] := rfl
      rw [List.intercalate_cons_cons, List.filter_append, List.filter_append, kept (.head _), ih, hdash,
        List.append_nil]
      rfl

/-- The digits of a text fill its groups. -/
theorem Grouped.length_digits (h : Grouped sizes s) : (s.filter (· ≠ '-')).length = sizes.sum := by
  obtain ⟨groups, rfl, hdigits, rfl⟩ := h
  rw [filter_intercalate hdigits, List.length_flatten]

/-- A text is known by its digits and the sizes of its groups. -/
theorem Grouped.digits_inj (h : Grouped sizes s) (h' : Grouped sizes t) :
    s.filter (· ≠ '-') = t.filter (· ≠ '-') ↔ s = t := by
  refine ⟨fun he => ?_, fun he => he ▸ rfl⟩
  obtain ⟨groups, hsizes, hdigits, rfl⟩ := h
  obtain ⟨groups', hsizes', hdigits', rfl⟩ := h'
  rw [filter_intercalate hdigits, filter_intercalate hdigits'] at he
  rw [List.eq_iff_flatten_eq.mpr ⟨he, hsizes.trans hsizes'.symm⟩]

private theorem intercalate_concat (groups : List (List Char)) (group : List Char) (c : Char) :
    ['-'].intercalate (groups ++ [group ++ [c]]) = ['-'].intercalate (groups ++ [group]) ++ [c] := by
  induction groups with
  | nil => simp
  | cons first groups ih => cases groups <;> simp_all [List.intercalate_cons_cons]

/-- Without its last digit a text has one digit less in its last group. -/
theorem Grouped.dropLast {n : Nat} (h : Grouped (sizes ++ [n + 1]) s) :
    ∃ digit, s = s.dropLast ++ [digit] ∧ Text.IsHexDigit digit ∧ Grouped (sizes ++ [n]) s.dropLast := by
  obtain ⟨groups, hsizes, hdigits, rfl⟩ := h
  obtain ⟨groups, final, rfl, rfl, hfinal⟩ := List.map_eq_append_iff.mp hsizes
  obtain ⟨group, rfl, hgroup⟩ := List.map_eq_singleton_iff.mp hfinal
  obtain ⟨group, digit, rfl⟩ := (List.eq_nil_or_concat group).resolve_left fun hnil => by simp [hnil] at hgroup
  rw [List.concat_eq_append] at *
  rw [intercalate_concat, List.dropLast_concat]
  have hdigit : Text.IsHexDigit digit := hdigits (group ++ [digit]) (by simp) digit (by simp)
  refine ⟨digit, rfl, hdigit, groups ++ [group], by simpa using hgroup, ?_, rfl⟩
  intro other ho c hc
  rcases List.mem_append.mp ho with ho | ho
  · exact hdigits other (List.mem_append_left _ ho) c hc
  · obtain rfl := List.mem_singleton.mp ho
    exact hdigits _ (List.mem_append_right _ (.head _)) c (List.mem_append_left _ hc)

/-- The groups of a UID are what is between its dashes. -/
theorem canonicalUid_iff : CanonicalUid uid ↔ (uid.toList.splitOn '-').map List.length = [8, 4, 4, 4, 12] ∧
    ∀ group ∈ uid.toList.splitOn '-', ∀ c ∈ group, Text.IsHexDigit c := by
  constructor
  · rintro ⟨groups, hsizes, hdigits, hs⟩
    have hplain : ∀ group ∈ groups, '-' ∉ group := fun group hg hc => (isHexDigit_plain (hdigits group hg _ hc)).1 rfl
    have hfilled : groups ≠ [] := by
      rintro rfl
      cases hsizes
    rw [hs, List.splitOn_intercalate _ hplain hfilled]
    exact ⟨hsizes, hdigits⟩
  · rintro ⟨hsizes, hdigits⟩
    exact ⟨_, hsizes, hdigits, (List.intercalate_splitOn _).symm⟩

instance : DecidablePred CanonicalUid := fun _ =>
  -- What is tried is the characters of a group, not all characters that there are.
  letI : ∀ group : List Char, Decidable (∀ c ∈ group, Text.IsHexDigit c) := List.decidableBAll _
  decidable_of_iff _ canonicalUid_iff.symm

theorem CanonicalUid.ascii (h : CanonicalUid uid) : ∀ c ∈ uid.toList, c.toNat < 128 := by
  intro c hc
  by_cases hdash : c = '-'
  · subst hdash
    decide
  · have hdigit : c ∈ uid.toList.filter (· ≠ '-') := List.mem_filter.mpr ⟨hc, by simpa using hdash⟩
    obtain ⟨groups, _, hdigits, hs⟩ := h
    rw [hs, filter_intercalate hdigits] at hdigit
    obtain ⟨group, hg, hc⟩ := List.mem_flatten.mp hdigit
    exact (isHexDigit_plain (hdigits group hg c hc)).2

theorem CanonicalUid.dropLast (h : CanonicalUid uid) : ∃ digit, uid.toList = uid.toList.dropLast ++ [digit] ∧
    Text.IsHexDigit digit ∧ Grouped [8, 4, 4, 4, 11] uid.toList.dropLast := by
  have hgrouped : Grouped ([8, 4, 4, 4] ++ [11 + 1]) uid.toList := h
  exact hgrouped.dropLast

/-- The name has all digits of the UID but the last. -/
theorem CanonicalUid.name_eq (h : CanonicalUid uid) :
    balancerNameOf? uid = some (.ofList ('a' :: uid.toList.dropLast.filter (· ≠ '-'))) := by
  obtain ⟨digit, hs, hdigit, hstem⟩ := h.dropLast
  have hlength : (uid.toList.dropLast.filter (· ≠ '-')).length = 31 := hstem.length_digits
  have hdigits : uid.toList.filter (· ≠ '-') = uid.toList.dropLast.filter (· ≠ '-') ++ [digit] := by
    refine (congrArg (List.filter (· ≠ '-')) hs).trans ?_
    simp [(isHexDigit_plain hdigit).1]
  -- The letter and these digits are the 32 characters that the limit leaves.
  rw [balancerNameOf?_of_ascii h.ascii, hdigits, List.take_succ_cons, List.take_left' hlength]

/-- Two UIDs give the same name exactly if they differ in the last digit at most. -/
theorem CanonicalUid.name_inj (h : CanonicalUid uid) (h' : CanonicalUid uid') :
    balancerNameOf? uid = balancerNameOf? uid' ↔ uid.toList.dropLast = uid'.toList.dropLast := by
  obtain ⟨_, _, _, hstem⟩ := h.dropLast
  obtain ⟨_, _, _, hstem'⟩ := h'.dropLast
  rw [h.name_eq, h'.name_eq, ← hstem.digits_inj hstem', Option.some.injEq, String.ofList_inj]
  exact List.cons_inj_right _

/-! ### Balancers by name -/

namespace MemoryCloud
variable {c : MemoryCloud} {svc other : Service} {nodes : List Node} {b d : Balancer} {rules : List ClassifierRule}
  {given : List (Operation × Balancer)} {e : Operation × Balancer}

/-- A balancer that a call to create or update has brought bears the name of its service. -/
theorem Sound.named_of_come (h : c.Sound) (hb : b ∈ c.come (c.ensure svc nodes).2) :
    svc.balancerName? = some b.name := by
  have hgo := c.ensured svc nodes
  generalize c.ensure svc nodes = r at hgo hb
  have kept {c' : MemoryCloud} (hkept : ∀ id x, c'.balancers.get? id = some x → (c.balancers.get? id).isSome)
      (hb : b ∈ c.come c') : svc.balancerName? = some b.name := by
    rw [come, SortedMap.beyond_eq_nil hkept] at hb
    cases hb
  cases hgo with
  | failed | unnamed | refused => exact kept (fun id x hx => Option.isSome_of_eq_some hx) hb
  | @updated old _ hfind =>
    refine kept (fun id x hx => ?_) hb
    simp only [updated, SortedMap.get?_insert] at hx
    split at hx
    · next he => exact he ▸ Option.isSome_of_eq_some (h.get?_of_find? hfind)
    · exact Option.isSome_of_eq_some hx
  | @extended name _ _ _ hname =>
    rw [come, extended, SortedMap.beyond_insert (h.fresh _ (Nat.lt_succ_self _))] at hb
    obtain rfl := List.mem_singleton.mp hb
    exact hname

theorem Sound.named_of_allocations (h : c.Sound) {ops : List Operation}
    (hb : (.ensure svc nodes, b) ∈ c.allocations ops) : svc.balancerName? = some b.name := by
  induction ops generalizing c with
  | nil => cases hb
  | cons op ops ih =>
    rcases List.mem_append.mp hb with hb | hb
    · obtain ⟨x, hx, he⟩ := List.mem_map.mp hb
      obtain ⟨rfl, rfl⟩ := Prod.mk.inj he
      exact h.named_of_come hx
    · exact ih (h.operate op) hb

/-- What is kept under the id of a balancer that has come is that balancer. -/
theorem Ledger.descriptor_eq (h : ({ rules } : MemoryCloud).Ledger given c) (hs : c.Sound) (he : e ∈ given)
    (hd : c.balancers.get? e.2.id = some d) : d.descriptor = e.2.descriptor := by
  rcases h.whole _ d hd with ⟨old, hold, _⟩ | ⟨e', he', hd'⟩
  · cases hold
  · have hid : e'.2.id = e.2.id := (congrArg BalancerDescriptor.id hd').symm.trans (hs.keyed _ d hd)
    rw [hd', List.inj_on_of_nodup_map h.nodup_ids he' he hid]

/-- A service without an id does not find what was made for one with another name. -/
theorem Ledger.find?_ne (h : ({ rules } : MemoryCloud).Ledger given c) (hs : c.Sound) (he : e ∈ given)
    (hmade : other.balancerName? = some e.2.name) (hne : svc.balancerName? ≠ other.balancerName?)
    (hg : svc.givenBalancerId? = none) (hf : c.find? svc = some (some d)) : d.id ≠ e.2.id := by
  intro hid
  have hkept := hs.get?_of_find? hf
  rw [hid] at hkept
  have hname : d.name = e.2.name := congrArg BalancerDescriptor.name (h.descriptor_eq hs he hkept)
  rw [name_of_find? hg hf, hmade, hname] at hne
  exact hne rfl

/-- A deletion for a service without an id changes nothing but what the service finds. -/
theorem get?_delete_named (hg : svc.givenBalancerId? = none) {id : String}
    (hn : ∀ d, c.find? svc = some (some d) → d.id ≠ id) :
    (c.delete svc).2.balancers.get? id = c.balancers.get? id := by
  rcases c.delete_cases svc with ⟨ha, _⟩ | ⟨c₁, d, ha, hf, _, ⟨_, he⟩ | ⟨hid, _⟩⟩
  · rw [ha.1]
  · rw [he, SortedMap.get?_erase, if_neg (hn d ((ha.find? svc).symm.trans hf)), ha.1]
  · simp [hg] at hid

/-- UIDs of canonical form give names, the same one exactly if they differ in the last digit at most. Of two services
whose UIDs differ in another digit, one that is given no id never finds the balancer that was made for the other, and to
delete for the one leaves the balancer of the other where it is, unchanged if no id was given. -/
theorem balancers_kept_apart {uid uid' : String} (h : CanonicalUid uid) (h' : CanonicalUid uid') :
    (∃ name name', balancerNameOf? uid = some name ∧ balancerNameOf? uid' = some name' ∧
      (name = name' ↔ uid.toList.dropLast = uid'.toList.dropLast)) ∧
    ∀ svc other : Service, svc.info.uid = some uid → other.info.uid = some uid' →
      uid.toList.dropLast ≠ uid'.toList.dropLast →
      ∀ (rules : List ClassifierRule) (ops : List Operation) (nodes : List Node) (b : Balancer),
        (.ensure other nodes, b) ∈ ({ rules } : MemoryCloud).allocations ops →
        let c := ({ rules } : MemoryCloud).operateAll ops
        (svc.givenBalancerId? = none → ∃ found, c.find? svc = some found ∧ ∀ d, found = some d → d.id ≠ b.id) ∧
        ∀ kept, c.balancers.get? b.id = some kept →
          ∃ left, (c.delete svc).2.balancers.get? b.id = some left ∧ left.bare = kept.bare ∧
            (svc.givenBalancerId? = none → left = kept) := by
  refine ⟨⟨_, _, h.name_eq, h'.name_eq, ?_⟩, ?_⟩
  · rw [← h.name_inj h', h.name_eq, h'.name_eq, Option.some.injEq]
  intro svc other hsvc hother hdiffer rules ops nodes b hb c
  have hnew : ({ rules } : MemoryCloud).Sound := (Reachable.new rules).sound
  have hsound : c.Sound := ((Reachable.new rules).operateAll ops).sound
  have hledger : ({ rules } : MemoryCloud).Ledger (({ rules } : MemoryCloud).allocations ops) c :=
    hnew.ledger_operateAll ops
  have hnames : svc.balancerName? ≠ other.balancerName? := by
    simp only [Service.balancerName?, hsvc, hother, Option.getD_some]
    exact fun he => hdiffer ((h.name_inj h').mp he)
  have hmisses (hg : svc.givenBalancerId? = none) (d : Balancer) (hf : c.find? svc = some (some d)) : d.id ≠ b.id :=
    hledger.find?_ne hsound hb (hnew.named_of_allocations hb) hnames hg hf
  have hascii : svc.Ascii := by simpa [Service.Ascii, hsvc] using h.ascii
  refine ⟨fun hg => ?_, fun kept hkept => ?_⟩
  · obtain ⟨found, hfound⟩ := Option.isSome_iff_exists.mp (isSome_find?_of_ascii c hascii)
    exact ⟨found, hfound, fun d hd => hmisses hg d (hd ▸ hfound)⟩
  · by_cases hg : svc.givenBalancerId? = none
    · exact ⟨kept, (get?_delete_named hg (hmisses hg)).trans hkept, rfl, fun _ => rfl⟩
    · have hstays : ¬c.TakesAway svc b.id := fun htaken => hg htaken.2.1
      obtain ⟨left, hleft, hbare⟩ := hsound.delete_bare hkept hstays
      exact ⟨left, hleft, hbare, fun hnone => absurd hnone hg⟩

private def lodger (uid : String) : Service := { info := { uid := some uid } }

private def lodging (name : String) : Balancer :=
  { id := "lb-00000001", name, address := "10.0.0.1", userManaged := false }

/-- UIDs that differ in the last digit but one. -/
theorem balancers_kept_apart_neighbours :
    let uid := "2cb99d4a-8d1b-11e8-9e2d-00163e0a1c42"
    let uid' := "2cb99d4a-8d1b-11e8-9e2d-00163e0a1c52"
    let ops : List Operation := [.ensure (lodger uid') [], .ensure (lodger uid) []]
    let b := lodging "a2cb99d4a8d1b11e89e2d00163e0a1c5"
    let c := ({} : MemoryCloud).operateAll ops
    CanonicalUid uid ∧ CanonicalUid uid' ∧ uid.toList.dropLast ≠ uid'.toList.dropLast ∧
      balancerNameOf? uid ≠ balancerNameOf? uid' ∧
      (.ensure (lodger uid') [], b) ∈ ({} : MemoryCloud).allocations ops ∧ (lodger uid).givenBalancerId? = none ∧
      (∃ found, c.find? (lodger uid) = some found ∧ ∀ d, found = some d → d.id ≠ b.id) ∧
      c.balancers.keys = ["lb-00000001", "lb-00000002"] ∧ c.balancers.get? b.id = some b ∧
      (c.delete (lodger uid)).2.balancers.get? b.id = some b := by
  intro uid uid' ops b c
  obtain ⟨hcanonical, hcanonical', hdiffer⟩ :
      CanonicalUid uid ∧ CanonicalUid uid' ∧ uid.toList.dropLast ≠ uid'.toList.dropLast := by decide +kernel
  have hmade : (.ensure (lodger uid') [], b) ∈ ({} : MemoryCloud).allocations ops :=
    List.mem_append_left _ (List.mem_map.mpr ⟨b, by decide +kernel, rfl⟩)
  obtain ⟨hgiven, hkeys, hkept⟩ : (lodger uid).givenBalancerId? = none ∧
      c.balancers.keys = ["lb-00000001", "lb-00000002"] ∧ c.balancers.get? b.id = some b := by decide +kernel
  obtain ⟨⟨name, name', hname, hname', hsame⟩, hapart⟩ := balancers_kept_apart hcanonical hcanonical'
  obtain ⟨hfind, hdelete⟩ := hapart (lodger uid) (lodger uid') rfl rfl hdiffer _ ops [] b hmade
  obtain ⟨left, hleft, -, hunchanged⟩ := hdelete b hkept
  have hnames : balancerNameOf? uid ≠ balancerNameOf? uid' := by
    rw [hname, hname']
    exact fun he => hdiffer (hsame.mp (Option.some.inj he))
  exact ⟨hcanonical, hcanonical', hdiffer, hnames, hmade, hgiven, hfind hgiven, hkeys, hkept,
    hleft.trans (congrArg some (hunchanged hgiven))⟩

/-- Of two services whose UIDs differ in the last digit, the second finds the balancer of the first, and deletes it. -/
theorem not_kept_apart_last_digit :
    let uid := "2cb99d4a-8d1b-11e8-9e2d-00163e0a1c42"
    let uid' := "2cb99d4a-8d1b-11e8-9e2d-00163e0a1c43"
    let ops : List Operation := [.ensure (lodger uid) []]
    let b := lodging "a2cb99d4a8d1b11e89e2d00163e0a1c4"
    let c := ({} : MemoryCloud).operateAll ops
    CanonicalUid uid ∧ CanonicalUid uid' ∧ uid ≠ uid' ∧
      balancerNameOf? uid = some b.name ∧ balancerNameOf? uid' = some b.name ∧
      (.ensure (lodger uid) [], b) ∈ ({} : MemoryCloud).allocations ops ∧ (lodger uid').givenBalancerId? = none ∧
      c.find? (lodger uid') = some (some b) ∧ c.balancers.get? b.id = some b ∧
      (c.delete (lodger uid')).2.balancers.get? b.id = none := by
  intro uid uid' ops b c
  have hmade : (.ensure (lodger uid) [], b) ∈ ({} : MemoryCloud).allocations ops :=
    List.mem_append_left _ (List.mem_map.mpr ⟨b, by decide +kernel, rfl⟩)
  obtain ⟨hcanonical, hcanonical', hdiffer, hname, hname'⟩ : CanonicalUid uid ∧ CanonicalUid uid' ∧ uid ≠ uid' ∧
      balancerNameOf? uid = some b.name ∧ balancerNameOf? uid' = some b.name := by decide +kernel
  refine ⟨hcanonical, hcanonical', hdiffer, hname, hname', hmade, ?_⟩
  decide +kernel

end MemoryCloud
end ServiceBalancer
