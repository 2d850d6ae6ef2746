import Mathlib.Logic.Function.Basic
import ServiceBalancer.Proofs.Cloud.Calls
import ServiceBalancer.Proofs.Data.SortedMap
import ServiceBalancer.Proofs.Sync.Fingerprint

/-! What is hashed and what is pushed. The text that is hashed for a service holds what it asks for and its annotations,
no more and no less, and that for a push holds the names of the backends too, in any order. Two pushes with one fingerprint
do the same to a cloud, unless the digest has a collision. -/
namespace ServiceBalancer

/-! ### Sorted names -/

private theorem isLE_total (a b : String) : ((compare a b).isLE || (compare b a).isLE) = true := by
  cases h : compare a b with
  | gt => rw [Std.OrientedCmp.gt_iff_lt.mp h]; rfl
  | _ => rfl

/-- Lists are the same when sorted if they hold the same strings as often. -/
theorem sortStrings_eq_iff {l m : List String} : sortStrings l = sortStrings m ↔ l.Perm m := by
  refine ⟨fun h => (sortStrings_perm l).symm.trans (h ▸ sortStrings_perm m), fun h => ?_⟩
  have hsorted (l : List String) : (sortStrings l).Pairwise (fun a b => (compare a b).isLE = true) :=
    List.pairwise_mergeSort (fun a b c (hab : (compare a b).isLE = true) hbc => Std.TransCmp.isLE_trans hab hbc)
      isLE_total l
  have hperm : (sortStrings l).Perm (sortStrings m) := (sortStrings_perm l).trans (h.trans (sortStrings_perm m).symm)
  refine hperm.eq_of_pairwise (fun a b _ _ hab hba => ?_) (hsorted l) (hsorted m)
  exact Std.LawfulEqOrd.eq_of_compare (Std.OrientedCmp.isLE_antisymm hab hba)

namespace Service
variable {digest : String → String} {a b : Service} {as bs : List Node}

/-- The hashed bytes of services are the same if they ask for the same and have the same annotations. -/
theorem content_bytes_eq_iff : a.content.text.toUTF8 = b.content.text.toUTF8 ↔
    a.spec = b.spec ∧ a.info.annotationMap = b.info.annotationMap := by
  constructor
  · intro h
    have htext : a.content.text = b.content.text := by simpa [String.toByteArray_inj] using h
    obtain ⟨hannotations, hspec⟩ := content_injective (Json.text_injective htext)
    exact ⟨hspec, hannotations⟩
  · rintro ⟨hspec, hannotations⟩
    rw [content, content, hspec, hannotations]

theorem pushContent_eq_iff : (a.pushContent digest as).text = (b.pushContent digest bs).text ↔
    a.hash digest = b.hash digest ∧ (as.map Node.name).Perm (bs.map Node.name) := by
  rw [← sortStrings_eq_iff]
  constructor
  · intro h
    have hc := Json.text_injective h
    simp only [pushContent, Json.obj.injEq, List.cons.injEq, Prod.mk.injEq, true_and, and_true, Json.arr.injEq,
      Json.str.injEq] at hc
    exact ⟨hc.2, (List.map_inj_right fun _ _ => Json.str.inj).mp hc.1⟩
  · rintro ⟨hhash, hnames⟩
    rw [pushContent, pushContent, hhash, hnames]

theorem fingerprint_eq_iff (hd : ¬Collision digest (a.pushContent digest as).text (b.pushContent digest bs).text) :
    a.fingerprint digest as = b.fingerprint digest bs ↔
      a.hash digest = b.hash digest ∧ (as.map Node.name).Perm (bs.map Node.name) := by
  rw [← pushContent_eq_iff]
  exact ⟨fun h => Classical.not_not.mp fun hn => hd ⟨hn, h⟩, congrArg digest⟩

end Service

/-! ### Pushes -/

structure Balancer.Resembles (x y : Balancer) : Prop where
  rest : y = { x with backends := y.backends }
  backends : x.backends.Perm y.backends

theorem Balancer.Resembles.refl (b : Balancer) : b.Resembles b := ⟨rfl, .refl _⟩

namespace MemoryCloud

structure Resembles (c d : MemoryCloud) : Prop where
  balancers : ∀ id, Option.Rel Balancer.Resembles (c.balancers.get? id) (d.balancers.get? id)
  allocated : d.allocated = c.allocated
  failures : d.failures = c.failures

variable {c : MemoryCloud} {a b : Service} {as bs : List Node}

theorem resembles_noted (c : MemoryCloud) (call call' : CloudCall) : (c.noted call).Resembles (c.noted call') where
  balancers id := by
    change Option.Rel _ (c.balancers.get? id) (c.balancers.get? id)
    cases c.balancers.get? id with
    | none => exact .none
    | some b => exact .some (.refl b)
  allocated := rfl
  failures := rfl

theorem Resembles.insert {d : MemoryCloud} {x y : Balancer} (h : c.Resembles d) (hxy : x.Resembles y) (id : String) (n : Nat) :
    Resembles { c with allocated := n, balancers := c.balancers.insert id x }
      { d with allocated := n, balancers := d.balancers.insert id y } where
  balancers other := by
    simp only [SortedMap.get?_insert]
    split
    · exact .some hxy
    · exact h.balancers other
  allocated := rfl
  failures := h.failures

theorem resembles_configure (x : Balancer) (hl : a.listeners = b.listeners) (ht : a.tags = b.tags)
    (hp : (as.map Node.name).Perm (bs.map Node.name)) : (configure x a as).Resembles (configure x b bs) where
  rest := by simp only [configure, hl, ht]
  backends := hp

/-- Services with the same listeners, tags and target and the same backends, in any order, push the same. -/
theorem ensure_resembles (hl : a.listeners = b.listeners) (ht : a.tags = b.tags)
    (hg : a.givenBalancerId? = b.givenBalancerId?) (hn : a.balancerName? = b.balancerName?)
    (hp : (as.map Node.name).Perm (bs.map Node.name)) (c : MemoryCloud) :
    (c.ensure a as).1 = (c.ensure b bs).1 ∧ (c.ensure a as).2.Resembles (c.ensure b bs).2 := by
  have htarget : c.find? b = c.find? a := by simp only [find?, hg, hn]
  have hgo := c.ensured a as
  generalize c.ensure a as = r at hgo ⊢
  cases hgo with
  | failed hf =>
    simp only [ensure, begin_failing hf]
    exact ⟨trivial, resembles_noted ..⟩
  | unnamed hf hfind =>
    simp only [ensure, begin_calm hf, find?_noted, htarget, hfind]
    exact ⟨trivial, resembles_noted ..⟩
  | @updated x hf hfind =>
    simp only [ensure, begin_calm hf, find?_noted, htarget, hfind]
    exact ⟨trivial, (resembles_noted ..).insert (resembles_configure x hl ht hp) x.id c.allocated⟩
  | refused hf hfind hid =>
    simp only [ensure, begin_calm hf, find?_noted, htarget, hfind, ← hg, hid]
    exact ⟨trivial, resembles_noted ..⟩
  | extended hf hfind hid hname =>
    simp only [ensure, begin_calm hf, find?_noted, htarget, hfind, ← hg, hid, ← hn, hname]
    exact ⟨rfl, (resembles_noted ..).insert (resembles_configure _ hl ht hp) _ (c.allocated + 1)⟩

end MemoryCloud

namespace Service

/-- Whether two services, each with some nodes, push the same to every cloud: they find or make the same balancer there,
which gets the same listeners and tags, and the same backends in any order. -/
structure SamePush (a : Service) (as : List Node) (b : Service) (bs : List Node) : Prop where
  listeners : a.listeners = b.listeners
  tags : a.tags = b.tags
  target : ∀ cloud : MemoryCloud, cloud.find? a = cloud.find? b
  name : a.balancerName? = b.balancerName?
  backends : (as.map Node.name).Perm (bs.map Node.name)
  ensured : ∀ cloud : MemoryCloud, (cloud.ensure a as).1 = (cloud.ensure b bs).1 ∧
    (cloud.ensure a as).2.Resembles (cloud.ensure b bs).2

theorem samePush {a b : Service} {as bs : List Node} (hs : a.spec = b.spec)
    (hi : a.info.annotationMap = b.info.annotationMap) (hu : a.info.uid = b.info.uid)
    (hp : (as.map Node.name).Perm (bs.map Node.name)) : SamePush a as b bs := by
  have hl : a.listeners = b.listeners := listeners_eq hs
  have ht : a.tags = b.tags := by rw [tags, tags, hi]
  have hg : a.givenBalancerId? = b.givenBalancerId? := by rw [givenBalancerId?, givenBalancerId?, hi]
  have hn : a.balancerName? = b.balancerName? := by rw [balancerName?, balancerName?, hu]
  exact ⟨hl, ht, fun cloud => by simp only [MemoryCloud.find?, hg, hn], hn, hp,
    MemoryCloud.ensure_resembles hl ht hg hn hp⟩

theorem not_confused_of_injective {digest : String → String} (h : Function.Injective digest) (a b : Service)
    (as bs : List Node) : ¬Confused digest a as b bs := by
  rintro (⟨hne, heq⟩ | ⟨hne, heq⟩) <;> exact hne (h heq)

/-- The hashed bytes of services tell what they ask for and their annotations, and nothing else. Unless two hashed texts
have one digest, which an injective digest rules out, a fingerprint tells the hash of a service and the names of its
backends, in no order, and under one UID services with one fingerprint push the same. -/
theorem hashes_faithful :
    (∀ a b : Service, a.content.text.toUTF8 = b.content.text.toUTF8 ↔
      a.spec = b.spec ∧ a.info.annotationMap = b.info.annotationMap) ∧
    ∀ (digest : String → String) (a b : Service) (as bs : List Node),
      ((as.map Node.name).Perm (bs.map Node.name) → a.fingerprint digest as = a.fingerprint digest bs) ∧
      (¬Confused digest a as b bs →
        (a.fingerprint digest as = b.fingerprint digest bs ↔
          a.hash digest = b.hash digest ∧ (as.map Node.name).Perm (bs.map Node.name)) ∧
        (a.info.uid = b.info.uid → a.fingerprint digest as = b.fingerprint digest bs → SamePush a as b bs)) := by
  refine ⟨fun a b => content_bytes_eq_iff, fun digest a b as bs => ⟨fun hp => ?_, fun hd => ⟨?_, fun hu hf => ?_⟩⟩⟩
  · exact congrArg digest (pushContent_eq_iff.mpr ⟨rfl, hp⟩)
  · exact fingerprint_eq_iff fun hc => hd (.inr hc)
  · obtain ⟨hi, hs, hp⟩ := fingerprint_injective hf hd
    exact samePush hs hi hu hp

section Example

private def shelfPort (n : Int) : ServiceSpec := { type := some "LoadBalancer", ports := some [{ port := n }] }

private def shelf : Service where
  info := { name := some "shelf", ns := some "default", uid := some "u1" }
  spec := some (shelfPort 80)

private def labelled : Service :=
  { shelf with info := { shelf.info.setLabel "tier" "front" with annotations := some ∅ } }

private def moved : Service := { shelf with spec := some (shelfPort 443) }

private def nodeNamed (name : String) : Node := { info := { name := some name } }

private def upward : List Node := [nodeNamed "n1", nodeNamed "n2"]

private def downward : List Node := [nodeNamed "n2", nodeNamed "n1"]

/-- Labels, absent annotations and the order of the nodes leave a fingerprint as it is, and another port does not. -/
theorem hashes_faithful_labelled :
    (¬Confused Digest.short shelf upward labelled downward ∧ shelf.info.uid = labelled.info.uid ∧
      shelf.fingerprint Digest.short upward = labelled.fingerprint Digest.short downward ∧
      SamePush shelf upward labelled downward) ∧
    ¬Confused id shelf upward moved upward ∧ shelf.fingerprint id upward ≠ moved.fingerprint id upward := by
  have hp : (upward.map Node.name).Perm (downward.map Node.name) := .swap _ _ _
  have hcontent : shelf.content = labelled.content := rfl
  have hhash : shelf.hash Digest.short = labelled.hash Digest.short := by rw [hash, hash, hcontent]
  have hd : ¬Confused Digest.short shelf upward labelled downward := by
    rintro (⟨hne, -⟩ | ⟨hne, -⟩)
    · exact hne (congrArg Json.text hcontent)
    · exact hne (pushContent_eq_iff.mpr ⟨hhash, hp⟩)
  obtain ⟨hiff, hsame⟩ := (hashes_faithful.2 Digest.short shelf labelled upward downward).2 hd
  have hf := hiff.mpr ⟨hhash, hp⟩
  have hid := not_confused_of_injective Function.injective_id shelf moved upward upward
  refine ⟨⟨hd, rfl, hf, hsame rfl hf⟩, hid, fun heq => ?_⟩
  have htext : shelf.content.text = moved.content.text :=
    (((hashes_faithful.2 id shelf moved upward upward).2 hid).1.mp heq).1
  have hspec := ((hashes_faithful.1 shelf moved).mp (congrArg String.toUTF8 htext)).1
  exact absurd hspec (by decide)

end Example

end Service

end ServiceBalancer
