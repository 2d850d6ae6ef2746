import ServiceBalancer.Cloud.Balancer
import ServiceBalancer.Eligibility
import ServiceBalancer.Fingerprint
import ServiceBalancer.Proofs.Json.Members
import ServiceBalancer.Proofs.Json.Text

/-! What a fingerprint tells. The hashed texts determine what a balancer is made from, so that equal
fingerprints mean equal listeners and equal backends unless the digest has a collision. -/
namespace ServiceBalancer

/-- The sorted list holds the same strings. -/
theorem sortStrings_perm (l : List String) : (sortStrings l).Perm l := List.mergeSort_perm l _

def Collision (digest : String → String) (s t : String) : Prop := s ≠ t ∧ digest s = digest t

namespace Service

/-- Whether a digest mistakes two services, or the texts hashed for them with some nodes. -/
def Confused (digest : String → String) (a : Service) (as : List Node) (b : Service) (bs : List Node) : Prop :=
  Collision digest a.content.text b.content.text ∨
    Collision digest (a.pushContent digest as).text (b.pushContent digest bs).text

variable {digest : String → String} {a b : Service} {as bs : List Node}

/-- The content of a service determines its annotations and what it asks for. -/
theorem content_injective (h : a.content = b.content) :
    a.info.annotationMap = b.info.annotationMap ∧ a.spec = b.spec := by
  simp only [content, Json.obj.injEq, List.cons.injEq, Prod.mk.injEq, true_and, and_true] at h
  refine ⟨Json.ofStringMap_injective h.1, ?_⟩
  have hs := h.2
  cases ha : a.spec <;> cases hb : b.spec <;> simp only [ha, hb, Option.map_none, Option.map_some,
    Option.getD_none, Option.getD_some] at hs
  · rfl
  · cases hs
  · cases hs
  · rw [ServiceSpec.toJson_injective hs]

/-- Unless the digest is mistaken, a fingerprint determines the content and the backends. -/
theorem fingerprint_injective (h : a.fingerprint digest as = b.fingerprint digest bs)
    (hd : ¬Confused digest a as b bs) :
    a.info.annotationMap = b.info.annotationMap ∧ a.spec = b.spec ∧ (as.map Node.name).Perm (bs.map Node.name) := by
  have htext : (a.pushContent digest as).text = (b.pushContent digest bs).text :=
    Classical.not_not.mp fun hn => hd (.inr ⟨hn, h⟩)
  have hc := Json.text_injective htext
  simp only [pushContent, Json.obj.injEq, List.cons.injEq, Prod.mk.injEq, true_and, and_true, Json.arr.injEq,
    Json.str.injEq] at hc
  have hnames : sortStrings (as.map Node.name) = sortStrings (bs.map Node.name) :=
    (List.map_inj_right fun _ _ => Json.str.inj).mp hc.1
  have hcontent : a.content.text = b.content.text := Classical.not_not.mp fun hn => hd (.inl ⟨hn, hc.2⟩)
  obtain ⟨hi, hs⟩ := content_injective (Json.text_injective hcontent)
  exact ⟨hi, hs, (sortStrings_perm _).symm.trans (hnames ▸ sortStrings_perm _)⟩

theorem listeners_eq (h : a.spec = b.spec) : a.listeners = b.listeners := by
  simp only [listeners, h]

end Service
end ServiceBalancer
