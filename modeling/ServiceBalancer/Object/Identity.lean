import ServiceBalancer.Object.Meta

/-! The identity of an object among those of its kind. -/
namespace ServiceBalancer

/-- Namespace and name of an object. No namespace is not the empty one. -/
structure ObjectId where
  ns : Option String
  name : String
  deriving DecidableEq, Repr, Inhabited

namespace ObjectId

/-- Objects without a namespace come first; else the namespace goes before the name. -/
instance : Ord ObjectId := ⟨compareLex (compareOn ObjectId.ns) (compareOn ObjectId.name)⟩

instance : Std.TransOrd ObjectId :=
  inferInstanceAs (Std.TransCmp (compareLex (compareOn ObjectId.ns) (compareOn ObjectId.name)))

instance : Std.LawfulEqOrd ObjectId where
  compare_self {a} := compareLex_eq_eq.mpr
    ⟨Std.ReflOrd.compare_self, Std.ReflOrd.compare_self⟩
  eq_of_compare {a b} h := by
    have h : compareLex (compareOn ObjectId.ns) (compareOn ObjectId.name) a b = .eq := h
    have := compareLex_eq_eq.mp h
    simp only [compareOn, Std.LawfulEqOrd.compare_eq_iff_eq] at this
    cases a; cases b; simp_all

def of {α : Type} [Resource α] (o : α) : ObjectId := ⟨(Resource.info o).ns, (Resource.info o).displayName⟩

end ObjectId
end ServiceBalancer
