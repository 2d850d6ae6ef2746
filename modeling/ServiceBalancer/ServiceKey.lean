import ServiceBalancer.Object.Service

/-! The identity of a service, which is the unit of work. -/
namespace ServiceBalancer

/-- Namespace and name of a service; an absent namespace is the empty one. -/
structure ServiceKey where
  ns : String
  name : String
  deriving DecidableEq, Repr, Inhabited

namespace ServiceKey

/-- Keys are ordered by namespace, then by name. -/
instance : Ord ServiceKey := ⟨compareLex (compareOn ServiceKey.ns) (compareOn ServiceKey.name)⟩

instance : Std.TransOrd ServiceKey :=
  inferInstanceAs (Std.TransCmp (compareLex (compareOn ServiceKey.ns) (compareOn ServiceKey.name)))

instance : Std.LawfulEqOrd ServiceKey where
  compare_self {a} := compareLex_eq_eq.mpr
    ⟨Std.ReflOrd.compare_self, Std.ReflOrd.compare_self⟩
  eq_of_compare {a b} h := by
    have h : compareLex (compareOn ServiceKey.ns) (compareOn ServiceKey.name) a b = .eq := h
    have := compareLex_eq_eq.mp h
    simp only [compareOn, Std.LawfulEqOrd.compare_eq_iff_eq] at this
    cases a; cases b; simp_all

def ofMeta (m : Meta) : ServiceKey := ⟨m.ns.getD "", m.displayName⟩

def ofService (svc : Service) : ServiceKey := ofMeta svc.info

def text (k : ServiceKey) : String := if k.ns.isEmpty then k.name else k.ns ++ "/" ++ k.name

end ServiceKey
end ServiceBalancer
