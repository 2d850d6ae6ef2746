import ServiceBalancer.Routing
import Mathlib.Tactic.SplitIfs

/-! Updates of nodes that the router passes over. Labels, schedulability and the first Ready condition are compared,
while the choice of backends looks at all conditions, and at whether there are any. So a pool can go stale, but only
in the two ways in which conditions may differ behind an equal first Ready condition. -/
namespace ServiceBalancer

namespace Node
variable {a b n : Node}

def deniesReady (n : Node) : Bool := n.conditions.any (fun c => c.type = "Ready" && c.status ≠ "True")

/-- Whether two versions of a node with equal first Ready conditions may still differ in readiness. Without such a
condition it counts whether there are others; after one that is true it counts whether a later one is not. -/
def DiffersBehind (a b : Node) : Prop :=
  a.readiness? = none ∧ a.conditions.isEmpty ≠ b.conditions.isEmpty ∨
    a.readiness? = some "True" ∧ a.deniesReady ≠ b.deniesReady

instance (a b : Node) : Decidable (a.DiffersBehind b) := inferInstanceAs (Decidable (_ ∨ _))

theorem isReady_eq (n : Node) : n.isReady = (!n.conditions.isEmpty && !n.deniesReady) := by
  have hall : n.conditions.all (fun c => c.type ≠ "Ready" || c.status = "True") = !n.deniesReady := by
    rw [deniesReady, List.not_any_eq_all_not]
    congr 1
    funext c
    by_cases ht : c.type = "Ready" <;> simp [ht]
  rw [isReady, hall]

theorem deniesReady_of_unreported (h : n.readiness? = none) : n.deniesReady = false := by
  have hnone : ∀ c ∈ n.conditions, c.type ≠ "Ready" := by simpa [readiness?] using h
  apply List.any_eq_false.mpr
  intro c hc
  simp [hnone c hc]

/-- What the first Ready condition says is said by a condition of the node. -/
theorem mem_of_readiness {status : String} (h : n.readiness? = some status) :
    ∃ c ∈ n.conditions, c.type = "Ready" ∧ c.status = status := by
  obtain ⟨c, hc, hs⟩ := Option.map_eq_some_iff.mp h
  exact ⟨c, List.mem_of_find?_eq_some hc, by simpa using List.find?_some hc, hs⟩

/-- Behind equal first Ready conditions readiness differs in two ways only. -/
theorem isReady_eq_iff (h : a.readiness? = b.readiness?) : a.isReady = b.isReady ↔ ¬a.DiffersBehind b := by
  rw [isReady_eq, isReady_eq, DiffersBehind]
  cases hr : a.readiness? with
  | none =>
    rw [deniesReady_of_unreported hr, deniesReady_of_unreported (h ▸ hr)]
    simp
  | some status =>
    have reported : ∀ n : Node, n.readiness? = some status → n.conditions.isEmpty = false := by
      intro n hn
      obtain ⟨c, hc, _⟩ := mem_of_readiness hn
      simpa using List.ne_nil_of_mem hc
    have denied : status ≠ "True" → ∀ n : Node, n.readiness? = some status → n.deniesReady = true := by
      intro hs n hn
      obtain ⟨c, hc, ht, rfl⟩ := mem_of_readiness hn
      exact List.any_eq_true.mpr ⟨c, hc, by simp [ht, hs]⟩
    rw [reported a hr, reported b (h ▸ hr)]
    by_cases hs : status = "True"
    · simp [hs]
    · simp [hs, denied hs a hr, denied hs b (h ▸ hr)]

end Node

namespace Service
variable {svc : Service} {old new : Node}

def takes (svc : Service) (n : Node) : Bool := !n.isExcluded && svc.accepts n

/-- Whether it rests with the conditions of a node if a service takes it: neither the operator nor a label nor
schedulability has settled the matter. -/
def weighsConditions (svc : Service) (n : Node) : Bool :=
  !n.isExcluded && !(n.unschedulable && svc.dropsUnschedulable) && !(n.isMaster && !svc.routesClusterWide) &&
    !n.isVirtual

theorem mem_availableNodes {nodes : List Node} {n : Node} :
    n ∈ svc.availableNodes nodes ↔ n ∈ nodes ∧ svc.takes n = true := List.mem_filter

theorem availableNodes_append (xs ys : List Node) :
    svc.availableNodes (xs ++ ys) = svc.availableNodes xs ++ svc.availableNodes ys := List.filter_append xs ys

theorem availableNodes_cons (n : Node) (nodes : List Node) :
    svc.availableNodes (n :: nodes) = (if svc.takes n then [n] else []) ++ svc.availableNodes nodes := by
  have hfilter : svc.availableNodes (n :: nodes) = if svc.takes n then n :: svc.availableNodes nodes
      else svc.availableNodes nodes := List.filter_cons
  rw [hfilter]
  split_ifs <;> rfl

/-- Nodes that differ in their conditions only are both taken or both not, unless it rests with the conditions. -/
theorem takes_eq_iff (hl : old.info.labelMap = new.info.labelMap) (hu : old.unschedulable = new.unschedulable) :
    svc.takes old = svc.takes new ↔ (svc.weighsConditions old = true → old.isReady = new.isReady) := by
  have hexcluded : new.isExcluded = old.isExcluded := by rw [Node.isExcluded, Node.isExcluded, hl]
  have hmaster : new.isMaster = old.isMaster := by rw [Node.isMaster, Node.isMaster, hl]
  have hvirtual : new.isVirtual = old.isVirtual := by rw [Node.isVirtual, Node.isVirtual, hl]
  simp only [takes, accepts, weighsConditions, hexcluded, hmaster, hvirtual, hu]
  cases old.isExcluded
  · split_ifs with h₁ h₂
    · simp [h₁]
    · simp [h₂]
    · cases old.isVirtual <;> simp [h₁, h₂]
  · simp

end Service

namespace Routing
variable {old new : Node}

/-- A node update is passed over if the operator excludes both versions, or nothing that is compared differs. -/
theorem nodeMatters_eq_false : nodeMatters (.updated old new) = false ↔
    old.isExcluded = true ∧ new.isExcluded = true ∨
      old.info.labelMap = new.info.labelMap ∧ old.unschedulable = new.unschedulable ∧
        old.readiness? = new.readiness? := by
  simp only [nodeMatters, Node.differs, Bool.and_eq_false_iff, Bool.and_eq_true, Bool.or_eq_false_iff,
    decide_eq_false_iff_not, Decidable.not_not, and_assoc, Bool.not_eq_eq_eq_not, Bool.not_false]

/-- A service takes both versions of a node or neither, if the update is passed over, unless it rests with the
conditions and these differ behind equal first Ready conditions. -/
theorem takes_of_passed_over (hdrop : nodeMatters (.updated old new) = false) (svc : Service) :
    svc.takes old = svc.takes new ↔ ¬(svc.weighsConditions old = true ∧ old.DiffersBehind new) := by
  rcases nodeMatters_eq_false.mp hdrop with ⟨hold, hnew⟩ | ⟨hl, hu, hr⟩
  · simp [Service.takes, Service.weighsConditions, hold, hnew]
  · rw [Service.takes_eq_iff hl hu, Node.isReady_eq_iff hr, not_and]

/-- An update of a node that is passed over leaves the node in or out of every pool of backends, and every pool as it
is, exactly if it does not rest with the conditions of the node, or these do not differ behind equal first Ready
conditions. -/
theorem pool_kept_iff (hname : old.name = new.name) (hdrop : nodeMatters (.updated old new) = false) (svc : Service)
    (before after : List Node) :
    ((old ∈ svc.availableNodes (before ++ old :: after) ↔ new ∈ svc.availableNodes (before ++ new :: after)) ↔
      ¬(svc.weighsConditions old = true ∧ old.DiffersBehind new)) ∧
    ((svc.availableNodes (before ++ old :: after)).map Node.name =
        (svc.availableNodes (before ++ new :: after)).map Node.name ↔
      ¬(svc.weighsConditions old = true ∧ old.DiffersBehind new)) := by
  rw [← takes_of_passed_over hdrop svc]
  constructor
  · simp only [Service.mem_availableNodes, List.mem_append, List.mem_cons, true_or, or_true, true_and]
    exact Bool.eq_iff_iff.symm
  · simp only [Service.availableNodes_append, Service.availableNodes_cons, List.map_append, List.append_cancel_left_eq,
      List.append_cancel_right_eq]
    cases svc.takes old <;> cases svc.takes new <;> simp [hname]

private def worker (conditions : List NodeCondition) : Node := { info := { name := some "n1" }, conditions }

/-- A ready node that comes under pressure stays where it is. -/
theorem pool_kept_under_pressure :
    (worker [⟨"Ready", "True"⟩]).name = (worker [⟨"MemoryPressure", "True"⟩, ⟨"Ready", "True"⟩]).name ∧
    nodeMatters (.updated (worker [⟨"Ready", "True"⟩])
      (worker [⟨"MemoryPressure", "True"⟩, ⟨"Ready", "True"⟩])) = false ∧
    (({} : Service).availableNodes [worker [], worker [⟨"Ready", "True"⟩]]).map Node.name =
      (({} : Service).availableNodes
        [worker [], worker [⟨"MemoryPressure", "True"⟩, ⟨"Ready", "True"⟩]]).map Node.name := by
  have hdrop : nodeMatters (.updated (worker [⟨"Ready", "True"⟩])
      (worker [⟨"MemoryPressure", "True"⟩, ⟨"Ready", "True"⟩])) = false := by decide
  have hkept := pool_kept_iff rfl hdrop {} [worker []] []
  exact ⟨rfl, hdrop, hkept.2.mpr (by decide)⟩

/-- The first report of a node, if it is not about its readiness, is passed over; but the node is taken from then on. -/
theorem not_pool_kept_first_report :
    ¬∀ (old new : Node) (svc : Service), old.name = new.name → nodeMatters (.updated old new) = false →
      (old ∈ svc.availableNodes [old] ↔ new ∈ svc.availableNodes [new]) := by
  intro hkept
  have hfirst := hkept (worker []) (worker [⟨"NetworkUnavailable", "False"⟩]) {} rfl (by decide)
  revert hfirst
  decide

end Routing
end ServiceBalancer
