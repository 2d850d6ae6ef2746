import ServiceBalancer.Object.Meta

/-! Nodes: what decides whether a node can take traffic for a balancer. -/
namespace ServiceBalancer

structure NodeCondition where
  type : String := ""
  status : String := ""
  deriving DecidableEq

/-- A node. It counts as schedulable unless it says otherwise. -/
structure Node where
  info : Meta := {}
  unschedulable : Bool := false
  conditions : List NodeCondition := []
  deriving DecidableEq, Inhabited

namespace Node

def name (n : Node) : String := n.info.displayName

def ofJson? (j : Json) : Option Node := do
  guard (Resource.admits "Node" "v1" j)
  let condition (c : Json) : Option NodeCondition := do
    guard c.isObject
    return { type := ← c.orElse? "type" Json.str? "", status := ← c.orElse? "status" Json.str? "" }
  let whole (j : Json) : Option Json := if j.isObject then some j else none
  let spec ← j.orElse? "spec" whole (.obj [])
  let status ← j.orElse? "status" whole (.obj [])
  return {
    info := ← Resource.infoOf? j
    unschedulable := ← spec.orElse? "unschedulable" Json.bool? false
    conditions := ← status.orElse? "conditions" (Json.list? condition) [] }

end Node

instance : Resource Node := ⟨Node.info, "Node", "v1", Node.ofJson?⟩

end ServiceBalancer
