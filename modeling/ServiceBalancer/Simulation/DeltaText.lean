import ServiceBalancer.Cluster.Delta
import ServiceBalancer.Fingerprint
import ServiceBalancer.Object.Identity

/-! Changes of watched objects in words. An object goes by its key and its version. -/
namespace ServiceBalancer

def Resource.tag {α : Type} [Resource α] (o : α) : String :=
  (Resource.info o).key ++ "@" ++ (Resource.info o).resourceVersion.getD ""

namespace Delta
variable {α : Type} [Resource α]

def isDeleted : Delta α → Bool
  | .deleted _ => true
  | _ => false

def text (before : String) : Delta α → String
  | .added o => "added " ++ before ++ Resource.tag o
  | .updated old new => "updated " ++ before ++ Resource.tag old ++ " -> " ++ before ++ Resource.tag new
  | .deleted o => "deleted " ++ before ++ Resource.tag o

/-- Changes in words. Deleted objects come last, ordered by their words. -/
def texts (deltas : List (Delta α)) : List String :=
  (deltas.filter (fun d => !d.isDeleted)).map (text "") ++ sortStrings ((deltas.filter isDeleted).map (text ""))

end Delta
end ServiceBalancer
