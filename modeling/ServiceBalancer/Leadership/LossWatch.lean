/-! Noticing that leadership was held and is lost. -/
namespace ServiceBalancer

/-- What a watcher of the published leadership remembers: whether it has seen it held. -/
structure LossWatch where
  held : Bool := false
  deriving DecidableEq, Repr

namespace LossWatch

/-- Looks at the published value, and says whether leadership is lost. If nothing can be published
any more, it is. -/
def poll (w : LossWatch) (leading : Bool) (closed : Bool := false) : Bool × LossWatch :=
  ((w.held && !leading) || closed, ⟨w.held || leading⟩)

end LossWatch
end ServiceBalancer
