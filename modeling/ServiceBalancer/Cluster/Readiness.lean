/-! When the stores of all watched kinds are complete, and when waiting for that is over. -/
namespace ServiceBalancer

/-- How a store came on towards its first complete listing. -/
inductive StorePhase where
  | waiting
  | complete
  /-- Its watch was given up before the first listing. -/
  | abandoned
  deriving DecidableEq, Repr

namespace StorePhase

def areSynced (phases : List StorePhase) : Bool := phases.all (· = complete)

/-- Whether waiting for all stores is over: they are complete, or one never will be. -/
def waitIsOver (phases : List StorePhase) : Bool := areSynced phases || phases.any (· = abandoned)

end StorePhase
end ServiceBalancer
