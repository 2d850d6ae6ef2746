import ServiceBalancer.Error

/-! Failed writes of a published status. -/
namespace ServiceBalancer

inductive StatusWriteError where
  | notFound
  | conflict
  | failed (e : Error)
  deriving DecidableEq, Repr

def StatusWriteError.text : StatusWriteError → String
  | notFound => "service not found"
  | conflict => "service was modified concurrently"
  | failed e => e.text

end ServiceBalancer
