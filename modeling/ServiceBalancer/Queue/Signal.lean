/-! A wake-up signal: sleepers wait in line, and one signal without a sleeper is kept. -/
namespace ServiceBalancer

structure Signal (ι : Type) where
  sleepers : List ι := []
  stored : Bool := false

namespace Signal
variable {ι : Type}

instance : Inhabited (Signal ι) := ⟨{}⟩

/-- Wakes the first sleeper. Without one, the wake-up is stored; two are stored as one. -/
def notifyOne (s : Signal ι) : Option ι × Signal ι :=
  match s.sleepers with
  | [] => (none, { s with stored := true })
  | first :: rest => (some first, { s with sleepers := rest })

def notifyAll (s : Signal ι) : List ι × Signal ι := (s.sleepers, { s with sleepers := [] })

/-- Goes to sleep at the end of the line, unless a stored wake-up is there to be used up; says
whether the caller sleeps. -/
def sleep (s : Signal ι) (who : ι) : Bool × Signal ι :=
  if s.stored then (false, { s with stored := false })
  else (true, { s with sleepers := s.sleepers ++ [who] })

end Signal
end ServiceBalancer
