import ServiceBalancer.Queue.Timed
import ServiceBalancer.Simulation.Timeline

/-! A work queue on its own, with people who wait for items. -/
namespace ServiceBalancer.Simulation

structure Receipt (α ι : Type) where
  who : ι
  item : Option α
  time : Nat
  deriving Repr

structure QueueTrial (α ι : Type) where
  timed : TimedQueue α ι := {}
  /-- Oldest first. -/
  receipts : List (Receipt α ι) := []

namespace QueueTrial
variable {α ι : Type} [DecidableEq α]

instance : Inhabited (QueueTrial α ι) := ⟨{}⟩

def serve (s : QueueTrial α ι) (who : ι) : QueueTrial α ι :=
  let (handout, timed) := s.timed.poll who
  let receipts := match handout with
    | .item a => s.receipts ++ [⟨who, some a, timed.now⟩]
    | .closed => s.receipts ++ [⟨who, none, timed.now⟩]
    | .blocked => s.receipts
  { timed, receipts }

def step? (s : QueueTrial α ι) : Option (QueueTrial α ι) :=
  s.timed.step?.map (fun (someone, timed) =>
    let s := { s with timed }
    match someone with
    | some who => s.serve who
    | none => s)

def line : Timeline (QueueTrial α ι) (Errand α ι) where
  step? := step?
  agenda s := s.timed.agenda
  setAgenda s agenda := { s with timed := { s.timed with agenda } }

def settle (s : QueueTrial α ι) : QueueTrial α ι := line.settle s

def pass (s : QueueTrial α ι) (millis : Nat) : QueueTrial α ι := line.passTo (s.timed.now + millis) s

end QueueTrial
end ServiceBalancer.Simulation
