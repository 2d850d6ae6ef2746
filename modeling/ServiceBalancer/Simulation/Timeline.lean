import ServiceBalancer.Agenda

/-! Running what lives on an agenda: until nothing is ready, and on to a later time. -/
namespace ServiceBalancer.Simulation

structure Timeline (σ τ : Type) where
  /-- Does the next piece of work that is ready. -/
  step? : σ → Option σ
  agenda : σ → Agenda τ
  setAgenda : σ → Agenda τ → σ

namespace Timeline
variable {σ τ : Type}

/-- A bound on the pieces of work done at a stretch, which only a state that never rests reaches. -/
def patience : Nat := 1000000000

def settleWithin (line : Timeline σ τ) : Nat → σ → σ
  | 0, s => s
  | fuel + 1, s =>
    match line.step? s with
    | some s => line.settleWithin fuel s
    | none => s

def settle (line : Timeline σ τ) (s : σ) : σ := line.settleWithin patience s

def passWithin (line : Timeline σ τ) (time : Nat) : Nat → σ → σ
  | 0, s => s
  | fuel + 1, s =>
    let s := line.settle s
    let move (t : Nat) : σ := line.setAgenda s ((line.agenda s).moveTo t)
    match (line.agenda s).nextDue? with
    | some due => if due < time then line.passWithin time fuel (move due) else move time
    | none => move time

/-- Lets time pass up to `time`. What becomes ready just then is not done yet. -/
def passTo (line : Timeline σ τ) (time : Nat) (s : σ) : σ :=
  if time ≤ (line.agenda s).now then s else line.passWithin time patience s

end Timeline
end ServiceBalancer.Simulation
