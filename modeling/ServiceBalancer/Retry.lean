import ServiceBalancer.Error
import ServiceBalancer.Program

/-! Bounded repetition of an operation that asks to be tried again. -/
namespace ServiceBalancer

/-- How often an operation is tried, and the pauses between the tries. -/
structure RetryPolicy where
  initialMillis : Nat := 1000
  factor : Float := 2.0
  steps : Nat := 8
  jitter : Float := 4.0
  deriving Inhabited

namespace RetryPolicy

def deletion : RetryPolicy := {}

def status : RetryPolicy := { deletion with steps := 3 }

def initial (p : RetryPolicy) : Duration := .ofMillis p.initialMillis

end RetryPolicy

namespace Retry
variable {Q : Type} {A : Q → Type}

/-- How a program waits, and how it draws a number between zero and one. -/
structure Pausing (A : Q → Type) where
  sleep : Duration → Program A Unit
  draw : Program A Float

def pause (io : Pausing A) (delay : Duration) (jitter : Float) : Program A Unit := do
  if 0.0 < jitter then
    let chance ← io.draw
    io.sleep (delay.addSaturating (delay.scale (chance * jitter)))
  else io.sleep delay

def tryFrom (io : Pausing A) (policy : RetryPolicy) (op : Program A (Except Error Unit)) :
    Nat → Nat → Duration → Program A (Except Error Unit)
  | 0, attempt, _ => do
    match ← op with
    | .error e => if e.isTryAgain then return .error (.retryExhausted attempt e) else return .error e
    | .ok () => return .ok ()
  | left + 1, attempt, delay => do
    match ← op with
    | .error e =>
      if e.isTryAgain then
        pause io delay policy.jitter
        tryFrom io policy op left (attempt + 1) (delay.scale policy.factor)
      else return .error e
    | .ok () => return .ok ()

/-- Tries an operation until it succeeds, fails for good, or has been tried as often as the policy
says, but at least once. -/
def retry (io : Pausing A) (policy : RetryPolicy) (op : Program A (Except Error Unit)) :
    Program A (Except Error Unit) :=
  tryFrom io policy op (policy.steps - 1) 1 policy.initial

inductive Request where
  | attempt
  | sleep (delay : Duration)
  | draw

abbrev Answer : Request → Type
  | .attempt => Except Error Unit
  | .sleep _ => Unit
  | .draw => Float

def attempts (policy : RetryPolicy) : Program Answer (Except Error Unit) :=
  retry ⟨fun d => .request (Request.sleep d), .request Request.draw⟩ policy (.request Request.attempt)

end Retry
end ServiceBalancer
