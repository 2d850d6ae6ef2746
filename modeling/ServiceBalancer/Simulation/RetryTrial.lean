import ServiceBalancer.Agenda
import ServiceBalancer.Retry

/-! A retried operation on its own, with outcomes that are given beforehand. -/
namespace ServiceBalancer.Simulation

structure RetryTrial where
  /-- The outcome of each try; the last one goes on for ever, and without one a try succeeds. -/
  outcomes : List (Except Error Unit)
  agenda : Agenda Unit := {}
  /-- The times of the tries in milliseconds, oldest first. -/
  times : List Nat := []

namespace RetryTrial

def nextOutcome : List (Except Error Unit) → Except Error Unit × List (Except Error Unit)
  | [] => (.ok (), [])
  | [last] => (last, [last])
  | outcome :: rest => (outcome, rest)

/-- Answers a request. Chance always draws zero. -/
def answer : (q : Retry.Request) → RetryTrial → Option (Retry.Answer q) × RetryTrial
  | .attempt, s =>
    let (outcome, outcomes) := nextOutcome s.outcomes
    (some outcome, { s with outcomes, times := s.times ++ [s.agenda.now] })
  | .sleep pause, s => (some (), { s with agenda := s.agenda.moveTo (Agenda.dueAt (s.agenda.after pause)) })
  | .draw, s => (some 0.0, s)

def run (policy : RetryPolicy) (outcomes : List (Except Error Unit)) : Option (Except Error Unit) × RetryTrial :=
  (Retry.attempts policy).run answer { outcomes }

end RetryTrial
end ServiceBalancer.Simulation
