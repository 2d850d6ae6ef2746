import ServiceBalancer.Duration

/-! Time that stands still while there is work. Tasks run one at a time, in the order they were
woken. Only when none is ready does time move, to the next timer, and it moves in whole
milliseconds. -/
namespace ServiceBalancer

/-- Times that a clock can show are below this one. A clock does not start at zero, so the last
second of 63 bits is out of reach. -/
def clockLimit : Duration := .ofSeconds (Nat.pow 2 63 - 1)

def longestSleep : Duration := .ofSeconds (30 * 365 * 24 * 60 * 60)

structure Agenda (τ : Type) where
  /-- The time in milliseconds. -/
  now : Nat := 0
  /-- Tasks to run, in order. -/
  ready : List τ := []
  /-- When each timer ends, in the order the timers were started. -/
  timers : List (Nat × τ) := []

namespace Agenda
variable {τ : Type}

instance : Inhabited (Agenda τ) := ⟨{}⟩

def clock (a : Agenda τ) : Duration := .ofMillis a.now

def dueAt (moment : Duration) : Nat := (moment.nanos + 999999) / 1000000

def after (a : Agenda τ) (pause : Duration) : Duration :=
  let moment : Duration := ⟨a.clock.nanos + pause.nanos⟩
  if clockLimit ≤ moment then ⟨a.clock.nanos + longestSleep.nanos⟩ else moment

def wake (a : Agenda τ) (t : τ) : Agenda τ := { a with ready := a.ready ++ [t] }

def startTimer (a : Agenda τ) (due : Nat) (t : τ) : Agenda τ := { a with timers := a.timers ++ [(due, t)] }

def next? (a : Agenda τ) : Option (τ × Agenda τ) :=
  match a.ready with
  | [] => none
  | t :: rest => some (t, { a with ready := rest })

def nextDue? (a : Agenda τ) : Option Nat := (a.timers.map (·.1)).min?

def moveTo (a : Agenda τ) (time : Nat) : Agenda τ where
  now := time
  ready := a.ready ++ (a.timers.filter (fun t => t.1 ≤ time)).map (·.2)
  timers := a.timers.filter (fun t => time < t.1)

end Agenda
end ServiceBalancer
