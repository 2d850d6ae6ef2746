import ServiceBalancer.Agenda

/-! A work queue that holds every item at most once, hands no item to two workers at a time, and
can take an item in after a delay. -/
namespace ServiceBalancer

structure WorkQueue (α : Type) where
  /-- What the queue is called. -/
  name : String := ""
  /-- Items to hand out, first come first served. -/
  ready : List α := []
  /-- Items that need work: those that are ready, and those added again while held. -/
  dirty : List α := []
  /-- Items that a worker holds. -/
  processing : List α := []
  /-- The earliest deadline of each delayed item. -/
  waiting : List (α × Duration) := []
  shuttingDown : Bool := false
  deriving Repr

namespace WorkQueue
variable {α : Type} [DecidableEq α]

instance : Inhabited (WorkQueue α) := ⟨{}⟩

/-- Marks an item as needing work. It becomes ready unless a worker holds it. -/
def add (q : WorkQueue α) (a : α) : WorkQueue α :=
  if q.shuttingDown ∨ a ∈ q.dirty then q
  else if a ∈ q.processing then { q with dirty := a :: q.dirty }
  else { q with dirty := a :: q.dirty, ready := q.ready ++ [a] }

/-- The first ready item, which the caller then holds. A queue that is shut down hands out nothing. -/
def take? (q : WorkQueue α) : Option (α × WorkQueue α) :=
  if q.shuttingDown then none
  else
    match q.ready with
    | [] => none
    | a :: rest => some (a, { q with
        ready := rest, dirty := q.dirty.filter (· ≠ a), processing := a :: q.processing.filter (· ≠ a) })

/-- Releases a held item, which becomes ready if it was added meanwhile. -/
def release (q : WorkQueue α) (a : α) : WorkQueue α :=
  let q := { q with processing := q.processing.filter (· ≠ a) }
  if a ∈ q.dirty ∧ ¬q.shuttingDown then { q with ready := q.ready ++ [a] } else q

def deadline? (q : WorkQueue α) (a : α) : Option Duration :=
  (q.waiting.find? (fun w => w.1 = a)).map (·.2)

inductive Delayed (α : Type) where
  /-- The item was added, or nothing was to be done. -/
  | settled (q : WorkQueue α)
  /-- A timer has to fire at the deadline. -/
  | timed (q : WorkQueue α) (deadline : Duration)
  /-- The deadline is past what the clock can show. -/
  | overflow

/-- Adds an item after a delay. Of several deadlines of one item the earliest counts. -/
def addAfter (q : WorkQueue α) (now : Duration) (a : α) (delay : Duration) : Delayed α :=
  if delay = .zero then .settled (q.add a)
  else
    let deadline : Duration := ⟨now.nanos + delay.nanos⟩
    if clockLimit ≤ deadline then .overflow
    else if q.shuttingDown then .settled q
    else
      let timed := { q with waiting := (a, deadline) :: q.waiting.filter (fun w => w.1 ≠ a) }
      match q.deadline? a with
      | some earlier => if earlier ≤ deadline then .settled q else .timed timed deadline
      | none => .timed timed deadline

/-- Fires a timer: the item is added if the timer's deadline still counts. A program may drop the deadline
and add the item under two locks, which is one step here: what others do between the two comes to the same as if their
delayed adds were done after the step and all else before it. -/
def fire (q : WorkQueue α) (a : α) (deadline : Duration) : WorkQueue α :=
  if q.deadline? a = some deadline then
    { q with waiting := q.waiting.filter (fun w => w.1 ≠ a) }.add a
  else q

/-- Shuts the queue down: nothing is handed out or taken in from now on. -/
def shutDown (q : WorkQueue α) : WorkQueue α := { q with shuttingDown := true, waiting := [] }

def size (q : WorkQueue α) : Nat := q.ready.length

end WorkQueue
end ServiceBalancer
