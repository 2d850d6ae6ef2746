import ServiceBalancer.Queue.Signal
import ServiceBalancer.Queue.WorkQueue

/-! A work queue on a clock. A delayed add is a timer, and those who wait for an item sleep until
one is ready. -/
namespace ServiceBalancer

/-- Work that is done on a queue's clock: by the queue itself, or by someone who uses it. -/
inductive Errand (α ι : Type) where
  | someone (who : ι)
  /-- A delayed add sets its timer. -/
  | setTimer (a : α) (deadline : Duration)
  /-- The timer of a delayed add has ended. -/
  | fire (a : α) (deadline : Duration)

structure TimedQueue (α ι : Type) where
  queue : WorkQueue α := {}
  signal : Signal ι := {}
  agenda : Agenda (Errand α ι) := {}

inductive Handout (α : Type) where
  | item (a : α)
  /-- The queue is shut down. -/
  | closed
  /-- There is nothing yet; the one who asked sleeps until woken. -/
  | blocked
  deriving DecidableEq, Repr

namespace TimedQueue
variable {α ι : Type}

instance : Inhabited (TimedQueue α ι) := ⟨{}⟩

def now (q : TimedQueue α ι) : Nat := q.agenda.now

def wake (q : TimedQueue α ι) (who : ι) : TimedQueue α ι := { q with agenda := q.agenda.wake (.someone who) }

def sleepUntil (q : TimedQueue α ι) (moment : Duration) (who : ι) : TimedQueue α ι :=
  { q with agenda := q.agenda.startTimer (Agenda.dueAt moment) (.someone who) }

def notify (q : TimedQueue α ι) : TimedQueue α ι :=
  let (woken, signal) := q.signal.notifyOne
  let q := { q with signal }
  match woken with
  | some who => q.wake who
  | none => q

def change (q : TimedQueue α ι) (queue : WorkQueue α) : TimedQueue α ι :=
  let changed := { q with queue }
  if q.queue.size < queue.size then changed.notify else changed

variable [DecidableEq α]

def add (q : TimedQueue α ι) (a : α) : TimedQueue α ι := q.change (q.queue.add a)

def release (q : TimedQueue α ι) (a : α) : TimedQueue α ι := q.change (q.queue.release a)

/-- Takes over the outcome of a delayed add. There is none past what the clock can show. -/
def delayed? (q : TimedQueue α ι) (a : α) : WorkQueue.Delayed α → Option (TimedQueue α ι)
  | .settled queue => some (q.change queue)
  | .timed queue deadline =>
    let q := q.change queue
    some { q with agenda := q.agenda.wake (.setTimer a deadline) }
  | .overflow => none

def addAfter? (q : TimedQueue α ι) (a : α) (delay : Duration) : Option (TimedQueue α ι) :=
  q.delayed? a (q.queue.addAfter q.agenda.clock a delay)

/-- Asks for an item. A stored wake-up is used up before one sleeps. -/
def poll (q : TimedQueue α ι) (who : ι) : Handout α × TimedQueue α ι :=
  if q.queue.shuttingDown then (.closed, q)
  else
    match q.queue.take? with
    | some (a, queue) => (.item a, { q with queue })
    | none =>
      let (asleep, signal) := q.signal.sleep who
      (.blocked, { q with signal := if asleep then signal else (signal.sleep who).2 })

def pollOnce [DecidableEq ι] (q : TimedQueue α ι) (who : ι) : Handout α × TimedQueue α ι :=
  let (handout, q) := q.poll who
  (handout, { q with signal := { q.signal with sleepers := q.signal.sleepers.filter (· ≠ who) } })

def shutDown (q : TimedQueue α ι) : TimedQueue α ι :=
  let (woken, signal) := q.signal.notifyAll
  woken.foldl wake { q with queue := q.queue.shutDown, signal }

/-- Does the next errand that is ready. If it is someone's, it is theirs to do. -/
def step? (q : TimedQueue α ι) : Option (Option ι × TimedQueue α ι) :=
  match q.agenda.next? with
  | none => none
  | some (.someone who, agenda) => some (some who, { q with agenda })
  | some (.setTimer a deadline, agenda) =>
    let q := { q with agenda }
    if Agenda.dueAt deadline ≤ q.now then some (none, q.change (q.queue.fire a deadline))
    else some (none, { q with agenda := agenda.startTimer (Agenda.dueAt deadline) (.fire a deadline) })
  | some (.fire a deadline, agenda) =>
    let q := { q with agenda }
    some (none, q.change (q.queue.fire a deadline))

end TimedQueue
end ServiceBalancer
