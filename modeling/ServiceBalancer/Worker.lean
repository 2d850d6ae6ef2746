import ServiceBalancer.Backoff
import ServiceBalancer.Error
import ServiceBalancer.Queue.WorkQueue

/-! What a worker does with a key after it was synced: a key whose sync failed goes back to the
queue after a delay, which grows while the cloud throttles. -/
namespace ServiceBalancer

structure Requeue where
  reason : String
  delay : Duration
  deriving DecidableEq, Repr

/-- The outcome of a sync; none if it broke down. -/
abbrev SyncOutcome := Option (Except Error Unit)

namespace Worker

/-- Decides whether a key is put back. Throttling alone moves the backoff. -/
def requeue? (errorDelay clock : Duration) (b : Backoff) : SyncOutcome → Option Requeue × Backoff
  | some (.ok _) => (none, b)
  | some (.error e) =>
    if e.isThrottled then
      let (delay, b) := b.next clock
      (some ⟨"throttled", delay⟩, b)
    else (some ⟨"error", errorDelay⟩, b)
  | none => (some ⟨"panic", errorDelay⟩, b)

variable {α : Type} [DecidableEq α]

/-- Puts an item back if it has to be, and releases it. The worker is lost with the item in hand if
the delay is past what the clock can show. -/
def handBack (q : WorkQueue α) (now : Duration) (a : α) : Option Requeue → WorkQueue.Delayed α
  | none => .settled (q.release a)
  | some r =>
    match q.addAfter now a r.delay with
    | .settled q => .settled (q.release a)
    | .timed q deadline => .timed (q.release a) deadline
    | .overflow => .overflow

end Worker
end ServiceBalancer
