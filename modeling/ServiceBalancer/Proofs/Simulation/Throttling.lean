import ServiceBalancer.Proofs.Program.Amid
import ServiceBalancer.Proofs.Simulation.Outcomes
import ServiceBalancer.Proofs.Sync.Failures
import ServiceBalancer.Worker

/-! What a worker makes of a throttled call of the cloud. Its backoff grows if the call looked a balancer up or ensured
one. If the call deleted one, the words of the report tell no kind any more, and the worker takes it for any failure. -/
namespace ServiceBalancer
namespace Sync
open Program

def Request.isDelete : Request → Bool
  | .delete _ => true
  | _ => false

variable {σ ι : Type} {answer : ι → (q : Request) → σ → Option (Answer q) × σ} {others : σ → σ → Prop}
  {settings : SyncSettings} {key : ServiceKey} {log : List (Exchange Answer)} {s s' : σ} {r : Except Error Unit}
  {q : Request} {e : CloudError} {failure : Error}

/-- Throttling is told from the report of a call unless that was a deletion. -/
theorem Reported.isThrottled_eq (h : Reported key e q failure) :
    failure.isThrottled = (!q.isDelete && e.isThrottled) := by
  cases h <;> simp [Error.isThrottled, Request.isDelete]

/-- A sync whose last call of the cloud has failed ends with the report of it. -/
theorem reported_of_amid (hrun : Amid answer others (program settings key) [] s r log s')
    (hlast : lastCall? log = some (q, some e)) : ∃ failure, r = .error failure ∧ Reported key e q failure := by
  have hend := (obeys_watch settings key).amid (fun _ _ => True) (fun _ _ _ _ _ => trivial)
    (fun _ _ _ _ _ _ _ _ _ => trivial) rfl trivial hrun
  rw [noted_watch, hlast] at hend
  cases r with
  | ok => exact absurd rfl (hend.1 q e)
  | error failure => exact ⟨failure, rfl, hend.1 q e rfl⟩

/-- However others act meanwhile and whatever is answered, a sync whose last call of the cloud was throttled fails, and
the worker puts the key back after the next delay of its backoff if the call looked a balancer up or ensured one. If
it deleted one, the fixed delay of other failures counts and the backoff stays. -/
theorem backs_off_unless_delete (hrun : Amid answer others (program settings key) [] s r log s')
    (hlast : lastCall? log = some (q, some e)) (hthrottled : e.isThrottled = true) (errorDelay clock : Duration)
    (b : Backoff) : r ≠ .ok () ∧ Worker.requeue? errorDelay clock b (some r) =
      if q.isDelete then (some ⟨"error", errorDelay⟩, b)
      else (some ⟨"throttled", (b.next clock).1⟩, (b.next clock).2) := by
  obtain ⟨failure, rfl, hreported⟩ := reported_of_amid hrun hlast
  have hfailure : failure.isThrottled = !q.isDelete := by rw [hreported.isThrottled_eq, hthrottled, Bool.and_true]
  refine ⟨by simp, ?_⟩
  simp only [Worker.requeue?, hfailure]
  cases q.isDelete <;> rfl

end Sync

namespace Simulation
open Sync
variable {u : Upshot Unit} {deletes : Bool}

private def turnedAway (deletes : Bool) (u : Upshot Unit) : Bool :=
  u.1.any (fun r => !r.isOk) && (lastCall? u.2.1).any (fun call =>
    call.1.isDelete = deletes && call.2.any CloudError.isThrottled)

private theorem exists_of_turnedAway (h : turnedAway deletes u = true) : ∃ failure log w q e,
    u = (some (.error failure), log, w) ∧ lastCall? log = some (q, some e) ∧ e.isThrottled = true ∧
      q.isDelete = deletes := by
  obtain ⟨outcome, log, w⟩ := u
  simp only [turnedAway, Bool.and_eq_true, Option.any_eq_true] at h
  obtain ⟨⟨r, hr, hfailed⟩, ⟨q, cause⟩, hlast, hq, e, he, hthrottled⟩ := h
  dsimp only at hr hlast hq he
  subst hr he
  cases r with
  | ok => cases hfailed
  | error failure => exact ⟨failure, log, w, q, e, rfl, hlast, hthrottled, by simpa using hq⟩

def crowded : MemoryCloud := ({} : MemoryCloud).inject "ErrorCode: Throttling"

private def orphaned : World where
  cloud := crowded
  cache := (∅ : Cache).insert (.ofService (kiosk "u1")) (.ofDeleted (kiosk "u1"))

private def visit (uid : String) (w : World) : Upshot Unit :=
  (program { deleteRetry := { steps := 1 } } (.ofService (kiosk uid))).talk (World.answer 0) [] w

/-- A first balancer is to be ensured, and the cloud is crowded. -/
theorem backs_off_crowded : ∃ failure log w q e,
    visit "u2" { takenOver with cache := ∅, cloud := crowded } = (some (.error failure), log, w) ∧
      lastCall? log = some (q, some e) ∧ e.isThrottled = true ∧
      Worker.requeue? .zero ⟨9⟩ { settings := {} } (some (.error failure)) =
        (some ⟨"throttled", .ofSeconds 5⟩, ⟨{}, some (.ofSeconds 5), some ⟨9⟩⟩) := by
  have hturned : turnedAway false (visit "u2" { takenOver with cache := ∅, cloud := crowded }) = true := by
    decide +kernel
  obtain ⟨failure, log, w, q, e, ht, hlast, hthrottled, hq⟩ := exists_of_turnedAway hturned
  have hrun : Program.Amid World.answer (· = ·) (program { deleteRetry := { steps := 1 } } (.ofService (kiosk "u2"))) []
      { takenOver with cache := ∅, cloud := crowded } (.error failure) log w := Program.amid_of_talk 0 (fun _ => rfl) ht
  have hend := backs_off_unless_delete hrun hlast hthrottled .zero ⟨9⟩ { settings := {} }
  rw [if_neg (by simp [hq])] at hend
  exact ⟨failure, log, w, q, e, ht, hlast, hthrottled, hend.2⟩

/-- The balancer of a service that is gone is to be deleted, and the cloud is crowded. The worker waits as after any
failure. -/
theorem not_backs_off_delete :
    ¬∀ (settings : SyncSettings) (key : ServiceKey) (w w' : World) (log : Log) (failure : Error) (q : Request)
      (e : CloudError) (errorDelay clock : Duration) (b : Backoff),
      (program settings key).talk (World.answer 0) [] w = (some (.error failure), log, w') →
      lastCall? log = some (q, some e) → e.isThrottled = true →
      Worker.requeue? errorDelay clock b (some (.error failure)) =
        (some ⟨"throttled", (b.next clock).1⟩, (b.next clock).2) := by
  intro hback
  have hturned : turnedAway true (visit "u1" orphaned) = true := by decide +kernel
  have hwaits : (Worker.requeue? .zero .zero { settings := {} } (visit "u1" orphaned).1).1 = some ⟨"error", .zero⟩ := by
    decide +kernel
  obtain ⟨failure, log, w, q, e, ht, hlast, hthrottled, _⟩ := exists_of_turnedAway hturned
  have hnext := hback _ _ _ _ _ _ _ _ .zero .zero { settings := {} } ht hlast hthrottled
  rw [ht, hnext] at hwaits
  revert hwaits
  decide

end Simulation
end ServiceBalancer
