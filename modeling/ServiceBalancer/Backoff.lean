import ServiceBalancer.Duration

/-! The delay that grows while the cloud throttles a worker and falls back after a quiet period. -/
namespace ServiceBalancer

/-- Settings of a throttle backoff. A delay past the ceiling drops to the plateau. -/
structure BackoffSettings where
  floorSecs : Nat := 5
  factor : Float := 1.5
  ceilingSecs : Nat := 120
  plateauSecs : Nat := 30
  quietPeriodSecs : Nat := 60
  decayCheckSecs : Nat := 20
  deriving Inhabited

/-- A throttle backoff: no delay means that it rests at the floor. -/
structure Backoff where
  settings : BackoffSettings
  delay : Option Duration := none
  lastThrottle : Option Duration := none

namespace Backoff

def floor (b : Backoff) : Duration := .ofSeconds b.settings.floorSecs
def ceiling (b : Backoff) : Duration := .ofSeconds b.settings.ceilingSecs
def plateau (b : Backoff) : Duration := .ofSeconds b.settings.plateauSecs
def quietPeriod (b : Backoff) : Duration := .ofSeconds b.settings.quietPeriodSecs

def current (b : Backoff) : Duration := b.delay.getD b.floor

def grown (b : Backoff) : Duration :=
  match b.delay with
  | none => b.floor
  | some delay =>
    let scaled := delay.scale b.settings.factor
    if b.ceiling < scaled then b.plateau else scaled

/-- The delay for a request that was throttled at a time on the clock. -/
def next (b : Backoff) (now : Duration) : Duration × Backoff :=
  (b.grown, { b with delay := some b.grown, lastThrottle := some now })

/-- Falls back to the floor if the last throttled request is at least the quiet period ago, a
clock that went backwards counting as no time, and says whether it did. -/
def relax (b : Backoff) (now : Duration) : Bool × Backoff :=
  match b.delay, b.lastThrottle with
  | some _, some last =>
    if b.quietPeriod.nanos ≤ now.nanos - last.nanos then (true, { b with delay := none }) else (false, b)
  | _, _ => (false, b)

end Backoff
end ServiceBalancer
