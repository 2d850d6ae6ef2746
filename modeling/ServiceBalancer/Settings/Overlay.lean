import ServiceBalancer.Settings
import ServiceBalancer.Toml.Value

/-! Settings from a TOML table, which names only what differs from the defaults. -/
namespace ServiceBalancer

/-- A number with places behind the point; a whole number will do. -/
def Toml.number? : Toml → Option Float
  | .real x => some x
  | .whole n => some (Number.ofFraction (n < 0) n.natAbs 1)
  | _ => none

/-- A count of 64 bits. Documents hold whole numbers below `2 ^ 63` only. -/
def Toml.count? : Toml → Option Nat := Toml.natural? (Nat.pow 2 64)

def BackoffSettings.ofToml? (t : Toml) : Option BackoffSettings := do
  let d : BackoffSettings := {}
  guard t.isRecord
  return {
    floorSecs := ← t.orElse? 0 "floor_secs" Toml.count? d.floorSecs
    factor := ← t.orElse? 1 "factor" Toml.number? d.factor
    ceilingSecs := ← t.orElse? 2 "ceiling_secs" Toml.count? d.ceilingSecs
    plateauSecs := ← t.orElse? 3 "plateau_secs" Toml.count? d.plateauSecs
    quietPeriodSecs := ← t.orElse? 4 "quiet_period_secs" Toml.count? d.quietPeriodSecs
    decayCheckSecs := ← t.orElse? 5 "decay_check_secs" Toml.count? d.decayCheckSecs }

/-- A retry policy. What it lacks is that of deletions. -/
def RetryPolicy.ofToml? (t : Toml) : Option RetryPolicy := do
  let d := RetryPolicy.deletion
  guard t.isRecord
  return {
    initialMillis := ← t.orElse? 0 "initial_millis" Toml.count? d.initialMillis
    factor := ← t.orElse? 1 "factor" Toml.number? d.factor
    steps := ← t.orElse? 2 "steps" (Toml.natural? (Nat.pow 2 32)) d.steps
    jitter := ← t.orElse? 3 "jitter" Toml.number? d.jitter }

/-- A kind of failure by its name, which may also be the only member of a table, with nothing in it. -/
def CloudErrorKind.ofToml? : Toml → Option CloudErrorKind
  | .text s => ofText? s
  | .table [(name, .table [])] | .table [(name, .list [])] => ofText? name
  | _ => none

def ClassifierRule.ofToml? (t : Toml) : Option ClassifierRule := do
  return ⟨← (← t.field? 0 "pattern").text?, ← CloudErrorKind.ofToml? (← t.field? 1 "kind")⟩

/-- Settings. What they lack is as in the defaults; unknown names are passed over. -/
def Settings.ofToml? (t : Toml) : Option Settings := do
  let d : Settings := {}
  guard t.isRecord
  return {
    clusterName := ← t.orElse? 0 "cluster_name" Toml.text? d.clusterName
    workers := ← t.orElse? 1 "workers" Toml.count? d.workers
    errorRequeueSecs := ← t.orElse? 2 "error_requeue_secs" Toml.count? d.errorRequeueSecs
    resyncSecs := ← t.orElse? 3 "resync_secs" Toml.count? d.resyncSecs
    backoff := ← t.orElse? 4 "backoff" BackoffSettings.ofToml? d.backoff
    deleteRetry := ← t.orElse? 5 "delete_retry" RetryPolicy.ofToml? d.deleteRetry
    statusRetry := ← t.orElse? 6 "status_retry" RetryPolicy.ofToml? d.statusRetry
    rules := ← t.orElse? 7 "classifier_rules" (Toml.list? ClassifierRule.ofToml?) d.rules }

end ServiceBalancer
