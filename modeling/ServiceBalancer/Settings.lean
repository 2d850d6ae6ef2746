import ServiceBalancer.Backoff
import ServiceBalancer.Cloud.Error
import ServiceBalancer.Error
import ServiceBalancer.Number.Shortest
import ServiceBalancer.Retry

/-! The settings of the controller and what makes them acceptable. -/
namespace ServiceBalancer

/-- All settings. Each has a default. -/
structure Settings where
  clusterName : String := "kubernetes"
  workers : Nat := 2
  /-- The delay after a failure that is not throttling. -/
  errorRequeueSecs : Nat := 5
  /-- The interval at which every service is synced anew; zero for never. -/
  resyncSecs : Nat := 600
  backoff : BackoffSettings := {}
  deleteRetry : RetryPolicy := .deletion
  statusRetry : RetryPolicy := .status
  rules : List ClassifierRule := ClassifierRule.defaults
  deriving Inhabited

inductive SettingsFault where
  | noWorkers
  | factor (name : String) (value : Float)
  | zeroFloorOrDecay
  | ceilingBelowFloor
  | plateauAboveCeiling
  | noSteps (name : String)
  | jitter (name : String) (value : Float)

def SettingsFault.text : SettingsFault → String
  | noWorkers => "workers must be at least 1"
  | factor name value => name ++ ".factor must be a finite number >= 1.0, got " ++ Number.plainText value
  | zeroFloorOrDecay => "backoff.floor_secs and backoff.decay_check_secs must be positive"
  | ceilingBelowFloor => "backoff.ceiling_secs must be >= backoff.floor_secs"
  | plateauAboveCeiling => "backoff.plateau_secs must be <= backoff.ceiling_secs"
  | noSteps name => name ++ ".steps must be positive"
  | jitter name value => name ++ ".jitter must be a finite number >= 0, got " ++ Number.plainText value

def isGrowthFactor (factor : Float) : Bool := factor.isFinite && 1.0 ≤ factor

def BackoffSettings.fault? (b : BackoffSettings) : Option SettingsFault :=
  if !isGrowthFactor b.factor then some (.factor "backoff" b.factor)
  else if b.floorSecs = 0 ∨ b.decayCheckSecs = 0 then some .zeroFloorOrDecay
  else if b.ceilingSecs < b.floorSecs then some .ceilingBelowFloor
  else if b.ceilingSecs < b.plateauSecs then some .plateauAboveCeiling
  else none

def RetryPolicy.fault? (name : String) (p : RetryPolicy) : Option SettingsFault :=
  if p.steps = 0 then some (.noSteps name)
  else if !isGrowthFactor p.factor then some (.factor name p.factor)
  else if !p.jitter.isFinite || p.jitter < 0.0 then some (.jitter name p.jitter)
  else none

namespace Settings

def fault? (s : Settings) : Option SettingsFault :=
  if s.workers = 0 then some .noWorkers
  else s.backoff.fault?.or ((s.deleteRetry.fault? "delete_retry").or (s.statusRetry.fault? "status_retry"))

def validate (s : Settings) : Except Error Unit :=
  match s.fault? with
  | some fault => .error (.config fault.text)
  | none => .ok ()

def errorRequeue (s : Settings) : Duration := .ofSeconds s.errorRequeueSecs

def resyncPeriod? (s : Settings) : Option Duration :=
  if s.resyncSecs = 0 then none else some (.ofSeconds s.resyncSecs)

end Settings
end ServiceBalancer
