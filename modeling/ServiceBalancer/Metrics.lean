import ServiceBalancer.Duration
import ServiceBalancer.Number.Shortest
import ServiceBalancer.SortedMap

/-! Counters of what the controller does, and their page in the OpenMetrics text format. -/
namespace ServiceBalancer

/-- Observed durations: how many fell between each two bounds, and their sum in seconds. -/
structure Histogram where
  counts : List Nat
  sum : Float

namespace Histogram

def bounds : List Float := (List.range 16).map (fun i => 0.001 * Float.ofNat (Nat.pow 2 i))

def empty : Histogram := ⟨List.replicate 17 0, 0.0⟩

def countIn (x : Float) : List Float → List Nat → List Nat
  | bound :: bounds, count :: counts =>
    if x ≤ bound then (count + 1) :: counts else count :: countIn x bounds counts
  | _, count :: counts => (count + 1) :: counts
  | _, [] => []

def observe (h : Histogram) (d : Duration) : Histogram :=
  ⟨countIn d.toSeconds bounds h.counts, h.sum + d.toSeconds⟩

def cumulative : Nat → List Nat → List Nat
  | _, [] => []
  | below, count :: counts => (below + count) :: cumulative (below + count) counts

def total (h : Histogram) : Nat := h.counts.foldl (· + ·) 0

end Histogram

structure Metrics where
  durations : SortedMap String Histogram := ∅
  errors : SortedMap String Nat := ∅
  requeues : SortedMap String Nat := ∅
  depth : Int := 0

namespace Metrics

instance : Inhabited Metrics := ⟨{}⟩

def observe (m : Metrics) (operation : String) (d : Duration) : Metrics :=
  { m with durations := m.durations.insert operation (((m.durations.get? operation).getD .empty).observe d) }

def countError (m : Metrics) (label : String) : Metrics :=
  { m with errors := m.errors.insert label ((m.errors.get? label).getD 0 + 1) }

def countRequeue (m : Metrics) (reason : String) : Metrics :=
  { m with requeues := m.requeues.insert reason ((m.requeues.get? reason).getD 0 + 1) }

def setDepth (m : Metrics) (depth : Nat) : Metrics := { m with depth := Int.bmod depth (Nat.pow 2 64) }

def heading (name help type : String) : List String :=
  ["# HELP " ++ name ++ " " ++ help ++ ".", "# TYPE " ++ name ++ " " ++ type]

/-- One sample. Label values are written as they are. -/
def sample (name : String) (labels : List (String × String)) (value : String) : String :=
  let written := labels.map (fun l => l.1 ++ "=\"" ++ l.2 ++ "\"")
  let braces := if labels.isEmpty then "" else "\x7b" ++ ",".intercalate written ++ "\x7d"
  name ++ braces ++ " " ++ value

def durationName : String := "lb_operation_duration_seconds"
def errorName : String := "lb_reconcile_errors_total"
def requeueName : String := "lb_requeues_total"
def depthName : String := "lb_workqueue_depth"

/-- The samples of one histogram: sum, count, and a bucket for each bound and for infinity. -/
def histogramSamples (operation : String) (h : Histogram) : List String :=
  let label := ("operation", operation)
  let bounds := Histogram.bounds.map Number.sampleText ++ ["+Inf"]
  [sample (durationName ++ "_sum") [label] (Number.sampleText h.sum),
    sample (durationName ++ "_count") [label] (toString h.total)] ++
  (bounds.zip (Histogram.cumulative 0 h.counts)).map (fun b =>
    sample (durationName ++ "_bucket") [("le", b.1), label] (toString b.2))

/-- The samples of a counter; its name is given a second suffix. -/
def counterSamples (name label : String) (counts : SortedMap String Nat) : List String :=
  counts.entries.map (fun e => sample (name ++ "_total") [(label, e.1)] (toString e.2))

def lines (m : Metrics) : List String :=
  heading durationName "Duration of load balancer operations in seconds" "histogram" ++
  m.durations.entries.flatMap (fun e => histogramSamples e.1 e.2) ++
  heading errorName "Total number of failed service syncs" "counter" ++
  counterSamples errorName "kind" m.errors ++
  heading requeueName "Total number of service keys requeued after a failed sync" "counter" ++
  counterSamples requeueName "reason" m.requeues ++
  heading depthName "Service keys waiting to be processed" "gauge" ++
  [sample depthName [] (toString m.depth), "# EOF"]

def page (m : Metrics) : String := String.join (m.lines.map (fun line => line ++ "\n"))

end Metrics
end ServiceBalancer
