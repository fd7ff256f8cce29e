import Mathlib.Data.List.Sort
import Mathlib.Data.Rat.Floor

/-! # Canary analysis

    Whether the events of a canary deployment stay within the thresholds
    (`control-plane/canary-analysis.ts`).  Division rounds, so the quotient of
    two counts is a parameter. -/

namespace Odenctl.ControlPlane

structure CanaryMetricEvent where
  deploymentId : Option String
  status : ℚ
  durationMs : ℚ
  errorCode : Option String
  deriving DecidableEq

structure CanaryAnalysisThresholds where
  minRequests : Option ℚ
  p95Ms : Option ℚ
  errorRate : Option ℚ
  rejectCount : Option ℚ
  deriving DecidableEq

structure CanaryAnalysisMetrics where
  requests : Nat
  errors : Nat
  rejects : Nat
  errorRate : ℚ
  p95Ms : ℚ
  deriving DecidableEq

inductive CanaryAnalysisAction where
  | continue
  | rollback
  deriving DecidableEq

inductive CanaryAnalysisReason where
  | within_thresholds
  | insufficient_samples
  | p95_latency
  | error_rate
  | reject_count
  deriving DecidableEq

structure CanaryAnalysisResult where
  action : CanaryAnalysisAction
  reason : CanaryAnalysisReason
  metrics : CanaryAnalysisMetrics
  deriving DecidableEq

def isErrorEvent (event : CanaryMetricEvent) : Bool :=
  decide (event.status ≥ 500) || (event.errorCode.any fun code => decide (code ≠ ""))

def isRejectedEvent (event : CanaryMetricEvent) : Bool :=
  decide (event.status = 429) || decide (event.status = 503) ||
    decide (event.errorCode = some "overloaded") || decide (event.errorCode = some "rate_limited")

def percentile (values : List ℚ) (percentileValue : Nat) : ℚ :=
  let index := ⌈(percentileValue : ℚ) / 100 * values.length⌉ - 1
  (values[(max 0 (min ((values.length : ℤ) - 1) index)).toNat]?).getD 0

def summarizeCanaryMetrics (quotient : Nat → Nat → ℚ) (events : List CanaryMetricEvent) :
    CanaryAnalysisMetrics :=
  let durations := (events.map fun event => max 0 event.durationMs).insertionSort (· ≤ ·)
  let errors := (events.filter isErrorEvent).length
  let rejects := (events.filter isRejectedEvent).length
  let requests := events.length
  { requests
    errors
    rejects
    errorRate := if requests = 0 then 0 else quotient errors requests
    p95Ms := percentile durations 95 }

def exceeds (threshold : Option ℚ) (value : ℚ) : Bool :=
  match threshold with
  | some limit => decide (value > limit)
  | none => false

def analyzeCanaryEvents (quotient : Nat → Nat → ℚ) (events : List CanaryMetricEvent)
    (candidateDeploymentId : String) (thresholds : CanaryAnalysisThresholds) :
    CanaryAnalysisResult :=
  let candidateEvents := events.filter fun event =>
    decide (event.deploymentId = some candidateDeploymentId)
  let metrics := summarizeCanaryMetrics quotient candidateEvents
  let minRequests := thresholds.minRequests.getD 1
  if (metrics.requests : ℚ) < minRequests then ⟨.continue, .insufficient_samples, metrics⟩
  else if exceeds thresholds.rejectCount metrics.rejects then
    ⟨.rollback, .reject_count, metrics⟩
  else if exceeds thresholds.errorRate metrics.errorRate then
    ⟨.rollback, .error_rate, metrics⟩
  else if exceeds thresholds.p95Ms metrics.p95Ms then
    ⟨.rollback, .p95_latency, metrics⟩
  else ⟨.continue, .within_thresholds, metrics⟩

end Odenctl.ControlPlane
