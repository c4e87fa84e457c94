import Mathlib.Algebra.Order.Field.Rat
import Mathlib.Data.List.Sort
import Mathlib.Data.Prod.Lex
import Mathlib.Data.String.Basic
import Marty.Lib.Dict

/-! `MetricsCollector`: counters and histograms with their history. -/

namespace Marty.Resilience.Metrics

open Lib

abbrev Labels := List (String × String)

/-- What a caller may pass for `value`: Python does not check that it is a number. -/
inductive Amount
  | number (x : ℚ)
  | labels (labels : Labels)

structure MetricValue where
  value : ℚ
  timestamp : ℚ
  labels : Labels

/-- A bucket of a histogram; the last one has no upper bound. -/
structure HistogramBucket where
  upperBound : Option ℚ
  count : Nat := 0

def HistogramBucket.observe (value : ℚ) (b : HistogramBucket) : HistogramBucket :=
  if b.upperBound.all (value ≤ ·) then { b with count := b.count + 1 } else b

structure MetricsCollector where
  maxHistory : Nat := 1000
  metrics : List (String × List MetricValue) := []
  counters : List (String × ℚ) := []
  histograms : List (String × List HistogramBucket) := []

namespace MetricsCollector

def getMetricKey (name : String) (labels : Labels) : String :=
  if labels = [] then name
  else
    let items := labels.insertionSort fun a b => toLex a ≤ toLex b
    name ++ "\x7b" ++ ",".intercalate (items.map fun item => item.1 ++ "=" ++ item.2) ++ "\x7d"

/-- The deque of a metric drops its oldest values. -/
def appendMetric (m : MetricsCollector) (key : String) (v : MetricValue) : MetricsCollector :=
  let values := (m.metrics.lookup key).getD [] ++ [v]
  { m with metrics := Dict.set key (values.drop (values.length - m.maxHistory)) m.metrics }

/-- The collector, and whether the call raises: a dictionary cannot be added to the counter, which
has been looked up by then. -/
def incrementCounter (m : MetricsCollector) (name : String) (value : Amount) (labels : Labels)
    (now : ℚ) : MetricsCollector × Bool :=
  let key := getMetricKey name labels
  let count := (m.counters.lookup key).getD 0
  match value with
  | .labels _ => ({ m with counters := Dict.set key count m.counters }, true)
  | .number x =>
    let m := { m with counters := Dict.set key (count + x) m.counters }
    (m.appendMetric key ⟨count + x, now, labels⟩, false)

def observeHistogram (m : MetricsCollector) (name : String) (value : ℚ) (labels : Labels)
    (now : ℚ) : MetricsCollector :=
  let key := getMetricKey name labels
  let m := match m.histograms.lookup key with
    | none => m
    | some buckets =>
      { m with
        histograms := Dict.set key (buckets.map (HistogramBucket.observe value)) m.histograms }
  m.appendMetric key ⟨value, now, labels⟩

end MetricsCollector

end Marty.Resilience.Metrics
