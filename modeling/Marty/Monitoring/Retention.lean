import Marty.Lib.Dict
import Marty.Monitoring.TimeWindows

/-! What a metrics collector keeps of what it is given: of each name the latest metrics, between
501 and 1000 of them once there have been more than 1000. -/

namespace Marty.Monitoring.Retention

open Lib TimeWindows

inductive Event
  | register (name : String) (definition : MetricDefinition)
  | record (call : Call)

def step (m : MetricsCollector) : Event → MetricsCollector
  | .register name definition => m.registerMetric name definition
  | .record call => m.recordMetric call

/-- A collector with its own definitions, after a run. -/
def after (events : List Event) : MetricsCollector :=
  events.foldl step { metricDefinitions := systemMetrics }

def getLatestMetric (m : MetricsCollector) (name : String) : Option Metric :=
  ((m.metrics.lookup name).getD []).getLast?

abbrev Definitions := List (String × MetricDefinition)

def define (definitions : Definitions) : Event → Definitions
  | .register name definition => Dict.set name definition definitions
  | .record _ => definitions

def made (definitions : Definitions) : Event → List Metric
  | .register _ _ => []
  | .record call => [metricOf definitions call]

/-- The metrics as they were made, each with the definition of its time. -/
def recorded (definitions : Definitions) : List Event → List Metric
  | [] => []
  | event :: events => made definitions event ++ recorded (define definitions event) events

/-- How many are kept of `n`. -/
def kept (n : ℕ) : ℕ := if n ≤ 1000 then n else 501 + (n - 1001) % 500

theorem kept_le (n : ℕ) : kept n ≤ n := by
  unfold kept
  split <;> omega

theorem kept_succ (n : ℕ) : kept (n + 1) = if kept n ≥ 1000 then 501 else kept n + 1 := by
  unfold kept
  grind

theorem kept_le_limit (n : ℕ) : kept n ≤ 1000 := by
  unfold kept
  split <;> omega

def latest (metrics : List Metric) : List Metric :=
  metrics.drop (metrics.length - kept metrics.length)

theorem length_latest (metrics : List Metric) : (latest metrics).length = kept metrics.length := by
  have hle := kept_le metrics.length
  rw [latest, List.length_drop]
  omega

/-- One more metric: of a full list the latest 500 are kept. -/
theorem latest_append (metrics : List Metric) (metric : Metric) : latest (metrics ++ [metric]) =
    (if (latest metrics).length ≥ 1000 then (latest metrics).drop ((latest metrics).length - 500)
      else latest metrics) ++ [metric] := by
  have hle := kept_le metrics.length
  have hlimit := kept_le_limit metrics.length
  have hsucc := kept_succ metrics.length
  have hcount : (metrics ++ [metric]).length = metrics.length + 1 := by simp
  rw [length_latest, latest, hcount, hsucc]
  split
  case isTrue hfull =>
    have hdrop : metrics.length + 1 - 501 = metrics.length - 500 := by omega
    have hfrom : metrics.length - kept metrics.length + (kept metrics.length - 500) =
        metrics.length - 500 := by omega
    rw [hdrop, List.drop_append_of_le_length (by omega), latest, List.drop_drop, hfrom]
  case isFalse =>
    have hdrop : metrics.length + 1 - (kept metrics.length + 1) =
        metrics.length - kept metrics.length := by omega
    rw [hdrop, List.drop_append_of_le_length (by omega), latest]

theorem latest_getLast? (metrics : List Metric) : (latest metrics).getLast? = metrics.getLast? := by
  induction metrics using List.reverseRecOn with
  | nil => rfl
  | append_singleton metrics metric ih =>
    rw [latest_append, List.getLast?_append, List.getLast?_append]
    rfl

def ofName (name : String) (metrics : List Metric) : List Metric :=
  metrics.filter fun metric => metric.name = name

theorem recorded_append (definitions : Definitions) (events : List Event) (event : Event) :
    recorded definitions (events ++ [event]) =
      recorded definitions events ++ made (events.foldl define definitions) event := by
  induction events generalizing definitions with
  | nil => simp [recorded]
  | cons e events ih => simp [recorded, ih]

theorem after_append (events : List Event) (event : Event) :
    after (events ++ [event]) = step (after events) event := by
  rw [after, List.foldl_append]
  rfl

theorem metricDefinitions_after (events : List Event) :
    (after events).metricDefinitions = events.foldl define systemMetrics := by
  induction events using List.reverseRecOn with
  | nil => rfl
  | append_singleton events event ih =>
    rw [after_append, List.foldl_append, ← ih]
    cases event <;> rfl

/-- After any run, of each name the latest metrics are kept, in their order. -/
theorem metrics_after (name : String) (events : List Event) :
    ((after events).metrics.lookup name).getD [] =
      latest (ofName name (recorded systemMetrics events)) := by
  induction events using List.reverseRecOn with
  | nil => rfl
  | append_singleton events event ih =>
    rw [after_append, recorded_append, ← metricDefinitions_after]
    cases event with
    | register name' definition =>
      rw [made, List.append_nil, ← ih]
      rfl
    | record call =>
      rw [ofName, List.filter_append, ← ofName]
      by_cases hname : call.name = name
      · subst hname
        have hmade : (made (after events).metricDefinitions (.record call)).filter
            (fun metric => metric.name = call.name) =
              [metricOf (after events).metricDefinitions call] := by
          simp [made, metricOf]
        rw [hmade, latest_append, ← ih, step, MetricsCollector.recordMetric, Dict.lookup_set_self]
        rfl
      · have hmade : (made (after events).metricDefinitions (.record call)).filter
            (fun metric => metric.name = name) = [] := by
          simp [made, metricOf, hname]
        rw [hmade, List.append_nil, ← ih, step, MetricsCollector.recordMetric,
          Dict.lookup_set_of_ne (Ne.symm hname)]

/-- The latest metric of a name is the last one recorded, however many have been dropped. -/
theorem getLatestMetric_after (name : String) (events : List Event) :
    getLatestMetric (after events) name =
      (ofName name (recorded systemMetrics events)).getLast? := by
  rw [getLatestMetric, metrics_after, latest_getLast?]

end Marty.Monitoring.Retention
