import Mathlib.Algebra.Order.Field.Rat
import Mathlib.Data.List.Basic
import Marty.Lib.Datetime
import Marty.Lib.Grouping
import Marty.Lib.Text

/-! The alert conditions of `service_monitor` over recent metrics: the errors of the last minutes
are counted, and a service without requests in the last minutes counts as unresponsive. -/

namespace Marty.Monitoring.TimeWindows

open Lib Lib.Datetime Lib.Grouping

inductive MetricType
  | counter | gauge | histogram | summary
  deriving DecidableEq

structure MetricDefinition where
  type : MetricType
  help : String
  deriving DecidableEq

structure Metric where
  name : String
  metricType : MetricType
  value : ℚ
  labels : List (String × String) := []
  timestamp : Time
  helpText : String := ""

/-- A call of `record_metric`, and the clock. -/
structure Call where
  name : String
  value : ℚ := 1
  labels : List (String × String) := []
  now : Time

structure MetricsCollector where
  metrics : List (String × List Metric) := []
  metricDefinitions : List (String × MetricDefinition)

/-- The metrics that a collector registers itself. -/
def systemMetrics : List (String × MetricDefinition) := [
  ("system.cpu.percent", ⟨.gauge, "CPU usage percentage"⟩),
  ("system.memory.percent", ⟨.gauge, "Memory usage percentage"⟩),
  ("system.disk.percent", ⟨.gauge, "Disk usage percentage"⟩),
  ("grpc.requests.total", ⟨.counter, "Total gRPC requests"⟩),
  ("grpc.requests.duration", ⟨.histogram, "gRPC request duration"⟩),
  ("grpc.errors.total", ⟨.counter, "Total gRPC errors"⟩)]

/-- A metric without a definition is a gauge. -/
def metricOf (definitions : List (String × MetricDefinition)) (call : Call) : Metric :=
  let definition := (definitions.lookup call.name).getD ⟨.gauge, ""⟩
  { name := call.name
    metricType := definition.type
    value := call.value
    labels := call.labels
    timestamp := call.now
    helpText := definition.help }

namespace MetricsCollector

variable (m : MetricsCollector)

def registerMetric (name : String) (definition : MetricDefinition) : MetricsCollector :=
  { m with metricDefinitions := Dict.set name definition m.metricDefinitions }

/-- Of a full list the latest 500 metrics are kept. -/
def recordMetric (call : Call) : MetricsCollector :=
  let metrics := (m.metrics.lookup call.name).getD []
  let metrics := if metrics.length ≥ 1000 then metrics.drop (metrics.length - 500) else metrics
  { m with
    metrics :=
      Dict.set call.name (metrics ++ [metricOf m.metricDefinitions call]) m.metrics }

def recordAll (calls : List Call) : MetricsCollector := calls.foldl recordMetric m

/-- The filter is a part of the name. -/
def getMetrics (nameFilter : Option String) : List Metric :=
  let metrics := m.metrics.flatMap (·.2)
  match nameFilter with
  | none => metrics
  | some part => if part = "" then metrics else metrics.filter (Text.contains part ·.name)

/-- The metrics of which the age has fewer seconds than the window, its days left aside. -/
def recentMetrics (nameFilter : String) (window : Int) (now : Time) : List Metric :=
  (m.getMetrics (some nameFilter)).filter fun metric => secondsOf (now - metric.timestamp) < window

def checkHighErrorRate (now : Time) : Bool :=
  (m.recentMetrics "grpc.errors.total" 300 now).length > 10

def checkServiceUnresponsive (now : Time) : Bool :=
  let recentRequests := m.recentMetrics "grpc.requests.total" 600 now
  if recentRequests.length = 0 then (m.getMetrics (some "grpc.requests.total")).length > 0
  else false

end MetricsCollector

/-! What is counted. -/

section counted

variable {m : MetricsCollector} {calls : List Call}

theorem metricDefinitions_recordAll :
    (m.recordAll calls).metricDefinitions = m.metricDefinitions := by
  induction calls generalizing m with
  | nil => rfl
  | cons call calls ih => exact ih

/-- Below the limit nothing is dropped. -/
theorem groups_recordAll (hnew : m.metrics = [])
    (hfew : ∀ name, calls.countP (·.name = name) < 1000) :
    Groups (·.name) (m.recordAll calls).metrics (calls.map (metricOf m.metricDefinitions)) := by
  induction calls using List.reverseRecOn with
  | nil =>
    rw [MetricsCollector.recordAll, List.foldl_nil, hnew]
    exact .nil
  | append_singleton calls call ih =>
    have hbefore : ∀ name, calls.countP (·.name = name) < 1000 := fun name =>
      (List.sublist_append_left calls [call]).countP_le.trans_lt (hfew name)
    have hgroups := ih hbefore
    have hlength : (((m.recordAll calls).metrics.lookup call.name).getD []).length < 1000 := by
      rw [hgroups.lookup, ← List.countP_eq_length_filter, List.countP_map]
      exact hbefore call.name
    have hrecord : (m.recordAll (calls ++ [call])).metrics = Grouping.insert (·.name)
        (metricOf m.metricDefinitions call) (m.recordAll calls).metrics := by
      rw [MetricsCollector.recordAll, List.foldl_append, List.foldl_cons, List.foldl_nil,
        ← MetricsCollector.recordAll, MetricsCollector.recordMetric, metricDefinitions_recordAll]
      simp only [if_neg (not_le.mpr hlength)]
      rfl
    rw [hrecord, List.map_append, List.map_singleton]
    exact hgroups.insert _

/-- Whatever is counted over all metrics is counted over the calls. -/
theorem countP_metrics (hnew : m.metrics = [])
    (hfew : ∀ name, calls.countP (·.name = name) < 1000) (p : Metric → Bool) :
    ((m.recordAll calls).metrics.flatMap (·.2)).countP p =
      calls.countP fun call => p (metricOf m.metricDefinitions call) := by
  rw [(groups_recordAll hnew hfew).perm.countP_eq, List.countP_map]
  rfl

theorem secondsOf_lt_iff {delta : Time} {window : Int} :
    secondsOf delta < window ↔ delta % days 1 < seconds window :=
  Int.ediv_lt_iff_lt_mul (by decide)

end counted

/-- A record of the name that is less than some seconds old. -/
def Recent (name : String) (window : Int) (now : Time) (call : Call) : Prop :=
  call.name = name ∧ now - call.now < seconds window

/-- A record of a name with the given part, of which the age is below the window when its whole days
are taken off. -/
def Counted (part : String) (window : Int) (now : Time) (call : Call) : Prop :=
  Text.contains part call.name = true ∧ (now - call.now) % days 1 < seconds window

section

variable (name : String) (window : Int) (now : Time)

instance : DecidablePred (Recent name window now) := fun _ => inferInstanceAs (Decidable (_ ∧ _))

instance : DecidablePred (Counted name window now) := fun _ => inferInstanceAs (Decidable (_ ∧ _))

variable (calls : List Call)

def recent : Nat := calls.countP fun call => Recent name window now call

/-- What is counted and not recent. -/
def stale : Nat :=
  calls.countP fun call => Counted name window now call ∧ ¬Recent name window now call

/-- What is recent and not counted. -/
def missed : Nat :=
  calls.countP fun call => Recent name window now call ∧ ¬Counted name window now call

end

section conditions

variable {m : MetricsCollector} {calls : List Call} {name : String} {window : Int} {now : Time}

theorem countP_counted : calls.countP (fun call => Counted name window now call) +
    missed name window now calls = recent name window now calls + stale name window now calls := by
  unfold missed recent stale
  induction calls with
  | nil => rfl
  | cons call calls ih =>
    simp only [List.countP_cons]
    by_cases hrecent : Recent name window now call
    · by_cases hcounted : Counted name window now call
      · simp only [hrecent, hcounted, not_true, and_false, decide_true, decide_false, if_true,
          Bool.false_eq_true, if_false]
        omega
      · simp only [hrecent, hcounted, not_false_eq_true, false_and, and_true, decide_true,
          decide_false, if_true, Bool.false_eq_true, if_false]
        omega
    · by_cases hcounted : Counted name window now call
      · simp only [hrecent, hcounted, not_false_eq_true, false_and, and_true, decide_true,
          decide_false, if_true, Bool.false_eq_true, if_false]
        omega
      · simp only [hrecent, hcounted, false_and, decide_false, Bool.false_eq_true, if_false]
        omega

variable (hnew : m.metrics = []) (hfew : ∀ name, calls.countP (·.name = name) < 1000)

include hnew hfew

theorem length_getMetrics (hname : name ≠ "") :
    ((m.recordAll calls).getMetrics (some name)).length =
      calls.countP fun call => Text.contains name call.name := by
  rw [MetricsCollector.getMetrics]
  simp only [if_neg hname]
  rw [← List.countP_eq_length_filter]
  exact countP_metrics hnew hfew _

theorem length_recentMetrics (hname : name ≠ "") :
    ((m.recordAll calls).recentMetrics name window now).length =
      calls.countP fun call => Counted name window now call := by
  rw [MetricsCollector.recentMetrics, MetricsCollector.getMetrics]
  simp only [if_neg hname]
  rw [← List.countP_eq_length_filter, List.countP_filter, countP_metrics hnew hfew]
  refine List.countP_congr fun call _ => ?_
  simp only [metricOf, Counted, secondsOf_lt_iff, Bool.and_eq_true, decide_eq_true_eq]
  exact and_comm.trans decide_eq_true_iff.symm

theorem checkHighErrorRate_eq_true : (m.recordAll calls).checkHighErrorRate now = true ↔
    10 + missed "grpc.errors.total" 300 now calls <
      recent "grpc.errors.total" 300 now calls + stale "grpc.errors.total" 300 now calls := by
  rw [MetricsCollector.checkHighErrorRate, decide_eq_true_iff,
    length_recentMetrics hnew hfew (by decide)]
  have hcounted := @countP_counted calls "grpc.errors.total" 300 now
  omega

theorem checkServiceUnresponsive_eq_true :
    (m.recordAll calls).checkServiceUnresponsive now = true ↔
      calls.countP (fun call => Counted "grpc.requests.total" 600 now call) = 0 ∧
        ∃ call ∈ calls, Text.contains "grpc.requests.total" call.name := by
  rw [MetricsCollector.checkServiceUnresponsive]
  simp only [length_recentMetrics hnew hfew (show "grpc.requests.total" ≠ "" by decide),
    length_getMetrics hnew hfew (show "grpc.requests.total" ≠ "" by decide)]
  split
  case isTrue h =>
    rw [decide_eq_true_iff, gt_iff_lt, List.countP_pos_iff, and_iff_right h]
  case isFalse h => exact iff_of_false Bool.false_ne_true fun hzero => h hzero.1

end conditions

theorem missed_le_recent {calls : List Call} {name : String} {window : Int} {now : Time} :
    missed name window now calls ≤ recent name window now calls :=
  List.countP_mono_left fun _ _ h =>
    decide_eq_true (of_decide_eq_true h).1

theorem recent_eq_zero_iff {calls : List Call} {name : String} {window : Int} {now : Time} :
    recent name window now calls = 0 ↔ ∀ call ∈ calls, ¬Recent name window now call := by
  simp only [recent, List.countP_eq_zero, decide_eq_true_iff]

/-- What the two conditions are for: an alert on more than ten errors that are less than 300
seconds old, and one on a service that has had requests, none of them less than 600 seconds old. -/
structure Alerting (calls : List Call) (now : Time) (m : MetricsCollector) : Prop where
  highErrorRate : m.checkHighErrorRate now = true ↔ 10 < recent "grpc.errors.total" 300 now calls
  serviceUnresponsive : m.checkServiceUnresponsive now = true ↔
    (∃ call ∈ calls, call.name = "grpc.requests.total") ∧
      ∀ call ∈ calls, ¬Recent "grpc.requests.total" 600 now call

/-- With what is counted besides and less what is missed, the errors stay on their side of ten. -/
def ErrorsMeet (calls : List Call) (now : Time) : Prop :=
  let recent := recent "grpc.errors.total" 300 now calls
  let stale := stale "grpc.errors.total" 300 now calls
  let missed := missed "grpc.errors.total" 300 now calls
  10 < recent ∧ 10 + missed < recent + stale ∨ recent ≤ 10 ∧ recent + stale ≤ 10 + missed

/-- A service that has had requests has recent ones of which one is counted, or nothing counts as
recent; for one that has not, no metric is taken for a request, or one of them counts as recent. -/
def RequestsMeet (calls : List Call) (now : Time) : Prop :=
  let recent := recent "grpc.requests.total" 600 now calls
  let stale := stale "grpc.requests.total" 600 now calls
  let missed := missed "grpc.requests.total" 600 now calls
  ((∃ call ∈ calls, call.name = "grpc.requests.total") ∧
      (0 < recent ∧ missed < recent + stale ∨ recent = 0 ∧ stale = 0)) ∨
    (∀ call ∈ calls, call.name ≠ "grpc.requests.total") ∧
      ((∀ call ∈ calls, Text.contains "grpc.requests.total" call.name = false) ∨ 0 < stale)

section alerting

variable {m : MetricsCollector} {calls : List Call} (hnew : m.metrics = [])
  (hfew : ∀ name, calls.countP (·.name = name) < 1000) (now : Time)

include hnew hfew

theorem highErrorRate_iff : ((m.recordAll calls).checkHighErrorRate now = true ↔
    10 < recent "grpc.errors.total" 300 now calls) ↔ ErrorsMeet calls now := by
  rw [checkHighErrorRate_eq_true hnew hfew, ErrorsMeet]
  omega

theorem serviceUnresponsive_iff : ((m.recordAll calls).checkServiceUnresponsive now = true ↔
    (∃ call ∈ calls, call.name = "grpc.requests.total") ∧
      ∀ call ∈ calls, ¬Recent "grpc.requests.total" 600 now call) ↔ RequestsMeet calls now := by
  have hcounted := @countP_counted calls "grpc.requests.total" 600 now
  have hmissed := @missed_le_recent calls "grpc.requests.total" 600 now
  rw [checkServiceUnresponsive_eq_true hnew hfew, ← recent_eq_zero_iff, RequestsMeet]
  by_cases hname : ∃ call ∈ calls, call.name = "grpc.requests.total"
  · have hcontains : ∃ call ∈ calls, Text.contains "grpc.requests.total" call.name := by
      obtain ⟨call, hcall, hname⟩ := hname
      refine ⟨call, hcall, ?_⟩
      rw [hname]
      decide
    have hnot : ¬∀ call ∈ calls, call.name ≠ "grpc.requests.total" :=
      fun h => hname.elim fun call hcall => h call hcall.1 hcall.2
    simp only [hname, hcontains, hnot, true_and, and_true, false_and, or_false]
    omega
  · have hnone : ∀ call ∈ calls, call.name ≠ "grpc.requests.total" :=
      fun call hcall heq => hname ⟨call, hcall, heq⟩
    have hrecent : recent "grpc.requests.total" 600 now calls = 0 :=
      recent_eq_zero_iff.mpr fun call hcall h => hnone call hcall h.1
    by_cases hcontains : ∃ call ∈ calls, Text.contains "grpc.requests.total" call.name
    · have hsome : ¬∀ call ∈ calls, Text.contains "grpc.requests.total" call.name = false := by
        simpa using hcontains
      simp only [hname, hcontains, hsome, false_and, false_or, and_true, iff_false]
      rw [and_iff_right hnone]
      omega
    · have hno : ∀ call ∈ calls, Text.contains "grpc.requests.total" call.name = false := by
        simpa using hcontains
      refine iff_of_true ?_ (.inr ⟨hnone, .inl hno⟩)
      exact iff_of_false (fun h => hcontains h.2) fun h => hname h.1

end alerting

/-- The alerts are raised as they should be exactly where the conditions are met, whatever the
times of the calls are. -/
theorem alerting_iff (definitions : List (String × MetricDefinition)) (calls : List Call)
    (now : Time) (hfew : ∀ name, calls.countP (·.name = name) < 1000) :
    Alerting calls now (MetricsCollector.recordAll ⟨[], definitions⟩ calls) ↔
      ErrorsMeet calls now ∧ RequestsMeet calls now := by
  rw [← highErrorRate_iff (m := ⟨[], definitions⟩) rfl hfew,
    ← serviceUnresponsive_iff (m := ⟨[], definitions⟩) rfl hfew]
  exact ⟨fun h => ⟨h.highErrorRate, h.serviceUnresponsive⟩, fun h => ⟨h.1, h.2⟩⟩

theorem emod_days_lt {age bound : Int} (hage : 0 ≤ age) (h : age < bound) :
    age % days 1 < bound := by
  simp only [days, seconds]
  omega

/-- Nothing recent is missed by a check that comes after the calls. -/
theorem missed_eq_zero {calls : List Call} {name : String} {window : Int} {now : Time}
    (h : ∀ call ∈ calls, call.now ≤ now) : missed name window now calls = 0 := by
  simp only [missed, List.countP_eq_zero, decide_eq_true_iff]
  rintro call hcall ⟨⟨rfl, hage⟩, hcounted⟩
  exact hcounted ⟨decide_eq_true (List.infix_refl _),
    emod_days_lt (sub_nonneg.mpr (h call hcall)) hage⟩

/-- Then the errors are judged by those that are counted besides. -/
theorem errorsMeet_iff {calls : List Call} {now : Time} (h : ∀ call ∈ calls, call.now ≤ now) :
    ErrorsMeet calls now ↔ 10 < recent "grpc.errors.total" 300 now calls ∨
      recent "grpc.errors.total" 300 now calls + stale "grpc.errors.total" 300 now calls ≤ 10 := by
  rw [ErrorsMeet, missed_eq_zero h]
  omega

/-- Eleven errors and a request, all of them a day ago. -/
def yesterday : List Call :=
  List.replicate 11 { name := "grpc.errors.total", now := 0 } ++
    [{ name := "grpc.requests.total", now := 0 }]

theorem yesterday_few (name : String) : yesterday.countP (·.name = name) < 1000 :=
  List.countP_le_length.trans_lt (by decide)

theorem alerting_iff_yesterday :
    Alerting yesterday (days 1) (MetricsCollector.recordAll ⟨[], systemMetrics⟩ yesterday) ↔
      ErrorsMeet yesterday (days 1) ∧ RequestsMeet yesterday (days 1) :=
  alerting_iff systemMetrics yesterday (days 1) yesterday_few

/-- To the day, old errors count as new ones, and an old request keeps a service responsive. -/
theorem alerting_counterexample :
    (MetricsCollector.recordAll ⟨[], systemMetrics⟩ yesterday).checkHighErrorRate (days 1) = true ∧
      recent "grpc.errors.total" 300 (days 1) yesterday = 0 ∧
      (MetricsCollector.recordAll ⟨[], systemMetrics⟩ yesterday).checkServiceUnresponsive (days 1) =
        false ∧
      ¬Alerting yesterday (days 1) (MetricsCollector.recordAll ⟨[], systemMetrics⟩ yesterday) := by
  have hcheck : (MetricsCollector.recordAll ⟨[], systemMetrics⟩ yesterday).checkHighErrorRate
      (days 1) = true := by decide +kernel
  have hrecent : recent "grpc.errors.total" 300 (days 1) yesterday = 0 := by decide +kernel
  refine ⟨hcheck, hrecent, by decide +kernel, fun h => ?_⟩
  have hmany := h.highErrorRate.mp hcheck
  omega

end Marty.Monitoring.TimeWindows
