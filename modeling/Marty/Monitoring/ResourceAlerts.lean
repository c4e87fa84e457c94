import Mathlib.Data.List.Sort
import Marty.Lib.JsonText
import Marty.Lib.Run
import Marty.Lib.Text
import Marty.Resilience.Histograms

/-! The resource alerts of `HealthMonitor`: a pass of the monitoring loop samples the system into
series of metrics, and looks at series of the same names for what has become too high.  The
handlers of an alert are left out. -/

namespace Marty.Monitoring.ResourceAlerts

open Lib Lib.Run
open Resilience.Histograms (Number)

abbrev Labels := List (String × String)

structure Metric where
  name : String
  value : Number
  labels : Labels := []
  timestamp : ℚ

inductive AlertSeverity
  | info | warning | error | critical
  deriving DecidableEq

structure Alert where
  id : String
  severity : AlertSeverity
  title : String
  message : String
  serviceName : String
  metricName : String := ""
  thresholdValue : Number := .finite 0
  currentValue : Number := .finite 0
  timestamp : ℚ
  acknowledged : Bool := false

/-- `json.dumps(labels, sort_keys=True)` -/
def labelsText (labels : Labels) : String :=
  let items := labels.insertionSort fun a b => a.1 ≤ b.1
  JsonText.dumps JsonText.written (.obj (items.map fun item => (item.1, .str item.2)))

def metricKey (name : String) (labels : Labels) : String := name ++ ":" ++ labelsText labels

def maxDatapoints : Nat := 1000

/-- The series by their keys. -/
abbrev MetricsCollector := List (String × List Metric)

namespace MetricsCollector

variable (m : MetricsCollector)

/-- A full series drops its oldest metric. -/
def recordMetric (metric : Metric) : MetricsCollector :=
  let key := metricKey metric.name metric.labels
  let series := (m.lookup key).getD [] ++ [metric]
  Dict.set key (series.drop (series.length - maxDatapoints)) m

/-- The metrics since a time, which is ignored when it is zero. -/
def getMetricHistory (name : String) (labels : Labels) (since : Option ℚ := none) : List Metric :=
  let metrics := (m.lookup (metricKey name labels)).getD []
  match since with
  | none => metrics
  | some since => if since = 0 then metrics else metrics.filter (since ≤ ·.timestamp)

def getCurrentValue (name : String) (labels : Labels) : Option Number :=
  ((m.getMetricHistory name labels).getLast?).map (·.value)

end MetricsCollector

structure HealthMonitor where
  serviceName : String
  metricsCollector : MetricsCollector := []
  alerts : List (String × Alert) := []

/-- What `psutil` gives, until a call of it raises; of the memory, the share in use and what is
available. -/
structure Samples where
  cpu : Option Number
  memory : Option (Number × Number)
  disk : Option Number
  now : ℚ

/-- `value > 90` for a value that is not zero. -/
def high (value : Number) : Bool :=
  match value with
  | .finite x => x ≠ 0 && 90 < x
  | .infinity => true
  | .negInfinity | .nan => false

/-- An alert of `_check_alert_conditions`: the metric, what the id adds to the service, and the
words of the message. -/
structure Condition where
  metricName : String
  suffix : String
  title : String
  subject : String

def cpuUsage : Condition := ⟨"cpu_usage_percent", "_high_cpu", "High CPU Usage", "CPU usage"⟩

def memoryUsage : Condition :=
  ⟨"memory_usage_percent", "_high_memory", "High Memory Usage", "Memory usage"⟩

namespace HealthMonitor

variable (m : HealthMonitor)

def record (name : String) (value : Number) (now : ℚ) : HealthMonitor :=
  { m with
    metricsCollector := m.metricsCollector.recordMetric
      ⟨name, value, [("service", m.serviceName)], now⟩ }

/-- Whatever is raised ends the collection. -/
def collectSystemMetrics (samples : Samples) : HealthMonitor :=
  match samples.cpu with
  | none => m
  | some cpu =>
    let m := m.record "cpu_usage_percent" cpu samples.now
    match samples.memory with
    | none => m
    | some (percent, available) =>
      let m := m.record "memory_usage_percent" percent samples.now
      let m := m.record "memory_available_bytes" available samples.now
      match samples.disk with
      | none => m
      | some disk => m.record "disk_usage_percent" disk samples.now

/-- An acknowledged alert is not raised again. -/
def raiseAlert (alert : Alert) : HealthMonitor :=
  match m.alerts.lookup alert.id with
  | some existing =>
    if existing.acknowledged then m else { m with alerts := Dict.set alert.id alert m.alerts }
  | none => { m with alerts := Dict.set alert.id alert m.alerts }

def acknowledgeAlert (id : String) : HealthMonitor :=
  match m.alerts.lookup id with
  | none => m
  | some alert => { m with alerts := Dict.set id { alert with acknowledged := true } m.alerts }

def clearOldAlerts (cutoff : ℚ) : HealthMonitor :=
  { m with alerts := m.alerts.filter fun e => !(e.2.timestamp < cutoff && e.2.acknowledged) }

/-- `format` is the format `.1f`. -/
def check (format : Number → String) (now : ℚ) (c : Condition) : HealthMonitor :=
  match m.metricsCollector.getCurrentValue c.metricName [] with
  | none => m
  | some usage =>
    if high usage then
      m.raiseAlert {
        id := m.serviceName ++ c.suffix
        severity := .critical
        title := c.title
        message := c.subject ++ " is " ++ format usage ++ "%"
        serviceName := m.serviceName
        metricName := c.metricName
        currentValue := usage
        thresholdValue := .finite 90
        timestamp := now }
    else m

def checkAlertConditions (format : Number → String) (now : ℚ) : HealthMonitor :=
  (m.check format now cpuUsage).check format now memoryUsage

/-- A pass of the loop, after the health checks. -/
def pass (format : Number → String) (samples : Samples) : HealthMonitor :=
  (m.collectSystemMetrics samples).checkAlertConditions format samples.now

end HealthMonitor

/-- What happens to a monitor: passes, and the calls that others make. -/
inductive Event
  | pass (samples : Samples)
  | recordMetric (metric : Metric)
  | raiseAlert (alert : Alert)
  | acknowledgeAlert (id : String)
  | clearOldAlerts (cutoff : ℚ)

def step (format : Number → String) (m : HealthMonitor) : Event → Option HealthMonitor
  | .pass samples => some (m.pass format samples)
  | .recordMetric metric =>
    some { m with metricsCollector := m.metricsCollector.recordMetric metric }
  | .raiseAlert alert => some (m.raiseAlert alert)
  | .acknowledgeAlert id => some (m.acknowledgeAlert id)
  | .clearOldAlerts cutoff => some (m.clearOldAlerts cutoff)

/-! Keys and series. -/

section keys

variable {name name' : String} {labels labels' : Labels}

theorem metricKey_eq_iff (h : ':' ∉ name.toList) (h' : ':' ∉ name'.toList) :
    metricKey name labels = metricKey name' labels' ↔
      name = name' ∧ labelsText labels = labelsText labels' := by
  have hkey : ∀ (name : String) (labels : Labels), (metricKey name labels).toList =
      name.toList ++ ':' :: (labelsText labels).toList := by
    intro name labels
    simp [metricKey]
  rw [← String.toList_inj, hkey, hkey, Text.join_eq_iff, String.toList_inj, String.toList_inj]
  refine or_iff_left_of_imp ?_
  rintro (⟨w, hw, -⟩ | ⟨w, hw, -⟩)
  · exact absurd (hw ▸ List.mem_append_right _ List.mem_cons_self) h'
  · exact absurd (hw ▸ List.mem_append_right _ List.mem_cons_self) h

/-- The label of the service is part of the key. -/
theorem labelsText_service_ne (service : String) : labelsText [("service", service)] ≠
    labelsText [] := by
  intro h
  have hload := congrArg (JsonText.loads JsonText.written) h
  rw [labelsText, labelsText, JsonText.loads_dumps, JsonText.loads_dumps] at hload
  · cases hload
  · simp [JsonText.Value.WellFormed, JsonText.Value.WellFormedEntries]
  · simp [JsonText.Value.WellFormed, JsonText.Value.WellFormedEntries]

end keys

namespace MetricsCollector

theorem getLast?_drop_append {α : Type} (xs : List α) (x : α) {n : Nat} (h : n ≤ xs.length) :
    ((xs ++ [x]).drop n).getLast? = some x := by
  rw [List.drop_append_of_le_length h, List.getLast?_append, List.getLast?_singleton]
  rfl

/-- A series ends with what was last recorded under its key. -/
theorem getCurrentValue_recordMetric (m : MetricsCollector) (metric : Metric) (name : String)
    (labels : Labels) : (m.recordMetric metric).getCurrentValue name labels =
      if metricKey metric.name metric.labels = metricKey name labels then some metric.value
      else m.getCurrentValue name labels := by
  by_cases h : metricKey metric.name metric.labels = metricKey name labels
  · rw [if_pos h, recordMetric, getCurrentValue, getMetricHistory, h, Dict.lookup_set_self,
      Option.getD_some, getLast?_drop_append]
    · rfl
    · simp [maxDatapoints]
  · rw [if_neg h, recordMetric, getCurrentValue, getMetricHistory,
      Dict.lookup_set_of_ne (Ne.symm h), getCurrentValue, getMetricHistory]

end MetricsCollector

namespace HealthMonitor

/-- The latest sample of a metric. -/
def latest (m : HealthMonitor) (name : String) : Option Number :=
  m.metricsCollector.getCurrentValue name [("service", m.serviceName)]

/-- The latest value of a metric that was recorded without labels. -/
def unlabelled (m : HealthMonitor) (name : String) : Option Number :=
  m.metricsCollector.getCurrentValue name []

section record

variable {m : HealthMonitor} {name name' : String} {value : Number} {now : ℚ}
  (h : ':' ∉ name.toList) (h' : ':' ∉ name'.toList)

include h h'

theorem latest_record :
    (m.record name value now).latest name' =
      if name = name' then some value else m.latest name' := by
  rw [latest, record, MetricsCollector.getCurrentValue_recordMetric]
  simp only [metricKey_eq_iff h h', and_true]
  rfl

theorem unlabelled_record : (m.record name value now).unlabelled name' = m.unlabelled name' := by
  rw [unlabelled, record, MetricsCollector.getCurrentValue_recordMetric]
  simp only [metricKey_eq_iff h h', labelsText_service_ne, and_false, if_false]
  rfl

end record

/-! What a pass records. -/

section collect

variable (m : HealthMonitor) (samples : Samples)

theorem serviceName_collectSystemMetrics :
    (m.collectSystemMetrics samples).serviceName = m.serviceName := by
  rw [collectSystemMetrics]
  repeat' split
  all_goals rfl

theorem alerts_collectSystemMetrics :
    (m.collectSystemMetrics samples).alerts = m.alerts := by
  rw [collectSystemMetrics]
  repeat' split
  all_goals rfl

/-- No sample is recorded without labels. -/
theorem unlabelled_collectSystemMetrics {name : String} (h : ':' ∉ name.toList) :
    (m.collectSystemMetrics samples).unlabelled name = m.unlabelled name := by
  rw [collectSystemMetrics]
  repeat' split
  all_goals simp (disch := first | decide | exact h) only [unlabelled_record]

theorem latest_cpu_collectSystemMetrics :
    (m.collectSystemMetrics samples).latest "cpu_usage_percent" =
      samples.cpu.or (m.latest "cpu_usage_percent") := by
  rw [collectSystemMetrics]
  repeat' split
  all_goals simp (disch := decide) [latest_record, *]

theorem latest_memory_collectSystemMetrics :
    (m.collectSystemMetrics samples).latest "memory_usage_percent" =
      ((samples.cpu.bind fun _ => samples.memory).map (·.1)).or
        (m.latest "memory_usage_percent") := by
  rw [collectSystemMetrics]
  repeat' split
  all_goals simp (disch := decide) [latest_record, *]

end collect

/-! What a pass raises. -/

def acknowledged (m : HealthMonitor) (id : String) : Bool :=
  (m.alerts.lookup id).any (·.acknowledged)

/-- The `current_value` of a stored alert. -/
def alertValue (m : HealthMonitor) (id : String) : Option Number :=
  (m.alerts.lookup id).map (·.currentValue)

def alertId (m : HealthMonitor) (c : Condition) : String := m.serviceName ++ c.suffix

theorem metricsCollector_raiseAlert (m : HealthMonitor) (alert : Alert) :
    (m.raiseAlert alert).metricsCollector = m.metricsCollector := by
  rw [raiseAlert]
  repeat' split
  all_goals rfl

theorem serviceName_raiseAlert (m : HealthMonitor) (alert : Alert) :
    (m.raiseAlert alert).serviceName = m.serviceName := by
  rw [raiseAlert]
  repeat' split
  all_goals rfl

theorem lookup_raiseAlert (m : HealthMonitor) (alert : Alert) (id : String) :
    (m.raiseAlert alert).alerts.lookup id =
      if id = alert.id ∧ m.acknowledged id = false then some alert else m.alerts.lookup id := by
  have hset : ∀ id, (Dict.set alert.id alert m.alerts).lookup id =
      if id = alert.id then some alert else m.alerts.lookup id := by
    intro id
    split
    case isTrue h => rw [h, Dict.lookup_set_self]
    case isFalse h => rw [Dict.lookup_set_of_ne h]
  rw [raiseAlert, acknowledged]
  cases hlookup : m.alerts.lookup alert.id with
  | none =>
    by_cases h : id = alert.id
    · simp [hset, h, hlookup]
    · simp [hset, h]
  | some existing =>
    by_cases h : id = alert.id
    · cases hacknowledged : existing.acknowledged <;> simp [hset, h, hlookup, hacknowledged]
    · cases hacknowledged : existing.acknowledged <;> simp [hset, h, hacknowledged]

section check

variable (m : HealthMonitor) (format : Number → String) (now : ℚ) (c : Condition)

theorem metricsCollector_check :
    (m.check format now c).metricsCollector = m.metricsCollector := by
  rw [check]
  repeat' split
  · rfl
  · exact metricsCollector_raiseAlert m _
  · rfl

theorem serviceName_check : (m.check format now c).serviceName = m.serviceName := by
  rw [check]
  repeat' split
  · rfl
  · exact serviceName_raiseAlert m _
  · rfl

/-- A check changes no alert but its own. -/
theorem lookup_check_of_ne {id : String} (h : id ≠ m.alertId c) :
    (m.check format now c).alerts.lookup id = m.alerts.lookup id := by
  rw [check]
  repeat' split
  · rfl
  · rw [lookup_raiseAlert, if_neg fun hid => h hid.1]
  · rfl

/-- Its own alert gets the latest value without labels, when that is high. -/
theorem alertValue_check : (m.check format now c).alertValue (m.alertId c) =
    if m.acknowledged (m.alertId c) then m.alertValue (m.alertId c)
    else ((m.unlabelled c.metricName).filter high).or (m.alertValue (m.alertId c)) := by
  rw [check, ← unlabelled]
  cases m.unlabelled c.metricName with
  | none => simp
  | some usage =>
    cases hhigh : high usage with
    | false => simp [hhigh, Option.filter_some]
    | true =>
      rw [alertValue]
      simp only [if_true, lookup_raiseAlert, alertId, true_and, Option.filter_some, hhigh]
      cases m.acknowledged (m.serviceName ++ c.suffix) <;> simp [alertValue]

end check

section pass

variable (m : HealthMonitor) (format : Number → String) (samples : Samples)

theorem alertId_ne : m.alertId cpuUsage ≠ m.alertId memoryUsage := by
  simp [alertId, cpuUsage, memoryUsage]

theorem latest_pass (name : String) :
    (m.pass format samples).latest name = (m.collectSystemMetrics samples).latest name := by
  rw [pass, checkAlertConditions, latest, latest, metricsCollector_check, metricsCollector_check,
    serviceName_check, serviceName_check]

/-- Neither of the two checks touches the alert of the other. -/
theorem alertValue_checkAlertConditions (now : ℚ) {c : Condition}
    (hc : c = cpuUsage ∨ c = memoryUsage) :
    (m.checkAlertConditions format now).alertValue (m.alertId c) =
      if m.acknowledged (m.alertId c) then m.alertValue (m.alertId c)
      else ((m.unlabelled c.metricName).filter high).or (m.alertValue (m.alertId c)) := by
  have hid : ∀ c, (m.check format now cpuUsage).alertId c = m.alertId c := fun c => by
    rw [alertId, serviceName_check, alertId]
  rw [checkAlertConditions]
  rcases hc with rfl | rfl
  · have hne : m.alertId cpuUsage ≠ (m.check format now cpuUsage).alertId memoryUsage :=
      hid memoryUsage ▸ m.alertId_ne
    rw [alertValue, lookup_check_of_ne _ format now _ hne, ← alertValue, alertValue_check]
  · have hlookup := lookup_check_of_ne m format now cpuUsage (Ne.symm m.alertId_ne)
    rw [← hid, alertValue_check, hid, acknowledged, alertValue, hlookup, ← acknowledged,
      ← alertValue, unlabelled, metricsCollector_check, ← unlabelled]

theorem alertValue_pass {c : Condition} (hc : c = cpuUsage ∨ c = memoryUsage) :
    (m.pass format samples).alertValue (m.alertId c) =
      if m.acknowledged (m.alertId c) then m.alertValue (m.alertId c)
      else ((m.unlabelled c.metricName).filter high).or (m.alertValue (m.alertId c)) := by
  have hname : ':' ∉ c.metricName.toList := by
    rcases hc with rfl | rfl <;> decide
  have hid : (m.collectSystemMetrics samples).alertId c = m.alertId c := by
    rw [alertId, serviceName_collectSystemMetrics, alertId]
  have h := alertValue_checkAlertConditions (m.collectSystemMetrics samples) format samples.now hc
  rw [hid, unlabelled_collectSystemMetrics m samples hname] at h
  rw [pass, h, acknowledged, alertValue, alerts_collectSystemMetrics, ← acknowledged, ← alertValue]

end pass

end HealthMonitor

/-! When the alerts fire. -/

/-- `value > 90` -/
def Exceeds : Number → Prop
  | .finite x => 90 < x
  | .infinity => True
  | .negInfinity | .nan => False

theorem high_eq_true {value : Number} : high value = true ↔ Exceeds value := by
  cases value with
  | finite x =>
    simp only [high, Exceeds, Bool.and_eq_true, decide_eq_true_eq]
    exact and_iff_right_of_imp fun h => ((by norm_num : (0 : ℚ) < 90).trans h).ne'
  | infinity => exact iff_of_true rfl trivial
  | negInfinity => exact iff_of_false Bool.false_ne_true not_false
  | nan => exact iff_of_false Bool.false_ne_true not_false

/-- After a pass, a latest sample above the threshold is the value of the alert, unless the alert
had been acknowledged before. -/
def Fires (format : Number → String) (m : HealthMonitor) (samples : Samples) (c : Condition) :
    Prop :=
  ∀ value, (m.pass format samples).latest c.metricName = some value → Exceeds value →
    m.acknowledged (m.alertId c) = true ∨
      (m.pass format samples).alertValue (m.alertId c) = some value

/-- What a pass samples for a condition. -/
def Samples.of (samples : Samples) (c : Condition) : Option Number :=
  if c.metricName = "cpu_usage_percent" then samples.cpu
  else (samples.cpu.bind fun _ => samples.memory).map (·.1)

/-- A latest sample above the threshold meets an acknowledged alert, or was recorded without labels
as well, or nothing above the threshold was and the alert has the value already. -/
def Meets (m : HealthMonitor) (samples : Samples) (c : Condition) : Prop :=
  ∀ value, (samples.of c).or (m.latest c.metricName) = some value → Exceeds value →
    m.acknowledged (m.alertId c) = true ∨ m.unlabelled c.metricName = some value ∨
      (∀ other, m.unlabelled c.metricName = some other → ¬Exceeds other) ∧
        m.alertValue (m.alertId c) = some value

theorem latest_pass_of (m : HealthMonitor) (format : Number → String) (samples : Samples)
    {c : Condition} (hc : c = cpuUsage ∨ c = memoryUsage) :
    (m.pass format samples).latest c.metricName =
      (samples.of c).or (m.latest c.metricName) := by
  rw [HealthMonitor.latest_pass]
  rcases hc with rfl | rfl
  · exact m.latest_cpu_collectSystemMetrics samples
  · exact m.latest_memory_collectSystemMetrics samples

theorem fires_iff_meets (format : Number → String) (m : HealthMonitor) (samples : Samples)
    {c : Condition} (hc : c = cpuUsage ∨ c = memoryUsage) :
    Fires format m samples c ↔ Meets m samples c := by
  rw [Fires, Meets, latest_pass_of m format samples hc, m.alertValue_pass format samples hc]
  refine forall_congr' fun value => imp_congr_right fun _ => imp_congr_right fun hvalue => ?_
  cases m.acknowledged (m.alertId c) with
  | true => simp
  | false =>
    cases m.unlabelled c.metricName with
    | none => simp
    | some other =>
      by_cases hother : Exceeds other
      · simp [Option.filter_some, high_eq_true.mpr hother, hother]
      · have hne : other ≠ value := fun h => hother (h ▸ hvalue)
        have hhigh : high other = false := by simpa using mt high_eq_true.mp hother
        simp [Option.filter_some, hhigh, hother, hne]

/-- Both alerts fire, when the event is a pass. -/
def FiresAt (format : Number → String) (m : HealthMonitor) : Event → Prop
  | .pass samples => Fires format m samples cpuUsage ∧ Fires format m samples memoryUsage
  | _ => True

def MeetsAt (m : HealthMonitor) : Event → Prop
  | .pass samples => Meets m samples cpuUsage ∧ Meets m samples memoryUsage
  | _ => True

/-- In any run, the alerts fire at every pass exactly when each pass meets its condition in the
state before it. -/
theorem alerts_fire_iff (format : Number → String) (m : HealthMonitor) (events : List Event) :
    Guarded (step format) (FiresAt format) m events ↔ Guarded (step format) MeetsAt m events := by
  refine guarded_congr (I := fun _ => True) (fun _ _ _ _ _ => trivial) (fun m e _ => ?_) trivial
  cases e with
  | pass samples =>
    exact and_congr (fires_iff_meets format m samples (.inl rfl))
      (fires_iff_meets format m samples (.inr rfl))
  | recordMetric metric => exact Iff.rfl
  | raiseAlert alert => exact Iff.rfl
  | acknowledgeAlert id => exact Iff.rfl
  | clearOldAlerts cutoff => exact Iff.rfl

/-- One pass over a busy processor, in a new monitor. -/
def busy : Samples where
  cpu := some (.finite 95)
  memory := some (.finite 40, .finite 8)
  disk := some (.finite 10)
  now := 0

/-- The sample is stored, and no alert is. -/
theorem alerts_fire_counterexample :
    (HealthMonitor.pass ⟨"svc", [], []⟩ (fun _ => "95.0") busy).latest "cpu_usage_percent" =
        some (.finite 95) ∧
      (HealthMonitor.pass ⟨"svc", [], []⟩ (fun _ => "95.0") busy).alertValue "svc_high_cpu" =
        none ∧
      ¬Guarded (step fun _ => "95.0") (FiresAt fun _ => "95.0") ⟨"svc", [], []⟩ [.pass busy] := by
  have hlatest : (HealthMonitor.pass ⟨"svc", [], []⟩ (fun _ => "95.0") busy).latest
      "cpu_usage_percent" = some (.finite 95) := by decide +kernel
  have halert : (HealthMonitor.pass ⟨"svc", [], []⟩ (fun _ => "95.0") busy).alertValue
      "svc_high_cpu" = none := by decide +kernel
  refine ⟨hlatest, halert, fun h => ?_⟩
  rcases h.head.1 _ hlatest (by norm_num [Exceeds]) with hacknowledged | hvalue
  · cases hacknowledged
  · have hnone := halert.symm.trans hvalue
    cases hnone

/-! A monitor on its own. -/

/-- Nobody raises an alert or records one of the two metrics without labels. -/
def Undisturbed (_ : HealthMonitor) : Event → Prop
  | .recordMetric metric => ∀ c, c = cpuUsage ∨ c = memoryUsage →
    metricKey metric.name metric.labels ≠ metricKey c.metricName []
  | .raiseAlert _ => False
  | _ => True

/-- Nothing to see, and nothing raised. -/
structure Silent (m : HealthMonitor) : Prop where
  unlabelled : ∀ c, c = cpuUsage ∨ c = memoryUsage → m.unlabelled c.metricName = none
  alerts : m.alerts = []

theorem Silent.pass {format : Number → String} {m : HealthMonitor} (h : Silent m)
    (samples : Samples) : Silent (m.pass format samples) := by
  have hcollect : Silent (m.collectSystemMetrics samples) := by
    refine ⟨fun c hc => ?_, (m.alerts_collectSystemMetrics samples).trans h.alerts⟩
    rw [m.unlabelled_collectSystemMetrics samples (by rcases hc with rfl | rfl <;> decide)]
    exact h.unlabelled c hc
  have hcheck : ∀ {m : HealthMonitor} {c : Condition}, (c = cpuUsage ∨ c = memoryUsage) →
      Silent m → m.check format samples.now c = m := by
    intro m c hc h
    have hnone := h.unlabelled c hc
    rw [HealthMonitor.unlabelled] at hnone
    rw [HealthMonitor.check, hnone]
  rw [HealthMonitor.pass, HealthMonitor.checkAlertConditions, hcheck (.inl rfl) hcollect,
    hcheck (.inr rfl) hcollect]
  exact hcollect

theorem Silent.step {format : Number → String} {m m' : HealthMonitor} {e : Event} (h : Silent m)
    (he : Undisturbed m e) (hstep : step format m e = some m') : Silent m' := by
  cases e with
  | pass samples =>
    obtain rfl := Option.some.inj hstep
    exact h.pass samples
  | recordMetric metric =>
    obtain rfl := Option.some.inj hstep
    refine ⟨fun c hc => ?_, h.alerts⟩
    rw [HealthMonitor.unlabelled, MetricsCollector.getCurrentValue_recordMetric,
      if_neg (he c hc)]
    exact h.unlabelled c hc
  | raiseAlert alert => cases he
  | acknowledgeAlert id =>
    obtain rfl := Option.some.inj hstep
    rw [HealthMonitor.acknowledgeAlert, h.alerts]
    exact h
  | clearOldAlerts cutoff =>
    obtain rfl := Option.some.inj hstep
    refine ⟨h.unlabelled, ?_⟩
    rw [HealthMonitor.clearOldAlerts, h.alerts, List.filter_nil]

/-- Whatever it samples, a monitor on its own never has an alert. -/
theorem silent_run {format : Number → String} {serviceName : String} {events : List Event}
    {m : HealthMonitor} (h : Guarded (step format) Undisturbed ⟨serviceName, [], []⟩ events)
    (hrun : run (step format) ⟨serviceName, [], []⟩ events = some m) : Silent m :=
  run_invariant (fun _ _ _ h he hstep => h.step he hstep) ⟨fun _ _ => rfl, rfl⟩ h hrun

end Marty.Monitoring.ResourceAlerts
