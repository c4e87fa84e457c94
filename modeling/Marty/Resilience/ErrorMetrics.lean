import Mathlib.Algebra.Order.BigOperators.Group.List
import Mathlib.Data.List.Dedup
import Mathlib.Data.List.Infix
import Mathlib.Data.List.TakeWhile
import Marty.Lib.Text
import Marty.Resilience.Histograms

/-! `ResilienceMetrics.record_error` and `get_error_stats`: the errors are counted under a key of
service and type, and the types of a service are read off the keys again. -/

namespace Marty.Resilience.ErrorMetrics

open Lib Metrics Metrics.MetricsCollector

/-- A call of `record_error`, and the clock. -/
structure ErrorCall where
  service : String
  errorType : String
  recoveryDurationMs : Option ℚ := none
  now : ℚ := 0

/-- The labels of an error. -/
def errorLabels (service errorType : String) : Labels :=
  [("service", service), ("error_type", errorType)]

def errorsTotal : String := "errors_total"

def errorRecoveryTotal : String := "error_recovery_total"

def registeredCounters : List String := [
  "circuit_breaker_requests_total", "circuit_breaker_failures_total",
  "circuit_breaker_successes_total", "circuit_breaker_rejections_total", "retry_attempts_total",
  "retry_successes_total", "retry_exhausted_total", "degradation_fallback_total",
  "degradation_primary_success_total", errorsTotal, errorRecoveryTotal]

/-- The gauges, which `record_error` leaves alone. -/
def registeredGauges : List String := ["circuit_breaker_state", "degradation_level"]

def registeredHistograms : List String := [
  "circuit_breaker_request_duration_ms", "retry_delay_ms", "retry_total_duration_ms",
  "degradation_response_time_ms", "error_recovery_duration_ms"]

/-- In milliseconds. -/
def defaultBuckets : List HistogramBucket :=
  (([1, 2, 5, 10, 25, 50, 100, 250, 500, 1000, 2500, 5000, 10000] : List ℚ).map some ++
    [none]).map fun bound => { upperBound := bound }

/-- The collector of a new `ResilienceMetrics`. -/
def new : MetricsCollector where
  counters := registeredCounters.map (·, 0)
  histograms := registeredHistograms.map (·, defaultBuckets)

def recordError (m : MetricsCollector) (call : ErrorCall) : MetricsCollector :=
  let labels := errorLabels call.service call.errorType
  let m := (m.incrementCounter errorsTotal (.number 1) labels call.now).1
  match call.recoveryDurationMs with
  | none => m
  | some duration =>
    let m := (m.incrementCounter errorRecoveryTotal (.number 1) labels call.now).1
    m.observeHistogram "error_recovery_duration_ms" duration labels call.now

def recordAll (calls : List ErrorCall) : MetricsCollector := calls.foldl recordError new

def getCounterValue (m : MetricsCollector) (name : String) (labels : Labels) : ℚ :=
  (m.counters.lookup (getMetricKey name labels)).getD 0

/-- The keys of `get_all_metrics`. -/
def metricNames (m : MetricsCollector) : List String :=
  m.counters.map (·.1) ++ registeredGauges ++ m.histograms.map (·.1)

/-- What comes after the first occurrence of a part in a text. -/
def after (part : List Char) : List Char → Option (List Char)
  | [] => if part = [] then some [] else none
  | c :: text => if part <+: c :: text then some ((c :: text).drop part.length) else after part text

/-- Up to the first comma, or to the end of the labels, or (when `find` gives -1) without the last
character. -/
def errorTypeOf (rest : List Char) : String :=
  String.ofList <|
    if ',' ∈ rest then rest.takeWhile (· ≠ ',')
    else if Char.ofNat 0x7d ∈ rest then rest.takeWhile (· ≠ Char.ofNat 0x7d)
    else rest.dropLast

/-- The set of types, in some order. -/
def errorTypes (m : MetricsCollector) (service : String) : List String :=
  (((metricNames m).filter fun name =>
      Text.contains errorsTotal name && Text.contains ("service=" ++ service) name).filterMap
    fun name => (after "error_type=".toList name.toList).map errorTypeOf).dedup

structure Breakdown where
  count : ℚ
  recoveries : ℚ
  deriving DecidableEq

structure ErrorStats where
  totalErrors : ℚ
  totalRecoveries : ℚ
  recoveryDurationStats : Histograms.HistogramStats
  errorBreakdown : List (String × Breakdown)
  deriving DecidableEq

def breakdown (m : MetricsCollector) (service errorType : String) : Breakdown where
  count := getCounterValue m errorsTotal (errorLabels service errorType)
  recoveries := getCounterValue m errorRecoveryTotal (errorLabels service errorType)

def getErrorStats (m : MetricsCollector) (service : String) : ErrorStats where
  totalErrors := getCounterValue m errorsTotal [("service", service)]
  totalRecoveries := getCounterValue m errorRecoveryTotal [("service", service)]
  recoveryDurationStats := (Histograms.Collector.ofMetrics m).getHistogramStats
    "error_recovery_duration_ms" [("service", service)]
  errorBreakdown := (errorTypes m service).map fun errorType =>
    (errorType, breakdown m service errorType)

/-! Keys. -/

section keys

variable {service service' errorType errorType' : String}

/-- The text between the braces, after the first equals sign. -/
def labelText (service errorType : String) : List Char :=
  errorType.toList ++ ',' :: ("service=".toList ++ service.toList)

theorem toList_getMetricKey_errorLabels (name service errorType : String) :
    (getMetricKey name (errorLabels service errorType)).toList =
      name.toList ++ Char.ofNat 0x7b :: ("error_type=".toList ++
        (labelText service errorType ++ [Char.ofNat 0x7d])) := by
  have hle : ¬toLex ("service", service) ≤ toLex ("error_type", errorType) := by
    have hlt : ¬"service" < "error_type" := by decide
    rw [Prod.Lex.toLex_le_toLex]
    simp [hlt]
  have hsort : (errorLabels service errorType).insertionSort (fun a b => toLex a ≤ toLex b) =
      [("error_type", errorType), ("service", service)] := by
    simp [errorLabels, hle]
  rw [getMetricKey, if_neg (show errorLabels service errorType ≠ [] from List.cons_ne_nil _ _),
    hsort]
  simp [labelText]

theorem getMetricKey_errorLabels_inj {name : String} :
    getMetricKey name (errorLabels service errorType) =
        getMetricKey name (errorLabels service' errorType') ↔
      labelText service errorType = labelText service' errorType' := by
  rw [← String.toList_inj, toList_getMetricKey_errorLabels, toList_getMetricKey_errorLabels]
  simp

theorem errors_ne_recovery : getMetricKey errorsTotal (errorLabels service errorType) ≠
    getMetricKey errorRecoveryTotal (errorLabels service' errorType') := by
  rw [Ne, ← String.toList_inj, toList_getMetricKey_errorLabels, toList_getMetricKey_errorLabels]
  simp [errorsTotal, errorRecoveryTotal]

/-- The totals are read under keys that no error has. -/
theorem total_ne {name name' : String} (h : name ∈ [errorsTotal, errorRecoveryTotal])
    (h' : name' ∈ [errorsTotal, errorRecoveryTotal]) : getMetricKey name [("service", service)] ≠
      getMetricKey name' (errorLabels service' errorType') := by
  rw [Ne, ← String.toList_inj, toList_getMetricKey_errorLabels]
  simp only [List.mem_cons, List.not_mem_nil, or_false] at h h'
  rcases h with rfl | rfl <;> rcases h' with rfl | rfl <;>
    simp [getMetricKey, errorsTotal, errorRecoveryTotal]

end keys

namespace ErrorCall

def errorKey (call : ErrorCall) : String :=
  getMetricKey errorsTotal (errorLabels call.service call.errorType)

def recoveryKey (call : ErrorCall) : String :=
  getMetricKey errorRecoveryTotal (errorLabels call.service call.errorType)

end ErrorCall

/-! Counters after calls. -/

/-- The value under a key. -/
def counter (m : MetricsCollector) (key : String) : ℚ := (m.counters.lookup key).getD 0

theorem counter_incrementCounter (m : MetricsCollector) (name : String) (labels : Labels)
    (now : ℚ) (key : String) : counter (m.incrementCounter name (.number 1) labels now).1 key =
      counter m key + if getMetricKey name labels = key then 1 else 0 := by
  by_cases h : getMetricKey name labels = key
  · subst h
    simp [counter, incrementCounter, appendMetric, Dict.lookup_set_self]
  · simp [counter, incrementCounter, appendMetric, Dict.lookup_set_of_ne (Ne.symm h), h]

theorem counters_observeHistogram (m : MetricsCollector) (name : String) (value : ℚ)
    (labels : Labels) (now : ℚ) :
    (m.observeHistogram name value labels now).counters = m.counters := by
  rw [observeHistogram]
  cases m.histograms.lookup (getMetricKey name labels) <;> rfl

/-- What a call adds to a counter. -/
def ErrorCall.adds (key : String) (call : ErrorCall) : ℚ :=
  (if call.errorKey = key then 1 else 0) +
    if call.recoveryDurationMs.isSome ∧ call.recoveryKey = key then 1 else 0

theorem counter_recordError (m : MetricsCollector) (call : ErrorCall) (key : String) :
    counter (recordError m call) key = counter m key + call.adds key := by
  rw [recordError, ErrorCall.adds, ErrorCall.errorKey, ErrorCall.recoveryKey]
  cases call.recoveryDurationMs with
  | none =>
    rw [counter_incrementCounter]
    simp
  | some duration =>
    show counter (observeHistogram _ _ _ _ _) key = _
    rw [counter, counters_observeHistogram, ← counter, counter_incrementCounter,
      counter_incrementCounter, add_assoc]
    simp

theorem counter_new (key : String) : counter new key = 0 := by
  have hzero : ∀ names : List String,
      ((names.map fun name => (name, (0 : ℚ))).lookup key).getD 0 = 0 := by
    intro names
    induction names with
    | nil => rfl
    | cons name names ih =>
      rw [List.map_cons, List.lookup_cons]
      cases key == name with
      | true => rfl
      | false => exact ih
  exact hzero registeredCounters

theorem counter_recordAll (calls : List ErrorCall) (key : String) :
    counter (recordAll calls) key = (calls.map (ErrorCall.adds key)).sum := by
  have hfold : ∀ m, counter (calls.foldl recordError m) key =
      counter m key + (calls.map (ErrorCall.adds key)).sum := by
    induction calls with
    | nil => exact fun m => (add_zero _).symm
    | cons call calls ih =>
      intro m
      rw [List.foldl_cons, ih, counter_recordError, List.map_cons, List.sum_cons, add_assoc]
  rw [recordAll, hfold, counter_new, zero_add]

theorem sum_adds_eq_countP {calls : List ErrorCall} {key : String} {p : ErrorCall → Bool}
    (h : ∀ call, call.adds key = if p call then 1 else 0) :
    (calls.map (ErrorCall.adds key)).sum = calls.countP p := by
  induction calls with
  | nil => rfl
  | cons call calls ih =>
    rw [List.map_cons, List.sum_cons, ih, h, List.countP_cons]
    cases p call <;> simp [add_comm]

variable (calls : List ErrorCall) (service errorType : String)

/-- A type's errors are counted with those of any other call with its key. -/
theorem count_recordAll : (breakdown (recordAll calls) service errorType).count = calls.countP
    fun call => labelText call.service call.errorType = labelText service errorType := by
  refine (counter_recordAll calls _).trans (sum_adds_eq_countP fun call => ?_)
  simp [ErrorCall.adds, ErrorCall.errorKey, ErrorCall.recoveryKey, getMetricKey_errorLabels_inj,
    Ne.symm errors_ne_recovery]

theorem recoveries_recordAll :
    (breakdown (recordAll calls) service errorType).recoveries = calls.countP fun call =>
      call.recoveryDurationMs.isSome ∧
        labelText call.service call.errorType = labelText service errorType := by
  refine (counter_recordAll calls _).trans (sum_adds_eq_countP fun call => ?_)
  simp [ErrorCall.adds, ErrorCall.errorKey, ErrorCall.recoveryKey, getMetricKey_errorLabels_inj,
    errors_ne_recovery]

/-- Nothing is counted under the keys that the totals are read from. -/
theorem total_recordAll {name : String} (h : name ∈ [errorsTotal, errorRecoveryTotal]) :
    getCounterValue (recordAll calls) name [("service", service)] = 0 := by
  refine (counter_recordAll calls _).trans (List.sum_eq_zero fun x hx => ?_)
  obtain ⟨call, -, rfl⟩ := List.mem_map.mp hx
  have herrors : call.errorKey ≠ getMetricKey name [("service", service)] :=
    (total_ne h List.mem_cons_self).symm
  have hrecovery : call.recoveryKey ≠ getMetricKey name [("service", service)] :=
    (total_ne h (List.mem_cons_of_mem _ List.mem_cons_self)).symm
  rw [ErrorCall.adds, if_neg herrors, if_neg fun h => hrecovery h.2, add_zero]

theorem totalErrors_recordAll : (getErrorStats (recordAll calls) service).totalErrors = 0 :=
  total_recordAll calls service List.mem_cons_self

theorem totalRecoveries_recordAll :
    (getErrorStats (recordAll calls) service).totalRecoveries = 0 :=
  total_recordAll calls service (List.mem_cons_of_mem _ List.mem_cons_self)

/-! The types that are found. -/

variable {calls service errorType}

theorem mem_counters_incrementCounter {m : MetricsCollector} {name : String} {value : ℚ}
    {labels : Labels} {now : ℚ} {key : String} :
    key ∈ (m.incrementCounter name (.number value) labels now).1.counters.map (·.1) ↔
      key = getMetricKey name labels ∨ key ∈ m.counters.map (·.1) := by
  by_cases h : key = getMetricKey name labels
  · subst h
    simp [incrementCounter, appendMetric, ← Dict.lookup_ne_none, Dict.lookup_set_self]
  · simp only [incrementCounter, appendMetric, ← Dict.lookup_ne_none, Dict.lookup_set_of_ne h, h,
      false_or]

/-- The keys that a call counts under. -/
def ErrorCall.Has (key : String) (call : ErrorCall) : Prop :=
  key = call.errorKey ∨ call.recoveryDurationMs.isSome ∧ key = call.recoveryKey

theorem mem_counters_recordError {m : MetricsCollector} {call : ErrorCall} {key : String} :
    key ∈ (recordError m call).counters.map (·.1) ↔
      call.Has key ∨ key ∈ m.counters.map (·.1) := by
  rw [recordError, ErrorCall.Has, ErrorCall.errorKey, ErrorCall.recoveryKey]
  cases call.recoveryDurationMs with
  | none =>
    rw [mem_counters_incrementCounter]
    simp
  | some duration =>
    show key ∈ List.map _ (observeHistogram _ _ _ _ _).counters ↔ _
    rw [counters_observeHistogram, mem_counters_incrementCounter, mem_counters_incrementCounter,
      ← or_assoc, or_comm (a := key = getMetricKey errorRecoveryTotal _)]
    simp only [Option.isSome_some, true_and]

theorem mem_counters_recordAll {key : String} : key ∈ (recordAll calls).counters.map (·.1) ↔
    key ∈ registeredCounters ∨ ∃ call ∈ calls, call.Has key := by
  have hfold : ∀ m, key ∈ (calls.foldl recordError m).counters.map (·.1) ↔
      key ∈ m.counters.map (·.1) ∨ ∃ call ∈ calls, call.Has key := by
    induction calls with
    | nil => simp
    | cons call calls ih =>
      intro m
      rw [List.foldl_cons, ih, mem_counters_recordError, List.exists_mem_cons_iff, or_assoc,
        or_left_comm]
  rw [recordAll, hfold]
  simp [new, List.map_map, Function.comp_def]

theorem map_fst_histograms_recordError (m : MetricsCollector) (call : ErrorCall) :
    (recordError m call).histograms.map (·.1) = m.histograms.map (·.1) := by
  rw [recordError]
  cases call.recoveryDurationMs with
  | none => rfl
  | some duration =>
    show List.map _ (observeHistogram _ _ _ _ _).histograms = _
    rw [observeHistogram]
    cases hlookup : ((m.incrementCounter errorsTotal (.number 1)
        (errorLabels call.service call.errorType) call.now).1.incrementCounter errorRecoveryTotal
          (.number 1) (errorLabels call.service call.errorType) call.now).1.histograms.lookup
        (getMetricKey "error_recovery_duration_ms" (errorLabels call.service call.errorType)) with
    | none => rfl
    | some buckets => exact Dict.map_fst_set _ (Dict.lookup_ne_none.mp (by simp [hlookup]))

theorem map_fst_histograms_recordAll :
    (recordAll calls).histograms.map (·.1) = registeredHistograms := by
  have hfold : ∀ m, (calls.foldl recordError m).histograms.map (·.1) = m.histograms.map (·.1) := by
    induction calls with
    | nil => exact fun m => rfl
    | cons call calls ih =>
      intro m
      rw [List.foldl_cons, ih, map_fst_histograms_recordError]
  rw [recordAll, hfold]
  rfl

/-- The keys of all metrics: those that are registered, and those of the calls. -/
theorem mem_metricNames {key : String} : key ∈ metricNames (recordAll calls) ↔
    key ∈ registeredCounters ++ registeredGauges ++ registeredHistograms ∨
      ∃ call ∈ calls, call.Has key := by
  rw [metricNames, map_fst_histograms_recordAll]
  simp only [List.mem_append, mem_counters_recordAll]
  rw [@or_right_comm (key ∈ registeredCounters), or_right_comm]

/-- No registered name has a label. -/
theorem not_contains_registered {name : String}
    (h : name ∈ registeredCounters ++ registeredGauges ++ registeredHistograms) :
    Text.contains ("service=" ++ service) name = false := by
  have hnone : (registeredCounters ++ registeredGauges ++ registeredHistograms).all
      (fun name => !name.toList.contains '=') = true := by decide +kernel
  have hname := List.all_eq_true.mp hnone name h
  refine decide_eq_false fun hinfix => ?_
  have hmem : '=' ∈ name.toList := hinfix.subset (by simp)
  simp [hmem] at hname

theorem after_labels (name : String) (h : name = errorsTotal ∨ name = errorRecoveryTotal)
    (rest : List Char) :
    after "error_type=".toList (name.toList ++ Char.ofNat 0x7b :: ("error_type=".toList ++ rest)) =
      some rest := by
  rcases h with rfl | rfl
  · rfl
  · rfl

/-- The type ends at its first comma, or at the comma after it. -/
theorem errorTypeOf_labelText (service errorType : String) (rest : List Char) :
    errorTypeOf (labelText service errorType ++ rest) =
      String.ofList (errorType.toList.takeWhile (· ≠ ',')) := by
  have htake : ∀ before after : List Char,
      (before ++ ',' :: after).takeWhile (· ≠ ',') = before.takeWhile (· ≠ ',') := by
    intro before after
    induction before with
    | nil => rfl
    | cons c before ih => simp only [List.cons_append, List.takeWhile_cons, ih]
  rw [errorTypeOf, if_pos (by simp [labelText]), labelText, List.append_assoc, List.cons_append,
    htake]

/-- The types that are found have no commas. -/
theorem comma_notMem_of_mem_errorTypes (h : errorType ∈ errorTypes (recordAll calls) service) :
    ',' ∉ errorType.toList := by
  simp only [errorTypes, List.mem_dedup, List.mem_filterMap, List.mem_filter, Bool.and_eq_true,
    Option.map_eq_some_iff] at h
  obtain ⟨name, ⟨hname, -, hservice⟩, rest, hafter, rfl⟩ := h
  have hcomma : ∀ service errorType, ',' ∉ (errorTypeOf
      (labelText service errorType ++ [Char.ofNat 0x7d])).toList := by
    intro service errorType hmem
    rw [errorTypeOf_labelText, String.toList_ofList] at hmem
    simpa using List.mem_takeWhile_imp hmem
  rcases mem_metricNames.mp hname with hregistered | ⟨call, -, rfl | ⟨-, rfl⟩⟩
  · rw [not_contains_registered hregistered] at hservice
    cases hservice
  · rw [ErrorCall.errorKey, toList_getMetricKey_errorLabels, after_labels _ (.inl rfl)] at hafter
    obtain rfl := Option.some.inj hafter
    exact hcomma _ _
  · rw [ErrorCall.recoveryKey, toList_getMetricKey_errorLabels, after_labels _ (.inr rfl)] at hafter
    obtain rfl := Option.some.inj hafter
    exact hcomma _ _

/-- A type without commas is found when something is counted under its key. -/
theorem mem_errorTypes {call : ErrorCall} (hcall : call ∈ calls)
    (hkey : labelText call.service call.errorType = labelText service errorType)
    (hcomma : ',' ∉ errorType.toList) : errorType ∈ errorTypes (recordAll calls) service := by
  have hname : call.errorKey.toList = errorsTotal.toList ++ Char.ofNat 0x7b ::
      ("error_type=".toList ++ (labelText service errorType ++ [Char.ofNat 0x7d])) := by
    rw [ErrorCall.errorKey, toList_getMetricKey_errorLabels, hkey]
  have htype : errorTypeOf (labelText service errorType ++ [Char.ofNat 0x7d]) = errorType := by
    rw [errorTypeOf_labelText, List.takeWhile_eq_self_iff.mpr, String.ofList_toList]
    exact fun c hc => decide_eq_true fun heq => hcomma (heq ▸ hc)
  simp only [errorTypes, List.mem_dedup, List.mem_filterMap, List.mem_filter, Bool.and_eq_true,
    Option.map_eq_some_iff]
  refine ⟨call.errorKey, ⟨mem_metricNames.mpr (.inr ⟨call, hcall, .inl rfl⟩), ?_, ?_⟩, _, ?_, htype⟩
  · rw [Text.contains, decide_eq_true_eq, hname]
    exact List.infix_append' [] _ _
  · rw [Text.contains, decide_eq_true_eq, hname]
    refine ⟨errorsTotal.toList ++ Char.ofNat 0x7b :: ("error_type=".toList ++
      (errorType.toList ++ [','])), [Char.ofNat 0x7d], ?_⟩
    simp [labelText]
  · rw [hname]
    exact after_labels _ (.inl rfl) _

/-! When the statistics add up. -/

/-- The totals are those of the calls, and so is every entry of the breakdown. -/
structure AddsUp (calls : List ErrorCall) (service : String) (stats : ErrorStats) : Prop where
  total : stats.totalErrors = calls.countP (·.service = service)
  total_eq_sum : stats.totalErrors = (stats.errorBreakdown.map (·.2.count)).sum
  count : ∀ errorType, ((stats.errorBreakdown.lookup errorType).map (·.count)).getD 0 =
    calls.countP fun call => call.service = service ∧ call.errorType = errorType
  totalRecoveries : stats.totalRecoveries = calls.countP fun call =>
    call.service = service ∧ call.recoveryDurationMs.isSome
  totalRecoveries_eq_sum :
    stats.totalRecoveries = (stats.errorBreakdown.map (·.2.recoveries)).sum
  recoveries : ∀ errorType, ((stats.errorBreakdown.lookup errorType).map (·.recoveries)).getD 0 =
    calls.countP fun call => call.service = service ∧ call.errorType = errorType ∧
      call.recoveryDurationMs.isSome

/-- A call of the service, or one of which the type and the service read, one after the other, as a
type without commas and the service. -/
def ErrorCall.Concerns (service : String) (call : ErrorCall) : Prop :=
  call.service = service ∨ ∃ errorType rest : String, ',' ∉ errorType.toList ∧
    call.errorType = errorType ++ ",service=" ++ rest ∧
    service = rest ++ ",service=" ++ call.service

/-- The key of a type without commas is also that of some calls of other services. -/
theorem labelText_eq_iff {call : ErrorCall} (hcomma : ',' ∉ errorType.toList) :
    labelText call.service call.errorType = labelText service errorType ↔
      (call.errorType = errorType ∧ call.service = service) ∨ ∃ rest : String,
        call.errorType = errorType ++ ",service=" ++ rest ∧
          service = rest ++ ",service=" ++ call.service := by
  have hservice : ',' ∉ "service=".toList := by decide
  rw [labelText, labelText, Text.join_eq_iff]
  simp only [Text.append_eq_append_cons_iff hservice, ← String.toList_inj, String.toList_append,
    List.append_cancel_left_eq]
  refine or_congr_right ?_
  constructor
  · rintro (⟨w, hw, -⟩ | ⟨w, hw, v, rfl, hv⟩)
    · exact absurd (hw ▸ List.mem_append_right _ List.mem_cons_self) hcomma
    · exact ⟨String.ofList v, by simp [hw], by simp [hv]⟩
  · rintro ⟨rest, htype, hservice⟩
    exact .inr ⟨"service=".toList ++ rest.toList, by simp [htype], rest.toList, rfl, by
      simp [hservice]⟩

/-- These are the calls of the service, and those that are counted for one of its types. -/
theorem concerns_iff {call : ErrorCall} : call.Concerns service ↔ call.service = service ∨
    ∃ errorType : String, ',' ∉ errorType.toList ∧
      labelText call.service call.errorType = labelText service errorType := by
  constructor
  · rintro (h | ⟨errorType, rest, hcomma, htype, hservice⟩)
    · exact .inl h
    · exact .inr ⟨errorType, hcomma, (labelText_eq_iff hcomma).mpr (.inr ⟨rest, htype, hservice⟩)⟩
  · rintro (h | ⟨errorType, hcomma, hkey⟩)
    · exact .inl h
    · rcases (labelText_eq_iff hcomma).mp hkey with ⟨-, h⟩ | ⟨rest, htype, hservice⟩
      · exact .inl h
      · exact .inr ⟨errorType, rest, hcomma, htype, hservice⟩

theorem countP_eq_zero_of_not_concerns (h : ∀ call ∈ calls, ¬call.Concerns service)
    {p : ErrorCall → Prop} [DecidablePred p] (hp : ∀ call, p call → call.service = service) :
    (0 : ℚ) = calls.countP p := by
  rw [List.countP_eq_zero.mpr fun call hcall hpcall =>
    h call hcall (.inl (hp call (of_decide_eq_true hpcall))), Nat.cast_zero]

theorem count_eq_zero (h : ∀ call ∈ calls, ¬call.Concerns service)
    (hcomma : ',' ∉ errorType.toList) :
    breakdown (recordAll calls) service errorType = ⟨0, 0⟩ := by
  have hkey : ∀ call ∈ calls,
      labelText call.service call.errorType ≠ labelText service errorType :=
    fun call hcall heq => h call hcall (concerns_iff.mpr (.inr ⟨errorType, hcomma, heq⟩))
  have hcount := count_recordAll calls service errorType
  have hrecoveries := recoveries_recordAll calls service errorType
  rw [List.countP_eq_zero.mpr (by simpa using hkey)] at hcount
  rw [List.countP_eq_zero.mpr (by simpa using fun call hcall _ => hkey call hcall)] at hrecoveries
  rw [show breakdown (recordAll calls) service errorType = ⟨(breakdown _ _ _).count,
    (breakdown _ _ _).recoveries⟩ from rfl, hcount, hrecoveries]
  simp

/-- Every entry of the breakdown is empty. -/
theorem eq_zero_of_mem_errorBreakdown (h : ∀ call ∈ calls, ¬call.Concerns service)
    {entry : String × Breakdown}
    (hentry : entry ∈ (getErrorStats (recordAll calls) service).errorBreakdown) :
    entry.2 = ⟨0, 0⟩ := by
  obtain ⟨errorType, hmem, rfl⟩ := List.mem_map.mp hentry
  exact count_eq_zero h (comma_notMem_of_mem_errorTypes hmem)

theorem addsUp_of_not_concerns (h : ∀ call ∈ calls, ¬call.Concerns service) :
    AddsUp calls service (getErrorStats (recordAll calls) service) := by
  have hsum : ∀ f : Breakdown → ℚ, f ⟨0, 0⟩ = 0 →
      ((getErrorStats (recordAll calls) service).errorBreakdown.map fun e => f e.2).sum = 0 := by
    intro f hf
    refine List.sum_eq_zero fun x hx => ?_
    obtain ⟨entry, hentry, rfl⟩ := List.mem_map.mp hx
    rw [eq_zero_of_mem_errorBreakdown h hentry, hf]
  have hlookup : ∀ (f : Breakdown → ℚ) (errorType : String), f ⟨0, 0⟩ = 0 →
      (((getErrorStats (recordAll calls) service).errorBreakdown.lookup errorType).map f).getD 0 =
        0 := by
    intro f errorType hf
    cases hfound : (getErrorStats (recordAll calls) service).errorBreakdown.lookup errorType with
    | none => rfl
    | some found =>
      have hzero : found = ⟨0, 0⟩ :=
        eq_zero_of_mem_errorBreakdown h (Dict.mem_of_lookup hfound)
      rw [Option.map_some, Option.getD_some, hzero, hf]
  have htotal := totalErrors_recordAll calls service
  have hrecoveries := totalRecoveries_recordAll calls service
  exact {
    total := htotal.trans (countP_eq_zero_of_not_concerns h fun _ h => h)
    total_eq_sum := htotal.trans (hsum (·.count) rfl).symm
    count := fun errorType => (hlookup (·.count) errorType rfl).trans
      (countP_eq_zero_of_not_concerns h fun _ h => h.1)
    totalRecoveries := hrecoveries.trans (countP_eq_zero_of_not_concerns h fun _ h => h.1)
    totalRecoveries_eq_sum := hrecoveries.trans (hsum (·.recoveries) rfl).symm
    recoveries := fun errorType => (hlookup (·.recoveries) errorType rfl).trans
      (countP_eq_zero_of_not_concerns h fun _ h => h.1) }

/-- A call that is counted for a type shows in the breakdown, and never in the total. -/
theorem AddsUp.not_concerns {call : ErrorCall}
    (h : AddsUp calls service (getErrorStats (recordAll calls) service)) (hcall : call ∈ calls) :
    ¬call.Concerns service := by
  have htotal := h.total
  have hsum := h.total_eq_sum
  rw [totalErrors_recordAll] at htotal hsum
  intro hconcerns
  rcases concerns_iff.mp hconcerns with hservice | ⟨errorType, hcomma, hkey⟩
  · have hpos : 0 < calls.countP (·.service = service) :=
      List.countP_pos_iff.mpr ⟨call, hcall, decide_eq_true hservice⟩
    exact absurd htotal (by exact_mod_cast hpos.ne)
  · have hcount : 0 < (breakdown (recordAll calls) service errorType).count := by
      rw [count_recordAll]
      exact_mod_cast List.countP_pos_iff.mpr ⟨call, hcall, decide_eq_true hkey⟩
    have hmem : (breakdown (recordAll calls) service errorType).count ∈
        (getErrorStats (recordAll calls) service).errorBreakdown.map (·.2.count) := by
      refine List.mem_map.mpr ⟨(errorType, _), List.mem_map.mpr ⟨errorType, ?_, rfl⟩, rfl⟩
      exact mem_errorTypes hcall hkey hcomma
    have hnonneg : ∀ x ∈ (getErrorStats (recordAll calls) service).errorBreakdown.map
        (·.2.count), 0 ≤ x := by
      intro x hx
      obtain ⟨entry, hentry, rfl⟩ := List.mem_map.mp hx
      obtain ⟨errorType, -, rfl⟩ := List.mem_map.mp hentry
      rw [count_recordAll]
      exact Nat.cast_nonneg _
    have hle := List.single_le_sum hnonneg _ hmem
    rw [← hsum] at hle
    exact absurd hcount (not_lt.mpr hle)

/-- The statistics of a service add up exactly when no call concerns it. -/
theorem addsUp_iff (calls : List ErrorCall) (service : String) :
    AddsUp calls service (getErrorStats (recordAll calls) service) ↔
      ∀ call ∈ calls, ¬call.Concerns service :=
  ⟨fun h _ hcall => h.not_concerns hcall, addsUp_of_not_concerns⟩

/-- One error of a service is in its breakdown, and not in its total. -/
theorem addsUp_counterexample :
    getErrorStats (recordAll [⟨"svc", "timeout", none, 0⟩]) "svc" =
        ⟨0, 0, ⟨0, []⟩, [("timeout", ⟨1, 0⟩)]⟩ ∧
      ¬AddsUp [⟨"svc", "timeout", none, 0⟩] "svc"
        (getErrorStats (recordAll [⟨"svc", "timeout", none, 0⟩]) "svc") := by
  have hstats : getErrorStats (recordAll [⟨"svc", "timeout", none, 0⟩]) "svc" =
      ⟨0, 0, ⟨0, []⟩, [("timeout", ⟨1, 0⟩)]⟩ := by decide +kernel
  refine ⟨hstats, fun h => ?_⟩
  have htotal := h.total
  rw [hstats] at htotal
  simp at htotal

end Marty.Resilience.ErrorMetrics
