import Mathlib.Data.List.Perm.Basic
import Marty.Resilience.Metrics

/-! The histograms of `MetricsCollector`, over values that may be any float: buckets are registered
by name, counted by the key of a name and labels, and read by that key.  Sums, extremes and means
are left out. -/

namespace Marty.Resilience.Histograms

open Lib Metrics Metrics.MetricsCollector

/-- A value or a bound. -/
inductive Number
  | finite (x : ℚ)
  | infinity
  | negInfinity
  | nan
  deriving DecidableEq

/-- `x <= y` -/
def Number.le : Number → Number → Bool
  | .nan, _ | _, .nan => false
  | .negInfinity, _ | _, .infinity => true
  | .finite x, .finite y => x ≤ y
  | .infinity, _ | _, .negInfinity => false

theorem Number.le_trans {x y z : Number} (hxy : x.le y = true) (hyz : y.le z = true) :
    x.le z = true := by
  cases x <;> cases y <;> cases z <;> simp only [Number.le, decide_eq_true_eq, reduceCtorEq] at *
  exact hxy.trans hyz

theorem Number.le_infinity {x : Number} : x.le .infinity = true ↔ x ≠ .nan := by
  cases x <;> simp [Number.le]

structure Bucket where
  upperBound : Number
  count : Nat := 0
  deriving DecidableEq

def Bucket.observe (value : Number) (b : Bucket) : Bucket :=
  if value.le b.upperBound then { b with count := b.count + 1 } else b

/-- The bucket with a number for its bound. -/
def Bucket.ofMetrics (b : HistogramBucket) : Bucket :=
  ⟨(b.upperBound.map .finite).getD .infinity, b.count⟩

theorem Bucket.ofMetrics_observe (value : ℚ) (b : HistogramBucket) :
    Bucket.ofMetrics (b.observe value) = (Bucket.ofMetrics b).observe (.finite value) := by
  obtain ⟨upperBound, count⟩ := b
  cases upperBound with
  | none => rfl
  | some bound =>
    by_cases hle : value ≤ bound
    · simp [Bucket.ofMetrics, HistogramBucket.observe, Bucket.observe, Number.le, hle]
    · simp [Bucket.ofMetrics, HistogramBucket.observe, Bucket.observe, Number.le, hle]

structure Collector where
  maxHistory : Nat
  metrics : List (String × List Number) := []
  histograms : List (String × List Bucket) := []

structure Observation where
  name : String
  value : Number
  labels : Labels

structure HistogramStats where
  count : Nat
  buckets : List (Number × Nat)
  deriving DecidableEq

/-- In milliseconds. -/
def defaultLatencyBuckets : List Number :=
  [1, 2, 5, 10, 25, 50, 100, 250, 500, 1000, 2500, 5000, 10000].map .finite ++ [.infinity]

namespace Collector

def registerHistogram (m : Collector) (name : String) (buckets : Option (List Number)) :
    Collector :=
  if (m.histograms.lookup name).isSome then m
  else
    let bucketLimits := (buckets.filter (· ≠ [])).getD defaultLatencyBuckets
    { m with
      histograms := Dict.set name (bucketLimits.map ({ upperBound := · })) m.histograms }

def registerAll (m : Collector) (names : List (String × Option (List Number))) : Collector :=
  names.foldl (fun m entry => m.registerHistogram entry.1 entry.2) m

/-- A new collector, with the standard histograms. -/
def new (maxHistory : Nat) : Collector :=
  registerAll { maxHistory } [("circuit_breaker_request_duration_ms", none),
    ("retry_delay_ms", none), ("retry_total_duration_ms", none),
    ("degradation_response_time_ms", none), ("error_recovery_duration_ms", none)]

def appendMetric (m : Collector) (key : String) (value : Number) : Collector :=
  let values := (m.metrics.lookup key).getD [] ++ [value]
  { m with metrics := Dict.set key (values.drop (values.length - m.maxHistory)) m.metrics }

def observeHistogram (m : Collector) (o : Observation) : Collector :=
  let key := getMetricKey o.name o.labels
  let m := match m.histograms.lookup key with
    | none => m
    | some buckets =>
      { m with
        histograms := Dict.set key (buckets.map (Bucket.observe o.value)) m.histograms }
  m.appendMetric key o.value

def observeAll (m : Collector) (observations : List Observation) : Collector :=
  observations.foldl observeHistogram m

def getHistogramStats (m : Collector) (name : String) (labels : Labels) : HistogramStats :=
  let key := getMetricKey name labels
  match m.metrics.lookup key with
  | none | some [] => ⟨0, []⟩
  | some values =>
    ⟨values.length,
      ((m.histograms.lookup key).getD []).map fun b => (b.upperBound, b.count)⟩

/-- The histograms and the history of a collector, whose values are numbers. -/
def ofMetrics (m : MetricsCollector) : Collector where
  maxHistory := m.maxHistory
  metrics := m.metrics.map fun e => (e.1, e.2.map fun v => .finite v.value)
  histograms := m.histograms.map fun e => (e.1, e.2.map Bucket.ofMetrics)

theorem ofMetrics_appendMetric (m : MetricsCollector) (key : String) (v : MetricValue) :
    ofMetrics (m.appendMetric key v) = (ofMetrics m).appendMetric key (.finite v.value) := by
  have hvalues := Dict.lookup_map_snd (List.map fun v : MetricValue => Number.finite v.value) key
    m.metrics
  have hset := Dict.map_snd_set (List.map fun v : MetricValue => Number.finite v.value) key
    (((m.metrics.lookup key).getD [] ++ [v]).drop
      (((m.metrics.lookup key).getD [] ++ [v]).length - m.maxHistory)) m.metrics
  rw [MetricsCollector.appendMetric, appendMetric]
  simp only [ofMetrics, hvalues, hset]
  cases m.metrics.lookup key <;> simp [List.map_drop]

theorem ofMetrics_observeHistogram (m : MetricsCollector) (name : String) (value : ℚ)
    (labels : Labels) (now : ℚ) : ofMetrics (m.observeHistogram name value labels now) =
      (ofMetrics m).observeHistogram ⟨name, .finite value, labels⟩ := by
  have hlookup : (ofMetrics m).histograms.lookup (getMetricKey name labels) =
      (m.histograms.lookup (getMetricKey name labels)).map (List.map Bucket.ofMetrics) :=
    Dict.lookup_map_snd _ _ _
  rw [MetricsCollector.observeHistogram, ofMetrics_appendMetric, observeHistogram]
  simp only [hlookup]
  cases m.histograms.lookup (getMetricKey name labels) with
  | none => rfl
  | some buckets =>
    have hbuckets : (buckets.map (HistogramBucket.observe value)).map Bucket.ofMetrics =
        (buckets.map Bucket.ofMetrics).map (Bucket.observe (.finite value)) := by
      rw [List.map_map, List.map_map]
      exact List.map_congr_left fun b _ => Bucket.ofMetrics_observe value b
    have hset := Dict.map_snd_set (List.map Bucket.ofMetrics) (getMetricKey name labels)
      (buckets.map (HistogramBucket.observe value)) m.histograms
    rw [hbuckets] at hset
    simp only [ofMetrics, hset, Option.map_some]

end Collector

open Collector

/-- The key that an observation is counted under. -/
def Observation.key (o : Observation) : String := getMetricKey o.name o.labels

/-- An observation of the name with these labels, in any order. -/
def Observation.Of (name : String) (labels : Labels) (o : Observation) : Prop :=
  o.name = name ∧ o.labels.Perm labels

instance (name : String) (labels : Labels) (o : Observation) : Decidable (o.Of name labels) :=
  inferInstanceAs (Decidable (_ ∧ _))

theorem getMetricKey_perm {labels labels' : Labels} (name : String) (h : labels.Perm labels') :
    getMetricKey name labels = getMetricKey name labels' := by
  have hsort : labels.insertionSort (fun a b => toLex a ≤ toLex b) =
      labels'.insertionSort fun a b => toLex a ≤ toLex b := by
    apply List.Perm.eq_of_pairwise _ (List.pairwise_insertionSort _ labels)
      (List.pairwise_insertionSort _ labels')
    · exact ((List.perm_insertionSort _ labels).trans h).trans
        (List.perm_insertionSort _ labels').symm
    · intro a b _ _ hab hba
      exact toLex.injective (le_antisymm hab hba)
  have hnil : labels = [] ↔ labels' = [] := by
    rw [← List.length_eq_zero_iff, ← List.length_eq_zero_iff, h.length_eq]
  rw [getMetricKey, getMetricKey, hsort]
  by_cases hempty : labels' = []
  · rw [if_pos hempty, if_pos (hnil.mpr hempty)]
  · rw [if_neg hempty, if_neg fun h => hempty (hnil.mp h)]

theorem Observation.Of.key {name : String} {labels : Labels} {o : Observation}
    (h : o.Of name labels) : o.key = getMetricKey name labels := by
  obtain ⟨rfl, hlabels⟩ := h
  exact getMetricKey_perm o.name hlabels

/-- A bucket after observations, of which those with a key are counted. -/
def Bucket.after (observations : List Observation) (key : String) (b : Bucket) : Bucket :=
  { b with
    count := b.count + observations.countP fun o => o.key = key ∧ o.value.le b.upperBound }

namespace Collector

theorem maxHistory_observeHistogram (m : Collector) (o : Observation) :
    (m.observeHistogram o).maxHistory = m.maxHistory := by
  rw [observeHistogram]
  split <;> rfl

theorem lookup_histograms_observeHistogram (m : Collector) (o : Observation) (key : String) :
    (m.observeHistogram o).histograms.lookup key =
      if o.key = key then (m.histograms.lookup key).map (·.map (Bucket.observe o.value))
      else m.histograms.lookup key := by
  rw [observeHistogram, ← Observation.key]
  by_cases hkey : o.key = key
  · subst hkey
    rw [if_pos rfl]
    cases hlookup : m.histograms.lookup o.key with
    | none => exact hlookup
    | some buckets => exact Dict.lookup_set_self o.key _ m.histograms
  · rw [if_neg hkey]
    cases m.histograms.lookup o.key with
    | none => rfl
    | some buckets => exact Dict.lookup_set_of_ne (Ne.symm hkey) _ m.histograms

theorem lookup_histograms_observeAll (m : Collector) (observations : List Observation)
    (key : String) : (m.observeAll observations).histograms.lookup key =
      (m.histograms.lookup key).map (·.map (Bucket.after observations key)) := by
  induction observations generalizing m with
  | nil =>
    have hafter : Bucket.after [] key = id := rfl
    simp [observeAll, hafter]
  | cons o observations ih =>
    have hrest : (m.observeAll (o :: observations)).histograms.lookup key =
        ((m.observeHistogram o).observeAll observations).histograms.lookup key := rfl
    rw [hrest, ih, lookup_histograms_observeHistogram]
    by_cases hkey : o.key = key
    · rw [if_pos hkey, Option.map_map]
      congr 1
      funext buckets
      rw [Function.comp, List.map_map]
      congr 1
      funext b
      by_cases hle : o.value.le b.upperBound = true
      · simp [Bucket.after, Bucket.observe, hkey, hle]
        omega
      · simp [Bucket.after, Bucket.observe, hkey, hle]
    · rw [if_neg hkey]
      congr 1
      funext buckets
      congr 1
      funext b
      simp [Bucket.after, hkey]

/-- The history under a key. -/
def values (m : Collector) (key : String) : List Number := (m.metrics.lookup key).getD []

theorem values_observeHistogram (m : Collector) (o : Observation) (key : String) :
    (m.observeHistogram o).values key =
      if o.key = key then
        (m.values key ++ [o.value]).drop ((m.values key ++ [o.value]).length - m.maxHistory)
      else m.values key := by
  rw [observeHistogram, ← Observation.key]
  by_cases hkey : o.key = key
  · subst hkey
    rw [if_pos rfl]
    cases m.histograms.lookup o.key <;> simp [values, appendMetric, Dict.lookup_set_self]
  · rw [if_neg hkey]
    have hne : key ≠ o.key := Ne.symm hkey
    cases m.histograms.lookup o.key <;> simp [values, appendMetric, Dict.lookup_set_of_ne hne]

/-- The history keeps the last values, up to its length. -/
theorem length_values_observeAll (m : Collector) (observations : List Observation) (key : String)
    (h : (m.values key).length ≤ m.maxHistory) :
    ((m.observeAll observations).values key).length =
      min m.maxHistory ((m.values key).length + observations.countP fun o => o.key = key) := by
  induction observations generalizing m with
  | nil => exact (Nat.min_eq_right h).symm
  | cons o observations ih =>
    have hrest : (m.observeAll (o :: observations)).values key =
        ((m.observeHistogram o).observeAll observations).values key := rfl
    have hlength : ((m.observeHistogram o).values key).length =
        min m.maxHistory ((m.values key).length + if o.key = key then 1 else 0) := by
      rw [values_observeHistogram]
      by_cases hkey : o.key = key
      · rw [if_pos hkey, if_pos hkey, List.length_drop, List.length_append, List.length_singleton]
        omega
      · rw [if_neg hkey, if_neg hkey]
        omega
    rw [hrest, ih _ (by rw [hlength, maxHistory_observeHistogram]; omega), hlength,
      maxHistory_observeHistogram, List.countP_cons]
    by_cases hkey : o.key = key
    · simp only [hkey, decide_true, if_true]
      omega
    · simp only [hkey, decide_false, if_false, Bool.false_eq_true]
      omega

theorem buckets_getHistogramStats (m : Collector) (name : String) (labels : Labels) :
    (m.getHistogramStats name labels).buckets =
      if m.values (getMetricKey name labels) = [] then []
      else ((m.histograms.lookup (getMetricKey name labels)).getD []).map
        fun b => (b.upperBound, b.count) := by
  rw [getHistogramStats, values]
  cases m.metrics.lookup (getMetricKey name labels) with
  | none => rfl
  | some values => cases values <;> rfl

/-- Before the first observation: nothing is in the history or counted. -/
structure Fresh (m : Collector) : Prop where
  metrics : m.metrics = []
  bounded : ∀ key buckets, m.histograms.lookup key = some buckets → buckets ≠ []
  uncounted : ∀ key buckets, m.histograms.lookup key = some buckets → ∀ b ∈ buckets, b.count = 0

theorem bucketLimits_ne_nil (buckets : Option (List Number)) :
    (buckets.filter (· ≠ [])).getD defaultLatencyBuckets ≠ [] := by
  cases h : buckets.filter (· ≠ []) with
  | none => decide
  | some limits => exact of_decide_eq_true (Option.filter_eq_some_iff.mp h).2

theorem Fresh.registerHistogram {m : Collector} (h : m.Fresh) (name : String)
    (buckets : Option (List Number)) : (m.registerHistogram name buckets).Fresh := by
  rw [Collector.registerHistogram]
  split
  · exact h
  · refine ⟨h.metrics, fun key found hfound => ?_, fun key found hfound b hb => ?_⟩
    · by_cases hkey : key = name
      · rw [hkey, Dict.lookup_set_self] at hfound
        cases hfound
        exact fun hnil => bucketLimits_ne_nil buckets (List.map_eq_nil_iff.mp hnil)
      · rw [Dict.lookup_set_of_ne hkey] at hfound
        exact h.bounded key found hfound
    · by_cases hkey : key = name
      · rw [hkey, Dict.lookup_set_self] at hfound
        cases hfound
        obtain ⟨limit, -, rfl⟩ := List.mem_map.mp hb
        rfl
      · rw [Dict.lookup_set_of_ne hkey] at hfound
        exact h.uncounted key found hfound b hb

theorem Fresh.registerAll {m : Collector} (h : m.Fresh)
    (names : List (String × Option (List Number))) : (m.registerAll names).Fresh := by
  induction names generalizing m with
  | nil => exact h
  | cons entry names ih => exact ih (h.registerHistogram entry.1 entry.2)

theorem fresh_new (maxHistory : Nat) : (new maxHistory).Fresh := by
  have hempty : ({ maxHistory } : Collector).Fresh :=
    ⟨rfl, (fun _ _ h => by cases h), (fun _ _ h => by cases h)⟩
  exact hempty.registerAll _

/-- The counts of all observations under a key. -/
def countsOf (observations : List Observation) (p : Observation → Bool) (bounds : List Number) :
    List (Number × Nat) :=
  bounds.map fun bound => (bound, observations.countP fun o => p o ∧ o.value.le bound)

/-- There are buckets as soon as an observation under the key is kept. -/
theorem Fresh.buckets_observeAll {m : Collector} (h : m.Fresh) (observations : List Observation)
    (name : String) (labels : Labels) :
    ((m.observeAll observations).getHistogramStats name labels).buckets =
      if 0 < m.maxHistory ∧ ∃ o ∈ observations, o.key = getMetricKey name labels then
        countsOf observations (·.key = getMetricKey name labels)
          (((m.histograms.lookup (getMetricKey name labels)).getD []).map (·.upperBound))
      else [] := by
  have hnil : m.values (getMetricKey name labels) = [] := by rw [values, h.metrics]; rfl
  have hlength := m.length_values_observeAll observations (getMetricKey name labels)
    (by rw [hnil]; exact Nat.zero_le _)
  rw [hnil, List.length_nil, Nat.zero_add] at hlength
  have hkept : (0 < m.maxHistory ∧ ∃ o ∈ observations, o.key = getMetricKey name labels) ↔
      (m.observeAll observations).values (getMetricKey name labels) ≠ [] := by
    rw [← List.length_pos_iff, hlength, Nat.lt_min, List.countP_pos_iff]
    simp only [decide_eq_true_eq]
  rw [buckets_getHistogramStats, lookup_histograms_observeAll]
  by_cases hvalues : (m.observeAll observations).values (getMetricKey name labels) = []
  · rw [if_pos hvalues, if_neg fun hpos => hkept.mp hpos hvalues]
  · rw [if_neg hvalues, if_pos (hkept.mpr hvalues), countsOf]
    cases hlookup : m.histograms.lookup (getMetricKey name labels) with
    | none => rfl
    | some buckets =>
      simp only [Option.map_some, Option.getD_some, List.map_map]
      refine List.map_congr_left fun b hb => ?_
      simp [Bucket.after, h.uncounted _ buckets hlookup b hb]

end Collector

theorem map_prodMk_eq_iff {α β : Type} {f g : α → β} {l l' : List α} :
    (l.map fun a => (a, f a)) = (l'.map fun a => (a, g a)) ↔ l = l' ∧ ∀ a ∈ l, f a = g a := by
  constructor
  · intro h
    have hfst := congrArg (List.map Prod.fst) h
    simp only [List.map_map, Function.comp_def, List.map_id'] at hfst
    subst hfst
    refine ⟨rfl, fun a ha => ?_⟩
    exact congrArg Prod.snd (List.map_inj_left.mp h a ha)
  · rintro ⟨rfl, h⟩
    exact List.map_congr_left fun a ha => by rw [h a ha]

theorem countP_eq_iff_of_imp {α : Type} {p q : α → Bool} (h : ∀ a, q a = true → p a = true)
    (l : List α) : l.countP p = l.countP q ↔ ∀ a ∈ l, p a = true → q a = true := by
  induction l with
  | nil => simp
  | cons a l ih =>
    have hle : l.countP q ≤ l.countP p := List.countP_mono_left fun a _ => h a
    rw [List.countP_cons, List.countP_cons, List.forall_mem_cons, ← ih]
    cases hq : q a with
    | true => simp [h a hq]
    | false =>
      cases hp : p a with
      | true =>
        simp only [Bool.false_eq_true, if_false, if_true, forall_const, false_and, iff_false]
        omega
      | false => simp

/-- The buckets count the observations of the name with the labels: for each bound those that it
bounds, so that no greater bound has fewer and the infinite one has all. -/
def CountsLabelled (buckets : List (Number × Nat)) (observations : List Observation)
    (name : String) (labels : Labels) (bounds : List Number) : Prop :=
  buckets = countsOf observations (·.Of name labels) bounds ∧
    (∀ x ∈ buckets, ∀ y ∈ buckets, x.1.le y.1 = true → x.2 ≤ y.2) ∧
    ∀ x ∈ buckets, x.1 = .infinity → x.2 = observations.countP (·.Of name labels)

/-- The key of the name and the labels is registered itself, with the bounds of the name, some kept
observation has it, and no other observation that a bucket counts; an infinite bucket meets no
NaN. -/
def KeyRegistered (m : Collector) (observations : List Observation) (name : String)
    (labels : Labels) (bounds : List Number) : Prop :=
  (0 < m.maxHistory ∧ ∃ o ∈ observations, o.key = getMetricKey name labels) ∧
    (m.histograms.lookup (getMetricKey name labels)).map (·.map (·.upperBound)) = some bounds ∧
    (∀ o ∈ observations, o.key = getMetricKey name labels →
      (∃ bound ∈ bounds, o.value.le bound = true) → o.Of name labels) ∧
    (.infinity ∈ bounds → ∀ o ∈ observations, o.Of name labels → o.value ≠ .nan)

section

variable (observations : List Observation) (name : String) (labels : Labels)

theorem countsOf_key_eq_iff (bounds bounds' : List Number) :
    countsOf observations (·.key = getMetricKey name labels) bounds' =
        countsOf observations (·.Of name labels) bounds ↔
      bounds' = bounds ∧ ∀ o ∈ observations, o.key = getMetricKey name labels →
        (∃ bound ∈ bounds, o.value.le bound = true) → o.Of name labels := by
  rw [countsOf, countsOf, map_prodMk_eq_iff]
  refine and_congr_right fun heq => ?_
  subst heq
  have hbound : ∀ bound : Number,
      (observations.countP fun o => decide (decide (o.key = getMetricKey name labels) = true ∧
          o.value.le bound = true)) =
        (observations.countP fun o => decide (decide (o.Of name labels) = true ∧
          o.value.le bound = true)) ↔
      ∀ o ∈ observations, o.key = getMetricKey name labels → o.value.le bound = true →
        o.Of name labels := by
    intro bound
    rw [countP_eq_iff_of_imp]
    · simp only [decide_eq_true_eq, and_imp]
      refine forall₂_congr fun o _ => forall₂_congr fun _ hle => ?_
      exact and_iff_left hle
    · simp only [decide_eq_true_eq]
      exact fun o ho => ⟨ho.1.key, ho.2⟩
  simp only [hbound]
  constructor
  · rintro h o ho hkey ⟨bound, hmem, hle⟩
    exact h bound hmem o ho hkey hle
  · exact fun h bound hmem o ho hkey hle => h o ho hkey ⟨bound, hmem, hle⟩

/-- No greater bound has fewer observations. -/
theorem countsOf_mono (p : Observation → Bool) (bounds : List Number) :
    ∀ x ∈ countsOf observations p bounds, ∀ y ∈ countsOf observations p bounds,
      x.1.le y.1 = true → x.2 ≤ y.2 := by
  intro x hx y hy hle
  obtain ⟨bound, -, rfl⟩ := List.mem_map.mp hx
  obtain ⟨bound', -, rfl⟩ := List.mem_map.mp hy
  refine List.countP_mono_left fun o _ ho => ?_
  rw [decide_eq_true_eq] at ho ⊢
  exact ⟨ho.1, Number.le_trans ho.2 hle⟩

theorem countsOf_infinity_iff (bounds : List Number) :
    (∀ x ∈ countsOf observations (·.Of name labels) bounds,
        x.1 = .infinity → x.2 = observations.countP (·.Of name labels)) ↔
      (.infinity ∈ bounds → ∀ o ∈ observations, o.Of name labels → o.value ≠ .nan) := by
  have hall : (observations.countP (·.Of name labels) = observations.countP fun o =>
      decide (decide (o.Of name labels) = true ∧ o.value.le .infinity = true)) ↔
      ∀ o ∈ observations, o.Of name labels → o.value ≠ .nan := by
    rw [countP_eq_iff_of_imp]
    · simp only [decide_eq_true_eq, Number.le_infinity]
      exact forall₂_congr fun o _ => forall_congr' fun hof => and_iff_right hof
    · simp only [decide_eq_true_eq]
      exact fun o ho => ho.1
  rw [← hall]
  constructor
  · intro h hmem
    exact (h _ (List.mem_map.mpr ⟨.infinity, hmem, rfl⟩) rfl).symm
  · intro h x hx hinfinity
    obtain ⟨bound, hmem, rfl⟩ := List.mem_map.mp hx
    obtain rfl : bound = .infinity := hinfinity
    exact (h hmem).symm

theorem countsLabelled_countsOf_iff (bounds bounds' : List Number) :
    CountsLabelled (countsOf observations (·.key = getMetricKey name labels) bounds') observations
        name labels bounds ↔
      bounds' = bounds ∧
        (∀ o ∈ observations, o.key = getMetricKey name labels →
          (∃ bound ∈ bounds, o.value.le bound = true) → o.Of name labels) ∧
        (.infinity ∈ bounds → ∀ o ∈ observations, o.Of name labels → o.value ≠ .nan) := by
  rw [CountsLabelled, ← and_assoc (a := bounds' = bounds),
    ← countsOf_key_eq_iff observations name labels bounds bounds']
  refine and_congr_right fun heq => ?_
  rw [heq, ← countsOf_infinity_iff observations name labels bounds]
  exact and_iff_right (countsOf_mono observations _ bounds)

/-- Labelled buckets count exactly when their key is a registered name. -/
theorem labelled_counts_iff (maxHistory : Nat) (names : List (String × Option (List Number)))
    {buckets : List Bucket}
    (h : ((new maxHistory).registerAll names).histograms.lookup name = some buckets) :
    CountsLabelled
        ((((new maxHistory).registerAll names).observeAll observations).getHistogramStats name
          labels).buckets observations name labels (buckets.map (·.upperBound)) ↔
      KeyRegistered ((new maxHistory).registerAll names) observations name labels
        (buckets.map (·.upperBound)) := by
  have hfresh : ((new maxHistory).registerAll names).Fresh :=
    (fresh_new maxHistory).registerAll names
  generalize (new maxHistory).registerAll names = m at h hfresh
  have hbounds : buckets.map (·.upperBound) ≠ [] :=
    fun hnil => hfresh.bounded name buckets h (List.map_eq_nil_iff.mp hnil)
  have hnone : ¬ CountsLabelled [] observations name labels (buckets.map (·.upperBound)) := by
    rintro ⟨hnil, -, -⟩
    exact hbounds (List.map_eq_nil_iff.mp hnil.symm)
  rw [hfresh.buckets_observeAll, KeyRegistered]
  by_cases hkept : 0 < m.maxHistory ∧ ∃ o ∈ observations, o.key = getMetricKey name labels
  · rw [if_pos hkept, countsLabelled_countsOf_iff, and_iff_right hkept]
    refine and_congr_left fun _ => ?_
    cases hlookup : m.histograms.lookup (getMetricKey name labels) with
    | none => simpa using hbounds
    | some found => simp
  · rw [if_neg hkept]
    exact iff_of_false hnone fun hcond => hkept hcond.1

end

def delays (labels : Labels) : List Observation := [⟨"retry_delay_ms", .finite 3, labels⟩]

theorem unlabelled_delay_counted :
    CountsLabelled
      ((((new 1000).registerAll []).observeAll (delays [])).getHistogramStats "retry_delay_ms"
        []).buckets (delays []) "retry_delay_ms" [] defaultLatencyBuckets :=
  (labelled_counts_iff (delays []) "retry_delay_ms" [] 1000 []
    (show _ = some (defaultLatencyBuckets.map ({ upperBound := · })) by decide +kernel)).mpr
    (by unfold KeyRegistered; decide +kernel)

/-- The delay of an operation is kept, and in no bucket. -/
theorem labelled_delay_uncounted :
    (new 1000).histograms.lookup "retry_delay_ms" =
        some (defaultLatencyBuckets.map ({ upperBound := · })) ∧
      ¬ CountsLabelled
        (((new 1000).observeAll (delays [("operation", "sign")])).getHistogramStats
          "retry_delay_ms" [("operation", "sign")]).buckets
        (delays [("operation", "sign")]) "retry_delay_ms" [("operation", "sign")]
        defaultLatencyBuckets := by
  have hstats : ((new 1000).observeAll (delays [("operation", "sign")])).getHistogramStats
      "retry_delay_ms" [("operation", "sign")] = ⟨1, []⟩ := by decide +kernel
  refine ⟨by decide +kernel, ?_⟩
  rw [hstats]
  rintro ⟨hcounts, -, -⟩
  cases hcounts

end Marty.Resilience.Histograms
