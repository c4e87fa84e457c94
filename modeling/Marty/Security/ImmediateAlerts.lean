import Marty.Lib.Run
import Marty.Security.RealTime

/-! The alerts for single events.  An alert is held back when one of its kind is already stored,
the `seconds` attribute of whose age is below 3600. -/

namespace Marty.Security.ImmediateAlerts

open Lib Lib.Datetime Lib.Run KeyAnomaly RealTime

/-- An alert for the same key and of the same type. -/
def Similar (call : ImmediateAlert) (alert : KeyAnomalyAlert) : Prop :=
  alert.keyId = call.keyId ∧ alert.anomalyType = call.anomalyType
  deriving Decidable

def stored (m : Monitor) : List KeyAnomalyAlert := m.alerts.map (·.2)

def recentAlerts (m : Monitor) (call : ImmediateAlert) (now : Time) : List KeyAnomalyAlert :=
  (stored m).filter fun alert => Similar call alert ∧ secondsOf (now - alert.detectedAt) < 3600

def alertId (lib : Library) (call : ImmediateAlert) (now : Time) : String :=
  lib.digest (call.keyId ++ "-" ++ call.anomalyType.value ++ "-" ++ toString (now / seconds 1))

def newAlert (lib : Library) (call : ImmediateAlert) (now : Time) : KeyAnomalyAlert where
  alertId := alertId lib call now
  keyId := call.keyId
  anomalyType := call.anomalyType
  severity := call.severity
  description := call.description
  detectedAt := now
  eventsInvolved := call.events
  confidenceScore := 1
  recommendedActions :=
    ["Immediate investigation required", "Consider emergency response procedures"]

/-- A call at the time `now`, with the alert that the callbacks are given. -/
def createImmediateAlert (lib : Library) (m : Monitor) (call : ImmediateAlert) (now : Time) :
    Monitor × Option KeyAnomalyAlert :=
  if recentAlerts m call now ≠ [] then (m, none)
  else
    let alert := newAlert lib call now
    ({ m with alerts := Dict.set alert.alertId alert m.alerts }, some alert)

/-- The monitor, and the last time that was read. -/
structure Watch where
  monitor : Monitor
  clock : Time

/-- A call, or the end of the analysis of a key with the anomalies it detected. -/
inductive Label
  | immediate (call : ImmediateAlert) (now : Time)
  | analysis (anomalies : List KeyAnomalyAlert) (now : Time)

/-- Time does not go back. -/
def step (lib : Library) (s : Watch) : Label → Option Watch
  | .immediate call now =>
    if s.clock ≤ now then some ⟨(createImmediateAlert lib s.monitor call now).1, now⟩ else none
  | .analysis anomalies now =>
    if s.clock ≤ now ∧ ∀ alert ∈ anomalies, alert.detectedAt ≤ now then
      some ⟨s.monitor.process anomalies, now⟩
    else none

/-- A monitor without alerts. -/
def start (m : Monitor) (now : Time) : Watch := ⟨{ m with alerts := [] }, now⟩

/-- The last hour has an alert of the kind. -/
def Recent (m : Monitor) (call : ImmediateAlert) (now : Time) : Prop :=
  ∃ alert ∈ stored m, Similar call alert ∧ now - hours 1 < alert.detectedAt ∧
    alert.detectedAt ≤ now

/-- A call is suppressed exactly when the last hour has an alert of its kind. -/
def SuppressesRecent (lib : Library) (s : Watch) : Label → Prop
  | .immediate call now =>
    s.clock ≤ now →
      (createImmediateAlert lib s.monitor call now = (s.monitor, none) ↔ Recent s.monitor call now)
  | .analysis _ _ => True

/-- Where the last hour has no alert of the kind, none is in the first hour of a later day of its
age. -/
def NoneReturns (s : Watch) : Label → Prop
  | .immediate call now =>
    s.clock ≤ now → Recent s.monitor call now ∨
      ∀ alert ∈ stored s.monitor, Similar call alert → days 1 ≤ now - alert.detectedAt →
        hours 1 ≤ (now - alert.detectedAt) % days 1
  | .analysis _ _ => True

/-- Nothing is stored from the future. -/
def Past (s : Watch) : Prop := ∀ alert ∈ stored s.monitor, alert.detectedAt ≤ s.clock

variable {lib : Library} {m : Monitor} {s s' : Watch} {call : ImmediateAlert} {now : Time}
  {alert : KeyAnomalyAlert} {l : Label}

theorem createImmediateAlert_eq_none :
    createImmediateAlert lib m call now = (m, none) ↔
      ∃ alert ∈ stored m, Similar call alert ∧ secondsOf (now - alert.detectedAt) < 3600 := by
  unfold createImmediateAlert
  split
  case isTrue h =>
    simpa [recentAlerts] using h
  case isFalse h =>
    simpa [recentAlerts] using h

/-- The hour comes back on each day of the age. -/
theorem secondsOf_lt_hour {age : Int} (hage : 0 ≤ age) :
    secondsOf age < 3600 ↔ age < hours 1 ∨ days 1 ≤ age ∧ age % days 1 < hours 1 := by
  have hseconds : secondsOf age < 3600 ↔ age % days 1 < hours 1 :=
    Int.ediv_lt_iff_lt_mul (by decide)
  have hday : hours 1 < days 1 := by decide
  rw [hseconds]
  rcases lt_or_ge age (days 1) with h | h
  · rw [Int.emod_eq_of_lt hage h, or_iff_left fun h' => absurd h'.1 (not_le.mpr h)]
  · rw [or_iff_right (not_lt.mpr (hday.le.trans h)), and_iff_right h]

theorem suppressesRecent_iff (hpast : Past s) : SuppressesRecent lib s l ↔ NoneReturns s l := by
  cases l with
  | analysis anomalies now => exact Iff.rfl
  | immediate call now =>
    refine forall_congr' fun hclock => ?_
    rw [createImmediateAlert_eq_none]
    have hage : ∀ alert ∈ stored s.monitor, alert.detectedAt ≤ now :=
      fun alert halert => (hpast alert halert).trans hclock
    constructor
    · intro h
      refine or_iff_not_imp_left.mpr fun hrecent alert halert hsimilar hday => ?_
      by_contra hhour
      refine hrecent (h.mp ⟨alert, halert, hsimilar, ?_⟩)
      exact (secondsOf_lt_hour (Int.sub_nonneg_of_le (hage alert halert))).mpr
        (.inr ⟨hday, not_le.mp hhour⟩)
    · intro h
      constructor
      · rintro ⟨alert, halert, hsimilar, hseconds⟩
        rcases (secondsOf_lt_hour (Int.sub_nonneg_of_le (hage alert halert))).mp hseconds with
          hhour | ⟨hday, hhour⟩
        · exact ⟨alert, halert, hsimilar, sub_lt_comm.mp hhour, hage alert halert⟩
        · refine h.resolve_right fun hreturns => ?_
          exact absurd (hreturns alert halert hsimilar hday) (not_le.mpr hhour)
      · rintro ⟨alert, halert, hsimilar, hhour, hle⟩
        refine ⟨alert, halert, hsimilar, ?_⟩
        exact (secondsOf_lt_hour (Int.sub_nonneg_of_le hle)).mpr (.inl (sub_lt_comm.mp hhour))

/-! What a step stores. -/

theorem mem_stored_set {alerts : List (String × KeyAnomalyAlert)} {a : KeyAnomalyAlert}
    (h : alert ∈ (Dict.set a.alertId a alerts).map (·.2)) :
    alert = a ∨ alert ∈ alerts.map (·.2) := by
  obtain ⟨entry, hentry, rfl⟩ := List.mem_map.mp h
  rcases Dict.mem_set hentry with rfl | hentry
  · exact .inl rfl
  · exact .inr (List.mem_map_of_mem hentry)

theorem mem_stored_create (h : alert ∈ stored (createImmediateAlert lib m call now).1) :
    alert = newAlert lib call now ∨ alert ∈ stored m := by
  unfold createImmediateAlert at h
  split at h
  case isTrue => exact .inr h
  case isFalse => exact mem_stored_set h

theorem mem_stored_process {anomalies : List KeyAnomalyAlert}
    (h : alert ∈ stored (m.process anomalies)) : alert ∈ anomalies ∨ alert ∈ stored m := by
  unfold Monitor.process at h
  induction anomalies generalizing m with
  | nil => exact .inr h
  | cons a anomalies ih =>
    rw [List.foldl_cons] at h
    split at h
    case isTrue => exact (ih h).imp_left (List.mem_cons_of_mem a)
    case isFalse =>
      rcases @ih { m with alerts := Dict.set a.alertId a m.alerts } h with h | h
      · exact .inl (List.mem_cons_of_mem a h)
      · rcases mem_stored_set h with rfl | h
        · exact .inl List.mem_cons_self
        · exact .inr h

theorem past_step (hpast : Past s) (h : step lib s l = some s') : Past s' := by
  cases l with
  | immediate call now =>
    obtain ⟨hclock, h⟩ := Option.ite_none_right_eq_some.mp h
    obtain rfl := Option.some.inj h
    intro alert halert
    rcases mem_stored_create halert with rfl | halert
    · exact le_rfl
    · exact (hpast alert halert).trans hclock
  | analysis anomalies now =>
    obtain ⟨⟨hclock, hdetected⟩, h⟩ := Option.ite_none_right_eq_some.mp h
    obtain rfl := Option.some.inj h
    intro alert halert
    rcases mem_stored_process halert with halert | halert
    · exact hdetected alert halert
    · exact (hpast alert halert).trans hclock

/-- In a run from a monitor without alerts, each call is suppressed as it should be exactly when no
alert comes back on a later day. -/
theorem suppression_window_iff (lib : Library) (m : Monitor) (now : Time) (ls : List Label) :
    Guarded (step lib) (SuppressesRecent lib) (start m now) ls ↔
      Guarded (step lib) NoneReturns (start m now) ls :=
  guarded_congr (I := Past) (fun _ _ _ => past_step) (fun _ _ => suppressesRecent_iff)
    (List.forall_mem_nil _)

/-- A use of a key that has expired. -/
def expiredUse : ImmediateAlert where
  keyId := "k"
  anomalyType := .expiredKeyUsage
  severity := .critical
  description := "Expired key usage detected immediately"
  events := []

def plain : Library := ⟨fun _ => 0, id, fun _ => "", fun _ => ""⟩

/-- The alert of a day ago holds the new one back. -/
theorem day_old_suppresses : ¬ Guarded (step plain) (SuppressesRecent plain) (start {} 0)
    [.immediate expiredUse 0, .immediate expiredUse (days 1)] := by
  intro h
  obtain ⟨alert, halert, -, hrecent, -⟩ := ((h.tail rfl).head (by decide)).mp rfl
  obtain rfl := List.mem_singleton.mp halert
  exact absurd hrecent (by decide)

end Marty.Security.ImmediateAlerts
