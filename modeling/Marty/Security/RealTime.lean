import Marty.Security.Baseline

/-! The checks that are made twice: on each event as it comes, and on the events of the last 24
hours together. -/

namespace Marty.Security.RealTime

open Lib Lib.Datetime KeyAnomaly Baseline

def operationValue : KeyOperation → String
  | .sign => "sign"
  | .encrypt => "encrypt"
  | .decrypt => "decrypt"
  | .verify => "verify"
  | .keyExchange => "key_exchange"
  | .derive => "derive"
  | .generate => "generate"
  | .import_ => "import"
  | .export_ => "export"
  | .delete => "delete"
  | .activate => "activate"
  | .deactivate => "deactivate"

/-- A call of `_create_immediate_alert`. -/
structure ImmediateAlert where
  keyId : String
  anomalyType : AnomalyType
  severity : AnomalySeverity
  description : String
  events : List KeyUsageEvent
  deriving DecidableEq

/-- The calls that one event leads to, and whether all of its checks were made: an exception ends
them. -/
structure Processed where
  alerts : List ImmediateAlert := []
  completed : Bool := true
  deriving DecidableEq

/-- `time and event.timestamp > time`, which raises when the two cannot be compared. -/
def isAfter (time : Option Stamp) (event : KeyUsageEvent) : Option Bool :=
  match time with
  | none => some false
  | some time => time.lt? event.timestamp

def revokedSince (info : KeyInfo) : Option Stamp := if info.isRevoked then info.revokedAt else none

/-- The checks against the allow lists. -/
def checkAllowed (info : KeyInfo) (event : KeyUsageEvent) : List ImmediateAlert :=
  (if info.allowedUsers ≠ [] ∧ event.userId ∉ info.allowedUsers then
    [⟨event.keyId, .unauthorizedAccess, .critical, "Unauthorized user access: " ++ event.userId,
      [event]⟩]
  else []) ++
    if info.allowedOperations ≠ [] ∧ event.operation ∉ info.allowedOperations then
      [⟨event.keyId, .operationAnomaly, .high,
        "Unauthorized operation: " ++ operationValue event.operation, [event]⟩]
    else []

def checkEvent (info : KeyInfo) (event : KeyUsageEvent) : Processed :=
  match isAfter info.expiresAt event with
  | none => { completed := false }
  | some expired =>
    let alerts := if expired then
      [⟨event.keyId, .expiredKeyUsage, .critical, "Expired key usage detected immediately",
        [event]⟩]
    else []
    match isAfter (revokedSince info) event with
    | none => { alerts := alerts, completed := false }
    | some revoked => {
      alerts := alerts ++ (if revoked then
        [⟨event.keyId, .revokedKeyUsage, .critical, "Revoked key usage detected immediately",
          [event]⟩]
      else []) ++ checkAllowed info event }

def processRealTimeEvent (m : Monitor) (event : KeyUsageEvent) : Processed :=
  match m.keys.lookup event.keyId with
  | none => {}
  | some info => checkEvent info event

/-- The types of alert that are raised for single events. -/
def immediate : List AnomalyType :=
  [.expiredKeyUsage, .revokedKeyUsage, .unauthorizedAccess, .operationAnomaly]

/-- The rule that an alert of the type is about is broken by the event. -/
def Breaks (info : KeyInfo) (event : KeyUsageEvent) : AnomalyType → Prop
  | .expiredKeyUsage => isAfter info.expiresAt event = some true
  | .revokedKeyUsage => isAfter (revokedSince info) event = some true
  | .unauthorizedAccess => info.allowedUsers ≠ [] ∧ event.userId ∉ info.allowedUsers
  | .operationAnomaly => info.allowedOperations ≠ [] ∧ event.operation ∉ info.allowedOperations
  | _ => False

variable {m : Monitor} {x : Analysis} {info : KeyInfo} {event : KeyUsageEvent} {type : AnomalyType}

/-! One event. -/

theorem completed_eq_false : (checkEvent info event).completed = false ↔
    isAfter info.expiresAt event = none ∨ isAfter (revokedSince info) event = none := by
  unfold checkEvent
  cases isAfter info.expiresAt event with
  | none => simp
  | some expired => cases isAfter (revokedSince info) event <;> simp

theorem exists_checkAllowed : (∃ a ∈ checkAllowed info event, a.anomalyType = type) ↔
    type = .unauthorizedAccess ∧ Breaks info event .unauthorizedAccess ∨
      type = .operationAnomaly ∧ Breaks info event .operationAnomaly := by
  unfold checkAllowed
  simp only [List.mem_append, or_and_right, exists_or, Breaks]
  apply or_congr
  · split <;> simp [*, eq_comm]
  · split <;> simp [*, eq_comm]

/-- An event whose checks are all made leads to a call for each rule it breaks. -/
theorem exists_checkEvent (h : (checkEvent info event).completed = true) :
    (∃ a ∈ (checkEvent info event).alerts, a.anomalyType = type) ↔ Breaks info event type := by
  unfold checkEvent at h ⊢
  cases hexpired : isAfter info.expiresAt event with
  | none =>
    rw [hexpired] at h
    cases h
  | some expired =>
    cases hrevoked : isAfter (revokedSince info) event with
    | none =>
      rw [hexpired, hrevoked] at h
      cases h
    | some revoked =>
      simp only [List.mem_append, or_and_right, exists_or, exists_checkAllowed]
      cases type <;> cases expired <;> cases revoked <;> simp [Breaks, hexpired, hrevoked]

/-! A list of events. -/

theorem eventsAfter_eq (time : Option Stamp) :
    x.eventsAfter time = filter? (isAfter time) x.events := by
  cases time with
  | some time => rfl
  | none =>
    unfold Analysis.eventsAfter isAfter
    induction x.events with
    | nil => rfl
    | cons e events ih => simp [filter?, ← ih]

theorem exists_ite_alert {c : Prop} [Decidable c] {a : KeyAnomalyAlert} :
    (∃ b ∈ if c then [a] else [], b.anomalyType = type) ↔ type = a.anomalyType ∧ c := by
  split <;> simp [*, eq_comm]

theorem exists_expired {expired : List KeyAnomalyAlert} (hinfo : x.keyInfo = some info)
    (h : x.detectExpiredKeyUsage = some expired) :
    (∃ a ∈ expired, a.anomalyType = type) ↔
      type = .expiredKeyUsage ∧ (∃ e ∈ x.events, Breaks info e .expiredKeyUsage) ∨
        type = .revokedKeyUsage ∧ ∃ e ∈ x.events, Breaks info e .revokedKeyUsage := by
  simp only [Analysis.detectExpiredKeyUsage, hinfo, eventsAfter_eq] at h
  obtain ⟨late, hlate, h⟩ := Option.bind_eq_some_iff.mp h
  obtain ⟨revoked, hrevoked, rfl⟩ := Option.map_eq_some_iff.mp h
  have hexpired : late ≠ [] ↔ ∃ e ∈ x.events, Breaks info e .expiredKeyUsage :=
    filter?_ne_nil hlate
  have hrevoked : revoked ≠ [] ↔ ∃ e ∈ x.events, Breaks info e .revokedKeyUsage :=
    filter?_ne_nil hrevoked
  simp only [List.mem_append, or_and_right, exists_or, exists_ite_alert]
  rw [hexpired, hrevoked]
  rfl

/-- Some events are filtered out, and there is anything to hold them against. -/
theorem ne_nil_and_filter {α : Type} {allowed : List α} {p : KeyUsageEvent → Bool} :
    allowed ≠ [] ∧ x.events.filter p ≠ [] ↔ ∃ e ∈ x.events, allowed ≠ [] ∧ p e = true := by
  rw [ne_eq (x.events.filter p), List.filter_eq_nil_iff]
  push Not
  exact ⟨fun ⟨h, e, he, hp⟩ => ⟨e, he, h, hp⟩, fun ⟨e, he, h, hp⟩ => ⟨h, e, he, hp⟩⟩

theorem exists_unauthorized (hinfo : x.keyInfo = some info) :
    (∃ a ∈ x.detectUnauthorizedOperations, a.anomalyType = type) ↔
      type = .operationAnomaly ∧ ∃ e ∈ x.events, Breaks info e .operationAnomaly := by
  simp only [Analysis.detectUnauthorizedOperations, hinfo, exists_ite_alert, ne_nil_and_filter,
    Breaks, decide_eq_true_iff]
  rfl

theorem exists_user (hinfo : x.keyInfo = some info) :
    (∃ a ∈ x.detectUserAnomalies, a.anomalyType = type) ↔
      type = .unauthorizedAccess ∧ ∃ e ∈ x.events, Breaks info e .unauthorizedAccess := by
  simp only [Analysis.detectUserAnomalies, hinfo, exists_ite_alert, ne_nil_and_filter, Breaks,
    decide_eq_true_iff]
  rfl

theorem not_exists_of_only {l : List KeyAnomalyAlert} {other : AnomalyType} (h : Only x other l)
    (hne : type ≠ other) : ¬ ∃ a ∈ l, a.anomalyType = type :=
  fun ⟨a, ha, htype⟩ => hne (htype.symm.trans (h a ha).2)

/-- The alerts of the immediate types come from four detectors. -/
theorem exists_detectAnomalies {alerts : List KeyAnomalyAlert} (hinfo : x.keyInfo = some info)
    (hlength : Analysis.minEventsForDetection ≤ x.events.length)
    (h : x.detectAnomalies = some alerts)
    (htype : type ∈ immediate) :
    (∃ a ∈ alerts, a.anomalyType = type) ↔ ∃ e ∈ x.events, Breaks info e type := by
  rw [Analysis.detectAnomalies, if_neg (Nat.not_lt.mpr hlength)] at h
  obtain ⟨expired, hexpired, h⟩ := Option.bind_eq_some_iff.mp h
  obtain ⟨spikes, hspikes, rfl⟩ := Option.map_eq_some_iff.mp h
  have hne : ∀ other ∉ immediate, type ≠ other := fun other hother h => hother (h ▸ htype)
  simp only [Analysis.detectOperationAnomalies, List.mem_append, or_and_right, exists_or,
    not_exists_of_only only_frequency (hne .unusualFrequency (by decide)),
    not_exists_of_only only_time (hne .timeAnomaly (by decide)),
    not_exists_of_only only_unusual (hne .patternDeviation (by decide)),
    not_exists_of_only only_ip (hne .locationAnomaly (by decide)),
    not_exists_of_only only_failure (hne .failedOperations (by decide)),
    not_exists_of_only (only_volume hspikes) (hne .volumeSpike (by decide)),
    exists_unauthorized hinfo, exists_user hinfo, exists_expired hinfo hexpired]
  simp only [immediate, List.mem_cons, List.not_mem_nil, or_false] at htype
  rcases htype with rfl | rfl | rfl | rfl <;> simp

/-- The pattern has counts per hour, and an event has no time zone. -/
def HourUnknown (x : Analysis) : Prop :=
  (x.pattern.bind (·.hourlyUsageStats)).isSome ∧ ∃ e ∈ x.events, e.timestamp.utcoffset = none

theorem ofCurrentHour_eq_none :
    x.ofCurrentHour event = none ↔ event.timestamp.utcoffset = none := by
  obtain ⟨_, ⟨wall, _ | offset⟩⟩ := event
  · simp [Analysis.ofCurrentHour, Stamp.lt?, Stamp.utc]
  · simp [Analysis.ofCurrentHour, Stamp.lt?, Stamp.utc]
    grind

theorem detectVolumeSpikes_eq_none : x.detectVolumeSpikes = none ↔ HourUnknown x := by
  unfold Analysis.detectVolumeSpikes HourUnknown
  cases x.pattern.bind (·.hourlyUsageStats) with
  | none => simp
  | some stats => simp [filter?_eq_none, ofCurrentHour_eq_none]

theorem detectExpiredKeyUsage_eq_none (hinfo : x.keyInfo = some info) :
    x.detectExpiredKeyUsage = none ↔
      ∃ e ∈ x.events, (checkEvent info e).completed = false := by
  simp only [completed_eq_false, and_or_left, exists_or, ← filter?_eq_none]
  simp only [Analysis.detectExpiredKeyUsage, hinfo, eventsAfter_eq]
  cases filter? (isAfter info.expiresAt) x.events with
  | none => simp
  | some late => simp [revokedSince]

/-- The batch raises when the checks of an event do, or when an hour cannot be told. -/
theorem detectAnomalies_eq_none (hinfo : x.keyInfo = some info)
    (hlength : Analysis.minEventsForDetection ≤ x.events.length) :
    x.detectAnomalies = none ↔
      (∃ e ∈ x.events, (checkEvent info e).completed = false) ∨ HourUnknown x := by
  rw [Analysis.detectAnomalies, if_neg (Nat.not_lt.mpr hlength),
    ← detectExpiredKeyUsage_eq_none hinfo, ← detectVolumeSpikes_eq_none]
  cases x.detectExpiredKeyUsage with
  | none => simp
  | some expired => simp

/-- On `min_events_for_detection` events of a registered key or more, the batch raises when the
checks of one of the events do (or when an hour cannot be told); otherwise it reports the immediate
types for which the checks of the events request an alert.  On fewer events it reports nothing. -/
theorem batch_agrees {m : Monitor} {x : Analysis} {info : KeyInfo}
    (hregistered : m.keys.lookup x.keyId = some info) (hinfo : x.keyInfo = some info)
    (hevents : ∀ e ∈ x.events, e.keyId = x.keyId) :
    (x.events.length < Analysis.minEventsForDetection → x.detectAnomalies = some []) ∧
      (Analysis.minEventsForDetection ≤ x.events.length →
        (x.detectAnomalies = none ↔
          (∃ e ∈ x.events, (processRealTimeEvent m e).completed = false) ∨ HourUnknown x) ∧
        ∀ alerts, x.detectAnomalies = some alerts → ∀ type ∈ immediate,
          (∃ a ∈ alerts, a.anomalyType = type) ↔
            ∃ e ∈ x.events, ∃ a ∈ (processRealTimeEvent m e).alerts, a.anomalyType = type) := by
  have hprocess : ∀ e ∈ x.events, processRealTimeEvent m e = checkEvent info e := by
    intro e he
    simp only [processRealTimeEvent, hevents e he, hregistered]
  refine ⟨fun hlength => if_pos hlength, fun hlength => ⟨?_, ?_⟩⟩
  · rw [detectAnomalies_eq_none hinfo hlength]
    have hraises : (∃ e ∈ x.events, (processRealTimeEvent m e).completed = false) ↔
        ∃ e ∈ x.events, (checkEvent info e).completed = false :=
      exists_congr fun e => and_congr_right fun he => by rw [hprocess e he]
    rw [hraises]
  · intro alerts halerts type htype
    rw [exists_detectAnomalies hinfo hlength halerts htype]
    refine exists_congr fun e => and_congr_right fun he => ?_
    -- Nothing has raised, so that all checks of the event were made.
    have hcompleted : (checkEvent info e).completed = true := by
      by_contra hnot
      rw [Bool.not_eq_true] at hnot
      have hnone := (detectAnomalies_eq_none hinfo hlength).mpr (.inl ⟨e, he, hnot⟩)
      cases hnone.symm.trans halerts
    rw [hprocess e he, exists_checkEvent hcompleted]

/-- A key that `u` may use, used by `v`. -/
def foreign : KeyUsageEvent where
  eventId := "1"
  timestamp := .utc 0
  keyId := "k"
  operation := .sign
  userId := "v"
  sourceIp := "10.0.0.1"

def owned : KeyInfo where
  keyId := "k"
  allowedUsers := ["u"]

/-- The analysis of so many uses by `v`. -/
def uses (n : Nat) : Analysis where
  lib := ⟨fun _ => 0, id, fun _ => "", fun _ => ""⟩
  keyId := "k"
  events := List.replicate n foreign
  pattern := none
  keyInfo := some owned
  sensitivity := 4 / 5
  now := 0

theorem batch_agrees_ten : ∃ alerts, (uses 10).detectAnomalies = some alerts ∧
    ∃ a ∈ alerts, a.anomalyType = .unauthorizedAccess := by
  obtain ⟨hraises, hreports⟩ := (batch_agrees (m := { keys := [("k", owned)] }) (x := uses 10) rfl
    rfl (by decide)).2 (by decide)
  have hsome : (uses 10).detectAnomalies ≠ none := by
    rw [Ne, hraises]
    rintro (hprocess | ⟨hpattern, -⟩)
    · exact absurd hprocess (by decide)
    · cases hpattern
  obtain ⟨alerts, halerts⟩ := Option.ne_none_iff_exists'.mp hsome
  exact ⟨alerts, halerts, (hreports alerts halerts _ (by decide)).mpr (by decide)⟩

/-- A single use is reported at once, and not by the batch. -/
theorem single_use_unreported :
    (uses 1).detectAnomalies = some [] ∧ ∃ e ∈ (uses 1).events,
      ∃ a ∈ (processRealTimeEvent { keys := [("k", owned)] } e).alerts,
        a.anomalyType = .unauthorizedAccess :=
  ⟨rfl, by decide⟩

end Marty.Security.RealTime
