import Mathlib.Algebra.BigOperators.Group.List.Defs
import Mathlib.Algebra.Order.Field.Rat
import Mathlib.Data.List.Sort
import Marty.Lib.Datetime
import Marty.Lib.Dict
import Marty.Lib.Filter

/-! `KeyUsageAnomalyMonitor`: the pattern of a key is learned from the events in the learning
window, and the events of the last 24 hours are held against it. -/

namespace Marty.Security.KeyAnomaly

open Lib Lib.Datetime

inductive KeyOperation
  | sign | encrypt | decrypt | verify | keyExchange | derive | generate | import_ | export_ | delete
  | activate | deactivate
  deriving DecidableEq

inductive AnomalyType
  | unusualFrequency | timeAnomaly | locationAnomaly | operationAnomaly | volumeSpike
  | unauthorizedAccess | failedOperations | expiredKeyUsage | revokedKeyUsage | patternDeviation
  deriving DecidableEq

def AnomalyType.value : AnomalyType → String
  | .unusualFrequency => "unusual_frequency"
  | .timeAnomaly => "time_anomaly"
  | .locationAnomaly => "location_anomaly"
  | .operationAnomaly => "operation_anomaly"
  | .volumeSpike => "volume_spike"
  | .unauthorizedAccess => "unauthorized_access"
  | .failedOperations => "failed_operations"
  | .expiredKeyUsage => "expired_key_usage"
  | .revokedKeyUsage => "revoked_key_usage"
  | .patternDeviation => "pattern_deviation"

inductive AnomalySeverity
  | low | medium | high | critical
  deriving DecidableEq

structure KeyUsageEvent where
  eventId : String
  timestamp : Stamp
  keyId : String
  operation : KeyOperation
  userId : String
  sourceIp : String
  success : Bool := true
  deriving DecidableEq

structure KeyInfo where
  keyId : String
  expiresAt : Option Stamp := none
  isRevoked : Bool := false
  revokedAt : Option Stamp := none
  allowedOperations : List KeyOperation := []
  allowedUsers : List String := []

/-- The statistics of the counts per day or per hour; the counts have a minimum and a maximum. -/
structure UsageStats where
  mean : ℚ
  std : ℚ
  min : Nat
  max : Nat

structure UsagePattern where
  keyId : String
  dailyUsageStats : Option UsageStats := none
  hourlyUsageStats : Option UsageStats := none
  commonOperations : List KeyOperation := []
  commonUsers : List String := []
  commonIpRanges : List String := []
  commonTimeRanges : List (Int × Int) := []
  lastUpdated : Time

structure KeyAnomalyAlert where
  alertId : String
  keyId : String
  anomalyType : AnomalyType
  severity : AnomalySeverity
  description : String
  detectedAt : Time
  eventsInvolved : List KeyUsageEvent
  confidenceScore : ℚ
  recommendedActions : List String

/-- `statistics.stdev`, the first half of a SHA-256 hex digest, and the formats `.1f` and `.1%`. -/
structure Library where
  stdev : List Nat → ℚ
  digest : String → String
  fixed : ℚ → String
  percent : ℚ → String

/-- `KeyUsageCollector.get_events_for_key` with both ends given, which are aware: it raises when an
event of the key is not. -/
def getEventsForKey (events : List KeyUsageEvent) (keyId : String) (start stop : Time) :
    Option (List KeyUsageEvent) :=
  (filter? (fun e => (e.timestamp.lt? (.utc start)).map (!·))
    (events.filter (·.keyId = keyId))).bind
      (filter? fun e => (Stamp.lt? (.utc stop) e.timestamp).map (!·))

/-- The network of an address with three parts or more. -/
def ipNetwork (sourceIp : String) : Option String :=
  let parts := (sourceIp.toList.splitOn '.').map String.ofList
  if parts.length ≥ 3 then some (".".intercalate (parts.take 3) ++ ".0") else none

/-- The values of a dictionary of counts, in the order in which its keys came. -/
def countValues {κ : Type} [DecidableEq κ] (keys : List κ) : List Nat :=
  keys.eraseDups.map (keys.count ·)

def usageStats (lib : Library) (values : List Nat) : UsageStats where
  mean := values.sum / values.length
  std := if values.length > 1 then lib.stdev values else 0
  min := values.min?.getD 0
  max := values.max?.getD 0

/-- The loop of `_group_consecutive_hours`, inside the range from `start` to `stop`. -/
def groupFrom (start stop : Int) : List Int → List (Int × Int)
  | [] => [(start, stop)]
  | hour :: hours =>
    if hour = stop + 1 then groupFrom start hour hours
    else (start, stop) :: groupFrom hour hour hours

def groupConsecutiveHours (hours : List Int) : List (Int × Int) :=
  match hours.insertionSort (· ≤ ·) with
  | [] => []
  | hour :: hours => groupFrom hour hour hours

def activeHours (events : List KeyUsageEvent) : List Int :=
  ((List.range 24).map Int.ofNat).filter fun hour => (events.map (·.timestamp.hour)).count hour > 0

/-- What `update_pattern` makes of some events, of which there are any. -/
def UsagePattern.learn (lib : Library) (pattern : UsagePattern) (events : List KeyUsageEvent)
    (now : Time) : UsagePattern :=
  { pattern with
    dailyUsageStats := some (usageStats lib (countValues (events.map (·.timestamp.date))))
    hourlyUsageStats := some (usageStats lib (countValues (events.map (·.timestamp.hour))))
    commonOperations := events.map (·.operation)
    commonUsers := events.map (·.userId)
    commonIpRanges := events.filterMap (ipNetwork ·.sourceIp)
    commonTimeRanges :=
      if activeHours events = [] then pattern.commonTimeRanges
      else groupConsecutiveHours (activeHours events)
    lastUpdated := now }

abbrev Patterns := List (String × UsagePattern)

def updatePattern (lib : Library) (patterns : Patterns) (keyId : String)
    (events : List KeyUsageEvent) (now : Time) : Patterns :=
  if events = [] then patterns
  else
    let pattern := (patterns.lookup keyId).getD { keyId := keyId, lastUpdated := now }
    Dict.set keyId (pattern.learn lib events now) patterns

/-- What a detector has to hand: the key, the events of the last 24 hours and the time it reads. -/
structure Analysis where
  lib : Library
  keyId : String
  events : List KeyUsageEvent
  pattern : Option UsagePattern
  keyInfo : Option KeyInfo
  sensitivity : ℚ
  now : Time

namespace Analysis

variable (x : Analysis)

def generateAlertId (anomalyType : AnomalyType) : String :=
  x.lib.digest (x.keyId ++ "-" ++ anomalyType.value ++ "-" ++ toString (x.now / seconds 1))

def alert (anomalyType : AnomalyType) (severity : AnomalySeverity) (description : String)
    (events : List KeyUsageEvent) (confidenceScore : ℚ) (recommendedActions : List String) :
    KeyAnomalyAlert where
  alertId := x.generateAlertId anomalyType
  keyId := x.keyId
  anomalyType := anomalyType
  severity := severity
  description := description
  detectedAt := x.now
  eventsInvolved := events
  confidenceScore := confidenceScore
  recommendedActions := recommendedActions

/-- The share of some of the events. -/
def share (events : List KeyUsageEvent) : ℚ := events.length / x.events.length

def detectFrequencyAnomalies : List KeyAnomalyAlert :=
  match x.pattern.bind (·.dailyUsageStats) with
  | none => []
  | some stats =>
    let today := x.events.filter (·.timestamp.date = daysOf x.now)
    let zScore := |(today.length : ℚ) - stats.mean| / stats.std
    if stats.std > 0 ∧ zScore > 3 * x.sensitivity then
      [x.alert .unusualFrequency (if zScore > 5 then .critical else .high)
        ("Unusual frequency: " ++ toString today.length ++ " operations today (expected: " ++
          x.lib.fixed stats.mean ++ "±" ++ x.lib.fixed stats.std ++ ")")
        today (min (zScore / 5) 1)
        ["Review recent key usage patterns", "Check for automated processes",
          "Verify user authorization"]]
    else []

def outsideNormalHours (ranges : List (Int × Int)) : List KeyUsageEvent :=
  x.events.filter fun e => !ranges.any fun r => r.1 ≤ e.timestamp.hour ∧ e.timestamp.hour ≤ r.2

def detectTimeAnomalies : List KeyAnomalyAlert :=
  match x.pattern with
  | none => []
  | some pattern =>
    let unusual := x.outsideNormalHours pattern.commonTimeRanges
    if pattern.commonTimeRanges ≠ [] ∧ (unusual.length : ℚ) > x.events.length * (3 / 10) then
      [x.alert .timeAnomaly .medium
        ("Key used outside normal hours: " ++ toString unusual.length ++ " events")
        unusual (x.share unusual)
        ["Verify after-hours access authorization", "Check for automated processes",
          "Review time-based access controls"]]
    else []

/-- The part of `_detect_operation_anomalies` against the allowed operations. -/
def detectUnauthorizedOperations : List KeyAnomalyAlert :=
  match x.keyInfo with
  | none => []
  | some info =>
    let unauthorized := x.events.filter (·.operation ∉ info.allowedOperations)
    if info.allowedOperations ≠ [] ∧ unauthorized ≠ [] then
      [x.alert .operationAnomaly .high
        ("Unauthorized operations detected: " ++ toString unauthorized.length ++ " events")
        unauthorized 1
        ["Review key operation permissions", "Investigate unauthorized access",
          "Consider revoking key if compromised"]]
    else []

/-- The part of `_detect_operation_anomalies` against the pattern. -/
def detectUnusualOperations : List KeyAnomalyAlert :=
  match x.pattern with
  | none => []
  | some pattern =>
    let unusual := x.events.filter (·.operation ∉ pattern.commonOperations)
    if pattern.commonOperations ≠ [] ∧ (unusual.length : ℚ) > x.events.length * (1 / 2) then
      [x.alert .patternDeviation .medium
        ("Unusual operations pattern: " ++ toString unusual.length ++ " events")
        unusual (x.share unusual)
        ["Review new operation patterns", "Verify legitimate usage",
          "Update usage patterns if appropriate"]]
    else []

def detectOperationAnomalies : List KeyAnomalyAlert :=
  x.detectUnauthorizedOperations ++ x.detectUnusualOperations

def detectUserAnomalies : List KeyAnomalyAlert :=
  match x.keyInfo with
  | none => []
  | some info =>
    let unauthorized := x.events.filter (·.userId ∉ info.allowedUsers)
    if info.allowedUsers ≠ [] ∧ unauthorized ≠ [] then
      [x.alert .unauthorizedAccess .critical
        ("Unauthorized user access: " ++ toString unauthorized.length ++ " events")
        unauthorized 1
        ["Immediately investigate unauthorized access", "Review user permissions",
          "Consider emergency key rotation", "Check for compromised accounts"]]
    else []

def fromUnusualNetworks (ranges : List String) : List KeyUsageEvent :=
  x.events.filter fun e => (ipNetwork e.sourceIp).any (· ∉ ranges)

def detectIpAnomalies : List KeyAnomalyAlert :=
  match x.pattern with
  | none => []
  | some pattern =>
    let unusual := x.fromUnusualNetworks pattern.commonIpRanges
    if pattern.commonIpRanges ≠ [] ∧ (unusual.length : ℚ) > x.events.length * (1 / 5) then
      [x.alert .locationAnomaly .medium
        ("Access from unusual IP addresses: " ++ toString unusual.length ++ " events")
        unusual (x.share unusual)
        ["Verify source IP addresses", "Check VPN and remote access logs",
          "Review network access controls", "Consider IP whitelisting"]]
    else []

def detectFailureAnomalies : List KeyAnomalyAlert :=
  let failed := x.events.filter (!·.success)
  if failed ≠ [] ∧ x.share failed > 1 / 10 then
    [x.alert .failedOperations (if x.share failed > 1 / 2 then .high else .medium)
      ("High failure rate: " ++ x.lib.percent (x.share failed) ++ " (" ++
        toString failed.length ++ " failed operations)")
      failed (x.share failed)
      ["Investigate operation failures", "Check key validity and permissions",
        "Review error messages", "Consider key health check"]]
  else []

/-- The events after a point in time, if there is one; it raises when one of them cannot be
compared with it. -/
def eventsAfter (time : Option Stamp) : Option (List KeyUsageEvent) :=
  match time with
  | none => some []
  | some time => filter? (fun e => time.lt? e.timestamp) x.events

def detectExpiredKeyUsage : Option (List KeyAnomalyAlert) :=
  match x.keyInfo with
  | none => some []
  | some info =>
    (x.eventsAfter info.expiresAt).bind fun expired =>
      (x.eventsAfter (if info.isRevoked then info.revokedAt else none)).map fun revoked =>
        (if expired ≠ [] then
          [x.alert .expiredKeyUsage .critical
            ("Expired key usage detected: " ++ toString expired.length ++ " events")
            expired 1
            ["Immediately stop using expired key", "Rotate to new key",
              "Investigate how expired key was used", "Update key management procedures"]]
        else []) ++
          if revoked ≠ [] then
            [x.alert .revokedKeyUsage .critical
              ("Revoked key usage detected: " ++ toString revoked.length ++ " events")
              revoked 1
              ["Immediately investigate revoked key usage", "Check key revocation procedures",
                "Verify key access controls", "Consider security incident response"]]
          else []

/-- Whether an event is of the current hour, which is aware. -/
def ofCurrentHour (e : KeyUsageEvent) : Option Bool :=
  let currentHour := x.now - x.now % hours 1
  (e.timestamp.lt? (.utc currentHour)).bind fun before =>
    if before then some false else e.timestamp.lt? (.utc (currentHour + hours 1))

def detectVolumeSpikes : Option (List KeyAnomalyAlert) :=
  match x.pattern.bind (·.hourlyUsageStats) with
  | none => some []
  | some stats =>
    (filter? x.ofCurrentHour x.events).map fun current =>
      let zScore := ((current.length : ℚ) - stats.mean) / stats.std
      if stats.std > 0 ∧ zScore > 4 * x.sensitivity then
        [x.alert .volumeSpike .high
          ("Volume spike detected: " ++ toString current.length ++
            " operations this hour (expected: " ++ x.lib.fixed stats.mean ++ ")")
          current (min (zScore / 6) 1)
          ["Investigate sudden increase in key usage", "Check for bulk operations or attacks",
            "Review system logs for anomalies", "Consider rate limiting"]]
      else []

def minEventsForDetection : Nat := 10

def detectAnomalies : Option (List KeyAnomalyAlert) :=
  if x.events.length < minEventsForDetection then some []
  else x.detectExpiredKeyUsage.bind fun expired => x.detectVolumeSpikes.map fun spikes =>
    x.detectFrequencyAnomalies ++ x.detectTimeAnomalies ++ x.detectOperationAnomalies ++
      x.detectUserAnomalies ++ x.detectIpAnomalies ++ x.detectFailureAnomalies ++ expired ++ spikes

end Analysis

structure Monitor where
  learningWindowDays : Int := 30
  sensitivity : ℚ := 4 / 5
  events : List KeyUsageEvent := []
  keys : List (String × KeyInfo) := []
  patterns : Patterns := []
  alerts : List (String × KeyAnomalyAlert) := []

/-- An alert with a known identifier is not stored again. -/
def Monitor.process (m : Monitor) (anomalies : List KeyAnomalyAlert) : Monitor :=
  { m with alerts := anomalies.foldl (fun alerts a =>
      if (alerts.lookup a.alertId).isSome then alerts else Dict.set a.alertId a alerts) m.alerts }

/-- The body of the loop of `_run_periodic_analysis`, with the anomalies it detects.  An exception
leaves what was done before it. -/
def Monitor.analyzeKey (lib : Library) (now : Time) (clock : String → Time) (m : Monitor)
    (keyId : String) : Monitor × List KeyAnomalyAlert :=
  match getEventsForKey m.events keyId (now - hours 24) now with
  | none | some [] => (m, [])
  | some events =>
    match getEventsForKey m.events keyId (now - days m.learningWindowDays) now with
    | none => (m, [])
    | some historical =>
      let patterns := updatePattern lib m.patterns keyId historical (clock keyId)
      let m := { m with patterns := patterns }
      match Analysis.detectAnomalies ⟨lib, keyId, events, patterns.lookup keyId,
        m.keys.lookup keyId, m.sensitivity, clock keyId⟩ with
      | none => (m, [])
      | some anomalies => (m.process anomalies, anomalies)

/-- `clock` is the time that is read while a key is analysed. -/
def Monitor.analyzeNext (lib : Library) (now : Time) (clock : String → Time)
    (acc : Monitor × List KeyAnomalyAlert) (keyId : String) : Monitor × List KeyAnomalyAlert :=
  let analyzed := acc.1.analyzeKey lib now clock keyId
  (analyzed.1, acc.2 ++ analyzed.2)

def Monitor.runPeriodicAnalysis (lib : Library) (now : Time) (clock : String → Time) (m : Monitor) :
    Monitor × List KeyAnomalyAlert :=
  (m.keys.map (·.1)).foldl (Monitor.analyzeNext lib now clock) (m, [])

end Marty.Security.KeyAnomaly
