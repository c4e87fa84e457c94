import Marty.Lib.Datetime
import Marty.Lib.Dict
import Marty.Lib.Json
import Marty.Lib.Table
import Marty.Lib.Text

/-! `SecurityMonitor`: rules on audit entries, and the incidents that they make.  An incident is an
object: it is named by its number among those that have been made.  A call that waits for a lock
that nobody can release has no result. -/

namespace Marty.Security.IncidentMonitor

open Lib Lib.Datetime

inductive IncidentSeverity
  | low | medium | high | critical
  deriving DecidableEq

inductive IncidentType
  | unauthorizedAccess | bruteForceAttack | dataBreach | maliciousRequest | certificateCompromise
  | keyCompromise | serviceDisruption | configurationTampering | anomalousBehavior
  | complianceViolation
  deriving DecidableEq

inductive IncidentStatus
  | new | investigating | confirmed | responding | mitigated | resolved | falsePositive
  deriving DecidableEq

inductive AuditEvent
  | userLogin | userLogout | permissionDenied | documentCreated | documentSigned
  | documentVerified | documentRevoked | certificateIssued | certificateRevoked | keyGenerated
  | keyRotated | keyDeleted | pkdUpdate | configurationChanged | securityIncident
  | anomalyDetected
  deriving DecidableEq

def AuditEvent.value : AuditEvent → String
  | .userLogin => "user_login"
  | .userLogout => "user_logout"
  | .permissionDenied => "permission_denied"
  | .documentCreated => "document_created"
  | .documentSigned => "document_signed"
  | .documentVerified => "document_verified"
  | .documentRevoked => "document_revoked"
  | .certificateIssued => "certificate_issued"
  | .certificateRevoked => "certificate_revoked"
  | .keyGenerated => "key_generated"
  | .keyRotated => "key_rotated"
  | .keyDeleted => "key_deleted"
  | .pkdUpdate => "pkd_update"
  | .configurationChanged => "configuration_changed"
  | .securityIncident => "security_incident"
  | .anomalyDetected => "anomaly_detected"

/-- The fields of an audit entry that the monitor reads. -/
structure AuditLogEntry where
  eventId : String
  eventType : AuditEvent := .securityIncident
  userId : Option String := none
  username : Option String := none
  serviceName : Option String := none
  action : Option String := none
  result : String := "success"
  ipAddress : Option String := none
  additionalData : List (String × Json) := []
  riskLevel : String := "low"

structure SecurityIncident where
  incidentId : String
  incidentType : IncidentType
  severity : IncidentSeverity
  title : String
  description : String
  detectedAt : Time
  status : IncidentStatus := .new
  affectedServices : List String := []
  affectedUsers : List String := []
  indicators : List (String × Json) := []
  assignedTo : Option String := none
  resolutionNotes : Option String := none
  resolvedAt : Option Time := none

/-- What calling a condition does: it may use the monitor, and it returns or raises (`none`). -/
structure Outcome where
  acquires : Bool := false
  result : Option Bool

structure SecurityRule where
  ruleId : String
  name : String
  description : String
  condition : AuditLogEntry → Outcome
  incidentType : IncidentType
  severity : IncidentSeverity
  cooldownSeconds : Int := 300
  lastTriggered : Option Time := none

/-- `datetime.now()`, with `int(datetime.now().timestamp())`. -/
structure Reading where
  now : Time
  second : Int

/-- The readings of the clock that are made for one rule: for its cooldown, the identifier of its
incident, the detection, and `last_triggered`. -/
structure Readings where
  checked : Reading
  identified : Reading
  detected : Reading
  triggered : Reading

/-- `threading.Lock`, and a lock that its holder may take again. -/
inductive LockKind
  | lock | rlock
  deriving DecidableEq

/-- `locked` counts how often the lock is held. -/
structure SecurityMonitor where
  rules : List SecurityRule := []
  made : List SecurityIncident := []
  incidents : List (String × Nat) := []
  alertChannels : List String := []
  isMonitoring : Bool := false
  shutdown : Bool := false
  alerts : List (String × Nat) := []
  locked : Nat := 0

/-! The default rules. -/

def holds (p : AuditLogEntry → Bool) (entry : AuditLogEntry) : Outcome :=
  { result := some (p entry) }

def bruteForceLogin : SecurityRule where
  ruleId := "brute_force_login"
  name := "Brute Force Login Detection"
  description := "Detect multiple failed login attempts from same user/IP"
  condition := holds fun entry =>
    entry.eventType = .userLogin && entry.result = "failure" &&
      Text.contains "authentication" (entry.action.getD "")
  incidentType := .bruteForceAttack
  severity := .medium
  cooldownSeconds := 600

def unauthorizedAccess : SecurityRule where
  ruleId := "unauthorized_access"
  name := "Unauthorized Access Detection"
  description := "Detect permission denied events"
  condition := holds fun entry => entry.eventType = .permissionDenied
  incidentType := .unauthorizedAccess
  severity := .high
  cooldownSeconds := 300

def keyCompromise : SecurityRule where
  ruleId := "key_compromise"
  name := "Key Compromise Detection"
  description := "Detect suspicious key operations"
  condition := holds fun entry =>
    entry.eventType = .keyDeleted && decide (entry.riskLevel ∈ ["high", "critical"])
  incidentType := .keyCompromise
  severity := .critical
  cooldownSeconds := 0

def configTampering : SecurityRule where
  ruleId := "config_tampering"
  name := "Configuration Tampering Detection"
  description := "Detect unauthorized configuration changes"
  condition := holds fun entry =>
    entry.eventType = .configurationChanged && entry.result = "success" &&
      decide (entry.riskLevel ∈ ["medium", "high", "critical"])
  incidentType := .configurationTampering
  severity := .high
  cooldownSeconds := 300

def anomalyDetected : SecurityRule where
  ruleId := "anomaly_detected"
  name := "Anomalous Behavior Detection"
  description := "Detect flagged anomalous behavior"
  condition := holds fun entry => entry.eventType = .anomalyDetected
  incidentType := .anomalousBehavior
  severity := .medium
  cooldownSeconds := 600

/-- `SecurityMonitor()` -/
def newMonitor : SecurityMonitor where
  rules := [bruteForceLogin, unauthorizedAccess, keyCompromise, configTampering, anomalyDetected]

/-! Incidents. -/

def incidentId (second : Int) (ruleId : String) : String :=
  "INC-" ++ toString second ++ "-" ++ ruleId

def jsonOf (text : Option String) : Json := (text.map Json.str).getD .null

/-- The incident that `_create_incident` makes. -/
def newIncident (rule : SecurityRule) (entry : AuditLogEntry) (clock : Readings) :
    SecurityIncident where
  incidentId := incidentId clock.identified.second rule.ruleId
  incidentType := rule.incidentType
  severity := rule.severity
  title := rule.name ++ " - " ++ entry.eventType.value
  description := rule.description ++ ". Event: " ++ (Text.truthy entry.action).getD "unknown" ++
    " by " ++ (Text.truthy entry.username).getD "unknown user" ++ "."
  detectedAt := clock.detected.now
  affectedServices := (Text.truthy entry.serviceName).toList
  affectedUsers := (Text.truthy entry.userId).toList
  indicators := [
    ("triggering_event_id", .str entry.eventId),
    ("event_type", .str entry.eventType.value),
    ("user_id", jsonOf entry.userId),
    ("username", jsonOf entry.username),
    ("service_name", jsonOf entry.serviceName),
    ("ip_address", jsonOf entry.ipAddress),
    ("risk_level", .str entry.riskLevel),
    ("additional_data", .obj entry.additionalData)]

def SecurityRule.onCooldown (rule : SecurityRule) (now : Time) : Bool :=
  match rule.lastTriggered with
  | none => false
  | some lastTriggered =>
    0 < rule.cooldownSeconds && now - lastTriggered < seconds rule.cooldownSeconds

namespace SecurityMonitor

variable (kind : LockKind) (m : SecurityMonitor)

/-- A lock that is held and cannot be taken again is waited for without end. -/
def acquire : Option SecurityMonitor :=
  if kind = .lock ∧ 0 < m.locked then none else some { m with locked := m.locked + 1 }

def release : SecurityMonitor := { m with locked := m.locked - 1 }

/-- `with self._lock:` -/
def withLock {α : Type} (body : SecurityMonitor → Option (SecurityMonitor × α)) :
    Option (SecurityMonitor × α) :=
  (m.acquire kind).bind fun m => (body m).map fun (m, a) => (m.release, a)

def addRule (rule : SecurityRule) : Option (SecurityMonitor × Unit) :=
  m.withLock kind fun m =>
    some ({ m with rules := Table.upsert (·.ruleId) rule.ruleId rule (fun _ => rule) m.rules }, ())

def removeRule (ruleId : String) : Option (SecurityMonitor × Bool) :=
  m.withLock kind fun m =>
    some ({ m with rules := Table.delete (·.ruleId) ruleId m.rules },
      decide (ruleId ∈ m.rules.map (·.ruleId)))

def addAlertChannel (channel : String) : SecurityMonitor :=
  { m with alertChannels := m.alertChannels ++ [channel] }

def createIncident (rule : SecurityRule) (entry : AuditLogEntry) (clock : Readings) :
    Option (SecurityMonitor × Nat) :=
  let incident := newIncident rule entry clock
  let number := m.made.length
  { m with made := m.made ++ [incident] }.withLock kind fun m =>
    some ({ m with incidents := Dict.set incident.incidentId number m.incidents }, number)

/-- The body of the loop of `evaluate_event`, with the incident that is triggered.  An exception of
the condition is logged. -/
def evaluateRule (entry : AuditLogEntry) (clock : Readings) (rule : SecurityRule) :
    Option (SecurityMonitor × SecurityRule × List Nat) :=
  if rule.onCooldown clock.checked.now then some (m, rule, [])
  else
    let outcome := rule.condition entry
    if outcome.acquires ∧ (m.acquire kind).isNone then none
    else
      match outcome.result with
      | none | some false => some (m, rule, [])
      | some true =>
        (m.createIncident kind rule entry clock).map fun (m, incident) =>
          (m, { rule with lastTriggered := some clock.triggered.now }, [incident])

def evaluateRules (entry : AuditLogEntry) (clock : String → Readings) :
    SecurityMonitor → List SecurityRule → Option (SecurityMonitor × List SecurityRule × List Nat)
  | m, [] => some (m, [], [])
  | m, rule :: rules =>
    (m.evaluateRule kind entry (clock rule.ruleId) rule).bind fun (m, rule, incident) =>
      (evaluateRules entry clock m rules).map fun (m, rules, incidents) =>
        (m, rule :: rules, incident ++ incidents)

/-- A pool that is shut down takes no task; the exception is logged. -/
def sendAlerts (incident : Nat) : SecurityMonitor :=
  if m.shutdown then m
  else { m with alerts := m.alerts ++ m.alertChannels.map fun channel => (channel, incident) }

/-- `clock` gives the readings that are made for a rule. -/
def evaluateEvent (entry : AuditLogEntry) (clock : String → Readings) :
    Option (SecurityMonitor × List Nat) :=
  let evaluated := m.withLock kind fun m =>
    (evaluateRules kind entry clock m m.rules).map fun (m, rules, incidents) =>
      ({ m with rules := rules }, incidents)
  evaluated.map fun (m, incidents) => (incidents.foldl sendAlerts m, incidents)

def getIncident (incidentId : String) : Option (SecurityMonitor × Option Nat) :=
  m.withLock kind fun m => some (m, m.incidents.lookup incidentId)

/-- What `update_incident_status` makes of an incident. -/
def updated (status : IncidentStatus) (assignedTo resolutionNotes : Option String) (now : Time)
    (incident : SecurityIncident) : SecurityIncident :=
  { incident with
    status := status
    assignedTo := (Text.truthy assignedTo).or incident.assignedTo
    resolutionNotes := (Text.truthy resolutionNotes).or incident.resolutionNotes
    resolvedAt :=
      if status = .resolved ∨ status = .falsePositive then some now else incident.resolvedAt }

def updateIncidentStatus (incidentId : String) (status : IncidentStatus)
    (assignedTo resolutionNotes : Option String) (now : Time) :
    Option (SecurityMonitor × Bool) :=
  m.withLock kind fun m =>
    match m.incidents.lookup incidentId with
    | none => some (m, false)
    | some number =>
      let update := updated status assignedTo resolutionNotes now
      some ({ m with made := m.made.modify number update }, true)

def startMonitoring : SecurityMonitor := { m with isMonitoring := true }

def stopMonitoring : SecurityMonitor :=
  if m.isMonitoring then { m with isMonitoring := false, shutdown := true } else m

end SecurityMonitor

/-- The rule is off cooldown and its condition holds. -/
def due (entry : AuditLogEntry) (clock : String → Readings) (rule : SecurityRule) : Bool :=
  !rule.onCooldown (clock rule.ruleId).checked.now && (rule.condition entry).result = some true

/-! Runs. -/

inductive Call
  | addRule (rule : SecurityRule)
  | removeRule (ruleId : String)
  | addAlertChannel (channel : String)
  | evaluateEvent (entry : AuditLogEntry) (clock : String → Readings)
  | getIncident (incidentId : String)
  | updateIncidentStatus (incidentId : String) (status : IncidentStatus)
      (assignedTo resolutionNotes : Option String) (now : Time)
  | startMonitoring
  | stopMonitoring

def step (kind : LockKind) (m : SecurityMonitor) : Call → Option SecurityMonitor
  | .addRule rule => (m.addRule kind rule).map (·.1)
  | .removeRule ruleId => (m.removeRule kind ruleId).map (·.1)
  | .addAlertChannel channel => some (m.addAlertChannel channel)
  | .evaluateEvent entry clock => (m.evaluateEvent kind entry clock).map (·.1)
  | .getIncident incidentId => (m.getIncident kind incidentId).map (·.1)
  | .updateIncidentStatus incidentId status assignedTo resolutionNotes now =>
    (m.updateIncidentStatus kind incidentId status assignedTo resolutionNotes now).map (·.1)
  | .startMonitoring => some m.startMonitoring
  | .stopMonitoring => some m.stopMonitoring

end Marty.Security.IncidentMonitor
