import Marty.Lib.Exceptions
import Marty.Lib.Isoformat
import Marty.Lib.JsonText
import Marty.Lib.Strip

/-! `FileAuditLogger`.  A log is the list of its lines; `json.dumps` writes no line break.  The loop
of `query_events` goes on after a `JSONDecodeError` or a `KeyError`, and any other exception ends
it with the entries found so far. -/

namespace Marty.Security.AuditLog

open Lib Lib.Exceptions Lib.JsonText Lib.Isoformat

variable {F : Type} (floats : FloatText F)

inductive AuditEvent
  | userLogin | userLogout | permissionDenied
  | documentCreated | documentSigned | documentVerified | documentRevoked
  | certificateIssued | certificateRevoked
  | keyGenerated | keyRotated | keyDeleted
  | pkdUpdate | configurationChanged | securityIncident | anomalyDetected
  deriving DecidableEq

namespace AuditEvent

def value : AuditEvent → String
  | userLogin => "user_login"
  | userLogout => "user_logout"
  | permissionDenied => "permission_denied"
  | documentCreated => "document_created"
  | documentSigned => "document_signed"
  | documentVerified => "document_verified"
  | documentRevoked => "document_revoked"
  | certificateIssued => "certificate_issued"
  | certificateRevoked => "certificate_revoked"
  | keyGenerated => "key_generated"
  | keyRotated => "key_rotated"
  | keyDeleted => "key_deleted"
  | pkdUpdate => "pkd_update"
  | configurationChanged => "configuration_changed"
  | securityIncident => "security_incident"
  | anomalyDetected => "anomaly_detected"

def all : List AuditEvent :=
  [userLogin, userLogout, permissionDenied, documentCreated, documentSigned, documentVerified,
    documentRevoked, certificateIssued, certificateRevoked, keyGenerated, keyRotated, keyDeleted,
    pkdUpdate, configurationChanged, securityIncident, anomalyDetected]

/-- The member with this value. -/
def ofValue? (s : String) : Option AuditEvent := all.find? (·.value = s)

theorem ofValue?_value (e : AuditEvent) : ofValue? e.value = some e := by
  cases e <;> rfl

end AuditEvent

/-- An entry holds whatever JSON values it was made with; only the event type and the timestamp are
converted. -/
structure AuditLogEntry (F : Type) where
  eventId : Value F
  eventType : AuditEvent := .securityIncident
  timestamp : Datetime
  userId : Value F := .null
  username : Value F := .null
  serviceName : Value F := .null
  resourceId : Value F := .null
  resourceType : Value F := .null
  action : Value F := .null
  result : Value F := .str "success"
  errorMessage : Value F := .null
  ipAddress : Value F := .null
  userAgent : Value F := .null
  additionalData : Value F := .obj []
  riskLevel : Value F := .str "low"

/-- The dictionary that `log_event` writes. -/
def AuditLogEntry.logData (e : AuditLogEntry F) : List (String × Value F) := [
  ("event_id", e.eventId),
  ("event_type", .str e.eventType.value),
  ("timestamp", .str e.timestamp.isoformat),
  ("user_id", e.userId),
  ("username", e.username),
  ("service_name", e.serviceName),
  ("resource_id", e.resourceId),
  ("resource_type", e.resourceType),
  ("action", e.action),
  ("result", e.result),
  ("error_message", e.errorMessage),
  ("ip_address", e.ipAddress),
  ("user_agent", e.userAgent),
  ("additional_data", e.additionalData),
  ("risk_level", e.riskLevel)]

def logEvent (e : AuditLogEntry F) (lines : List String) : List String :=
  lines ++ [dumps floats (.obj e.logData)]

structure Filters where
  startTime : Option Datetime := none
  endTime : Option Datetime := none
  eventTypes : Option (List AuditEvent) := none
  userId : Option String := none
  riskLevel : Option String := none

inductive Raised
  | jsonDecodeError | keyError | typeError | valueError
  deriving DecidableEq

/-- The loop goes on after the exception. -/
def Raised.caught : Raised → Bool
  | jsonDecodeError | keyError => true
  | typeError | valueError => false

/-- `data[key]` -/
def item (key : String) : Value F → Except Raised (Value F)
  | .obj entries =>
    match entries.lookup key with
    | some value => .ok value
    | none => .error .keyError
  | _ => .error .typeError

def readTimestamp : Value F → Except Raised Datetime
  | .str s =>
    match fromisoformat s with
    | some t => .ok t
    | none => .error .valueError
  | _ => .error .typeError

/-- `AuditEvent(value)` -/
def readEventType : Value F → Except Raised AuditEvent
  | .str s =>
    match AuditEvent.ofValue? s with
    | some e => .ok e
    | none => .error .valueError
  | _ => .error .valueError

def isStr (s : String) : Value F → Bool
  | .str t => t = s
  | _ => false

/-- `d < d'`, or what it raises. -/
def before (d d' : Datetime) : Except Raised Bool :=
  match d.lt? d' with
  | some b => .ok b
  | none => .error .typeError

section filters

variable (f : Filters) (eventTime : Datetime) (logData : Value F)

def passesStart : Except Raised Bool :=
  match f.startTime with
  | none => .ok true
  | some start => (before eventTime start).map (!·)

def passesEnd : Except Raised Bool :=
  match f.endTime with
  | none => .ok true
  | some stop => (before stop eventTime).map (!·)

def passesTypes : Except Raised Bool :=
  match f.eventTypes.filter (· ≠ []) with
  | none => .ok true
  | some types => (item "event_type" logData >>= readEventType).map (decide <| · ∈ types)

def passesText (wanted : Option String) (key : String) : Except Raised Bool :=
  match Text.truthy wanted with
  | none => .ok true
  | some s => (item key logData).map (isStr s)

/-- Checks one after another; the first that fails ends them. -/
def allPass : List (Except Raised Bool) → Except Raised Bool
  | [] => .ok true
  | check :: checks => check.bind fun passed => if passed then allPass checks else .ok false

def passes : Except Raised Bool :=
  allPass [passesStart f eventTime, passesEnd f eventTime, passesTypes f logData,
    passesText logData f.userId "user_id", passesText logData f.riskLevel "risk_level"]

end filters

def readEntry (eventTime : Datetime) (logData : Value F) : Except Raised (AuditLogEntry F) := do
  let eventId ← item "event_id" logData
  let eventType ← item "event_type" logData >>= readEventType
  let userId ← item "user_id" logData
  let username ← item "username" logData
  let serviceName ← item "service_name" logData
  let resourceId ← item "resource_id" logData
  let resourceType ← item "resource_type" logData
  let action ← item "action" logData
  let result ← item "result" logData
  let errorMessage ← item "error_message" logData
  let ipAddress ← item "ip_address" logData
  let userAgent ← item "user_agent" logData
  let additionalData ← item "additional_data" logData
  let riskLevel ← item "risk_level" logData
  .ok { eventId, eventType, timestamp := eventTime, userId, username, serviceName, resourceId,
        resourceType, action, result, errorMessage, ipAddress, userAgent, additionalData,
        riskLevel }

/-- The body of the loop: an entry, or none when a filter leaves the line out. -/
def readData (f : Filters) (logData : Value F) : Except Raised (Option (AuditLogEntry F)) := do
  let eventTime ← item "timestamp" logData >>= readTimestamp
  let passed ← passes f eventTime logData
  if passed then (readEntry eventTime logData).map some else .ok none

def readLine (f : Filters) (line : String) : Except Raised (Option (AuditLogEntry F)) :=
  match loads floats (Text.strip line) with
  | none => .error .jsonDecodeError
  | some logData => readData f logData

def queryEvents (f : Filters) : List String → List (AuditLogEntry F)
  | [] => []
  | line :: lines =>
    match readLine floats f line with
    | .ok (some entry) => entry :: queryEvents f lines
    | .ok none => queryEvents f lines
    | .error raised => if raised.caught then queryEvents f lines else []

/-! Lines that have been written. -/

/-- The filter times may be compared with that of the entry. -/
def Comparable (f : Filters) (e : AuditLogEntry F) : Prop :=
  (∀ start ∈ f.startTime, e.timestamp.lt? start ≠ none) ∧
    ∀ stop ∈ f.endTime, stop.lt? e.timestamp ≠ none

def conditions (f : Filters) (e : AuditLogEntry F) : List Bool := [
  f.startTime.all fun start => e.timestamp.lt? start ≠ some true,
  f.endTime.all fun stop => stop.lt? e.timestamp ≠ some true,
  f.eventTypes.all fun types => types = [] || e.eventType ∈ types,
  (Text.truthy f.userId).all fun s => isStr s e.userId,
  (Text.truthy f.riskLevel).all fun s => isStr s e.riskLevel]

def satisfies (f : Filters) (e : AuditLogEntry F) : Bool := (conditions f e).all id

/-- The data of the entry are JSON values. -/
def Serialisable (e : AuditLogEntry F) : Prop := ∀ entry ∈ e.logData, entry.2.WellFormed

section written

variable {f : Filters} {e : AuditLogEntry F}

theorem allPass_nil : allPass [] = .ok true := rfl

theorem allPass_ok (bs : List Bool) : allPass (bs.map Except.ok) = .ok (bs.all id) := by
  induction bs with
  | nil => rfl
  | cons b bs ih =>
    cases b with
    | true => exact ih
    | false => rfl

theorem before_of_ne_none {d d' : Datetime} (h : d.lt? d' ≠ none) :
    (before d d').map (!·) = .ok (decide (d.lt? d' ≠ some true)) := by
  unfold before
  cases hlt : d.lt? d' with
  | none => exact absurd hlt h
  | some b => cases b <;> rfl

theorem readTimestamp_logData (e : AuditLogEntry F) :
    (item "timestamp" (.obj e.logData) >>= readTimestamp) = .ok e.timestamp := by
  have hitem : item "timestamp" (.obj e.logData) = .ok (.str e.timestamp.isoformat) := rfl
  rw [hitem, ok_bind, readTimestamp, fromisoformat_isoformat]

theorem readEventType_logData (e : AuditLogEntry F) :
    (item "event_type" (.obj e.logData) >>= readEventType) = .ok e.eventType := by
  have hitem : item "event_type" (.obj e.logData) = .ok (.str e.eventType.value) := rfl
  rw [hitem]
  cases e.eventType <;> rfl

theorem passes_logData (h : Comparable f e) :
    passes f e.timestamp (.obj e.logData) = .ok (satisfies f e) := by
  have hstart : passesStart f e.timestamp =
      .ok (f.startTime.all fun start => e.timestamp.lt? start ≠ some true) := by
    unfold passesStart
    cases hf : f.startTime with
    | none => rfl
    | some start => exact before_of_ne_none (h.1 start hf)
  have hend : passesEnd f e.timestamp =
      .ok (f.endTime.all fun stop => stop.lt? e.timestamp ≠ some true) := by
    unfold passesEnd
    cases hf : f.endTime with
    | none => rfl
    | some stop => exact before_of_ne_none (h.2 stop hf)
  have htypes : passesTypes f (.obj e.logData) =
      .ok (f.eventTypes.all fun types => types = [] || e.eventType ∈ types) := by
    unfold passesTypes
    cases f.eventTypes with
    | none => rfl
    | some types =>
      by_cases hnil : types = []
      · subst hnil
        rfl
      · have hfilter : (some types).filter (· ≠ []) = some types := by simp [hnil]
        rw [hfilter, readEventType_logData]
        simp [hnil, Except.map]
  have htext (wanted : Option String) (key : String) (value : Value F)
      (hitem : item key (.obj e.logData) = .ok value) :
      passesText (.obj e.logData) wanted key =
        .ok ((Text.truthy wanted).all fun s => isStr s value) := by
    unfold passesText
    cases Text.truthy wanted with
    | none => rfl
    | some s => simp [hitem, Except.map]
  rw [passes, hstart, hend, htypes, htext f.userId "user_id" e.userId rfl,
    htext f.riskLevel "risk_level" e.riskLevel rfl]
  exact allPass_ok (conditions f e)

theorem readEntry_logData (e : AuditLogEntry F) :
    readEntry e.timestamp (.obj e.logData) = .ok e := by
  rw [readEntry, readEventType_logData]
  rfl

theorem readData_logData (h : Comparable f e) :
    readData f (.obj e.logData) = .ok (if satisfies f e then some e else none) := by
  rw [readData, readTimestamp_logData, ok_bind, passes_logData h, ok_bind,
    readEntry_logData]
  split <;> rfl

theorem strip_dumps (entries : List (String × Value F)) :
    Text.strip (dumps floats (.obj entries)) = dumps floats (.obj entries) := by
  rw [dumps, encode]
  exact Text.strip_eq rfl rfl

theorem readLine_logData (hserialisable : Serialisable e) (h : Comparable f e) :
    readLine floats f (dumps floats (.obj e.logData)) =
      .ok (if satisfies f e then some e else none) := by
  have hwell : (Value.obj e.logData).WellFormed :=
    ⟨by simp [AuditLogEntry.logData], Value.wellFormedEntries_iff.mpr hserialisable⟩
  rw [readLine, strip_dumps, loads_dumps hwell]
  exact readData_logData h

end written

/-! Lines from which no entry can be read. -/

section malformed

variable (f : Filters)

/-- The value is no timestamp. -/
def Undated (value : Value F) : Prop := ∀ s, value = .str s → fromisoformat s = none

/-- The dictionary has an event type, which is no member of `AuditEvent`. -/
def UnknownEvent (entries : List (String × Value F)) : Prop :=
  ∃ value, entries.lookup "event_type" = some value ∧
    ∀ s, value = .str s → AuditEvent.ofValue? s = none

/-- The dictionary has the text that is wanted, if any is. -/
def Selected (wanted : Option String) (key : String) (entries : List (String × Value F)) : Prop :=
  ∀ s ∈ Text.truthy wanted, entries.lookup key = some (.str s)

/-- What ends the reading of a log. -/
inductive Stops : Value F → Prop
  | other {logData : Value F} (hobj : ∀ entries, logData ≠ .obj entries) : Stops logData
  | undated {entries : List (String × Value F)} {value : Value F}
      (htimestamp : entries.lookup "timestamp" = some value) (hundated : Undated value) :
      Stops (.obj entries)
  | start {entries : List (String × Value F)} {s : String} {t start : Datetime}
      (htimestamp : entries.lookup "timestamp" = some (.str s)) (ht : fromisoformat s = some t)
      (hstart : f.startTime = some start) (hmixed : t.lt? start = none) : Stops (.obj entries)
  | stop {entries : List (String × Value F)} {s : String} {t stop : Datetime}
      (htimestamp : entries.lookup "timestamp" = some (.str s)) (ht : fromisoformat s = some t)
      (hstart : ∀ start ∈ f.startTime, t.lt? start = some false)
      (hstop : f.endTime = some stop) (hmixed : stop.lt? t = none) : Stops (.obj entries)
  | event {entries : List (String × Value F)} {s : String} {t : Datetime}
      (htimestamp : entries.lookup "timestamp" = some (.str s)) (ht : fromisoformat s = some t)
      (hstart : ∀ start ∈ f.startTime, t.lt? start = some false)
      (hstop : ∀ stop ∈ f.endTime, stop.lt? t = some false) (hunknown : UnknownEvent entries)
      (hasked : (∃ types ∈ f.eventTypes, types ≠ []) ∨ Selected f.userId "user_id" entries ∧
        Selected f.riskLevel "risk_level" entries ∧ entries.lookup "event_id" ≠ none) :
      Stops (.obj entries)

/-- The exception ends the loop. -/
def Breaks {α : Type} (r : Except Raised α) : Prop :=
  ∃ raised, r = .error raised ∧ raised.caught = false

section breaks

variable {f : Filters} {α β : Type} {entries : List (String × Value F)}

@[simp] theorem breaks_ok (a : α) : ¬ Breaks (.ok a) := escapes_ok a

@[simp] theorem breaks_error (raised : Raised) :
    Breaks (.error raised : Except Raised α) ↔ raised.caught = false :=
  escapes_error raised

theorem breaks_bind {r : Except Raised α} {g : α → Except Raised β} :
    Breaks (r >>= g) ↔ Breaks r ∨ ∃ a, r = .ok a ∧ Breaks (g a) :=
  escapes_bind

theorem breaks_map {r : Except Raised α} {g : α → β} : Breaks (r.map g) ↔ Breaks r := by
  cases r with
  | error raised => exact (breaks_error raised).trans (breaks_error raised).symm
  | ok a => exact iff_of_false (breaks_ok _) (breaks_ok _)

@[simp] theorem breaks_item (key : String) : ¬ Breaks (item key (.obj entries)) := by
  rw [item]
  split
  · exact breaks_ok _
  · simp [Raised.caught]

theorem item_eq_ok {key : String} {value : Value F} :
    item key (.obj entries) = .ok value ↔ entries.lookup key = some value := by
  rw [item]
  cases entries.lookup key <;> simp

/-- After a key that may be missing. -/
theorem breaks_item_bind {key : String} {g : Value F → Except Raised β} :
    Breaks (item key (.obj entries) >>= g) ↔
      ∃ value, entries.lookup key = some value ∧ Breaks (g value) := by
  simp [breaks_bind, item_eq_ok]

theorem breaks_readTimestamp {value : Value F} : Breaks (readTimestamp value) ↔ Undated value := by
  cases value with
  | str s =>
    rw [readTimestamp, Undated]
    cases h : fromisoformat s <;> simp [h, Raised.caught]
  | _ => exact iff_of_true ⟨_, rfl, rfl⟩ nofun

theorem breaks_readEventType {value : Value F} :
    Breaks (readEventType value) ↔ ∀ s, value = .str s → AuditEvent.ofValue? s = none := by
  cases value with
  | str s =>
    rw [readEventType]
    cases h : AuditEvent.ofValue? s <;> simp [h, Raised.caught]
  | _ => exact iff_of_true ⟨_, rfl, rfl⟩ nofun

theorem breaks_eventType :
    Breaks (item "event_type" (.obj entries) >>= readEventType) ↔ UnknownEvent entries := by
  rw [breaks_item_bind]
  exact exists_congr fun value => and_congr_right fun _ => breaks_readEventType

theorem breaks_checks {check : Except Raised Bool} {checks : List (Except Raised Bool)} :
    Breaks (allPass (check :: checks)) ↔
      Breaks check ∨ check = .ok true ∧ Breaks (allPass checks) := by
  have hbreaks := breaks_bind (r := check)
    (g := fun passed => if passed then allPass checks else .ok false)
  refine hbreaks.trans (or_congr_right ?_)
  constructor
  · rintro ⟨passed, hpassed, h⟩
    cases passed with
    | true => exact ⟨hpassed, h⟩
    | false => exact absurd h (breaks_ok _)
  · rintro ⟨hpassed, h⟩
    exact ⟨true, hpassed, h⟩

theorem allPass_cons {check : Except Raised Bool} {checks : List (Except Raised Bool)} :
    allPass (check :: checks) = .ok true ↔ check = .ok true ∧ allPass checks = .ok true := by
  cases check with
  | error raised => exact iff_of_false nofun (fun h => nomatch h.1)
  | ok passed =>
    cases passed with
    | true => exact (and_iff_right rfl).symm
    | false => exact iff_of_false nofun (fun h => nomatch h.1)

theorem before_false {d d' : Datetime} :
    (before d d').map (!·) = .ok true ↔ d.lt? d' = some false := by
  unfold before
  cases d.lt? d' with
  | none => exact iff_of_false nofun nofun
  | some b => cases b <;> simp [Except.map]

theorem breaks_before {d d' : Datetime} : Breaks ((before d d').map (!·)) ↔ d.lt? d' = none := by
  rw [breaks_map, before]
  cases d.lt? d' <;> simp [Raised.caught]

theorem passesStart_iff {t : Datetime} :
    passesStart f t = .ok true ↔ ∀ start ∈ f.startTime, t.lt? start = some false := by
  unfold passesStart
  cases f.startTime with
  | none => simp
  | some start => simp [before_false]

theorem breaks_passesStart {t : Datetime} :
    Breaks (passesStart f t) ↔ ∃ start, f.startTime = some start ∧ t.lt? start = none := by
  unfold passesStart
  cases f.startTime with
  | none => simp
  | some start => simp [breaks_before]

theorem passesEnd_iff {t : Datetime} :
    passesEnd f t = .ok true ↔ ∀ stop ∈ f.endTime, stop.lt? t = some false := by
  unfold passesEnd
  cases f.endTime with
  | none => simp
  | some stop => simp [before_false]

theorem breaks_passesEnd {t : Datetime} :
    Breaks (passesEnd f t) ↔ ∃ stop, f.endTime = some stop ∧ stop.lt? t = none := by
  unfold passesEnd
  cases f.endTime with
  | none => simp
  | some stop => simp [breaks_before]

theorem isStr_iff {s : String} {value : Value F} : isStr s value = true ↔ value = .str s := by
  cases value <;> simp [isStr]

theorem passesText_iff {wanted : Option String} {key : String} :
    passesText (.obj entries) wanted key = .ok true ↔ Selected wanted key entries := by
  unfold passesText Selected
  cases Text.truthy wanted with
  | none => simp
  | some s =>
    rw [item]
    cases entries.lookup key with
    | none => simp [Except.map]
    | some value => simp [Except.map, isStr_iff]

theorem breaks_passesText {wanted : Option String} {key : String} :
    ¬ Breaks (passesText (.obj entries) wanted key) := by
  unfold passesText
  cases Text.truthy wanted with
  | none => simp
  | some s => simp [breaks_map]

/-- Some event types are asked for. -/
def AsksTypes (f : Filters) : Prop := ∃ types ∈ f.eventTypes, types ≠ []

theorem asksTypes_iff : AsksTypes f ↔ f.eventTypes.filter (· ≠ []) ≠ none := by
  rw [Option.ne_none_iff_exists']
  refine exists_congr fun types => ?_
  rw [Option.filter_eq_some_iff, decide_eq_true_eq, Option.mem_def]

theorem breaks_passesTypes :
    Breaks (passesTypes f (.obj entries)) ↔ AsksTypes f ∧ UnknownEvent entries := by
  rw [asksTypes_iff, passesTypes]
  cases f.eventTypes.filter (· ≠ []) with
  | none => simp
  | some types => simp [breaks_map, breaks_eventType]

theorem passesTypes_of_not_asked (h : ¬ AsksTypes f) (logData : Value F) :
    passesTypes f logData = .ok true := by
  rw [asksTypes_iff, not_not] at h
  rw [passesTypes, h]

theorem breaks_readEntry {t : Datetime} :
    Breaks (readEntry t (.obj entries)) ↔
      entries.lookup "event_id" ≠ none ∧ UnknownEvent entries := by
  rw [readEntry, breaks_item_bind, Option.ne_none_iff_exists', ← exists_and_right]
  refine exists_congr fun eventId => and_congr_right fun _ => ?_
  rw [breaks_bind, breaks_eventType]
  refine or_iff_left ?_
  rintro ⟨eventType, -, h⟩
  simp [breaks_item_bind] at h

theorem readTimestamp_ok {t : Datetime} :
    (item "timestamp" (.obj entries) >>= readTimestamp) = .ok t ↔
      ∃ s, entries.lookup "timestamp" = some (.str s) ∧ fromisoformat s = some t := by
  simp only [bind_eq_ok, item_eq_ok]
  constructor
  · rintro ⟨value, hvalue, hread⟩
    cases value with
    | str s =>
      rw [readTimestamp] at hread
      cases ht : fromisoformat s with
      | none => simp [ht] at hread
      | some t' =>
        rw [ht] at hread
        exact ⟨s, hvalue, Except.ok.inj hread ▸ ht⟩
    | _ => cases hread
  · rintro ⟨s, hvalue, ht⟩
    exact ⟨.str s, hvalue, by rw [readTimestamp, ht]⟩

theorem breaks_timestamp :
    Breaks (item "timestamp" (.obj entries) >>= readTimestamp) ↔
      ∃ value, entries.lookup "timestamp" = some value ∧ Undated value := by
  rw [breaks_item_bind]
  exact exists_congr fun value => and_congr_right fun _ => breaks_readTimestamp

theorem passes_iff {t : Datetime} {logData : Value F} :
    passes f t logData = .ok true ↔
      passesStart f t = .ok true ∧ passesEnd f t = .ok true ∧ passesTypes f logData = .ok true ∧
        passesText logData f.userId "user_id" = .ok true ∧
        passesText logData f.riskLevel "risk_level" = .ok true := by
  simp only [passes, allPass_cons, allPass_nil, and_true]

theorem breaks_passes {t : Datetime} :
    Breaks (passes f t (.obj entries)) ↔
      Breaks (passesStart f t) ∨ passesStart f t = .ok true ∧ (Breaks (passesEnd f t) ∨
        passesEnd f t = .ok true ∧ AsksTypes f ∧ UnknownEvent entries) := by
  simp [passes, breaks_checks, breaks_passesText, breaks_passesTypes, allPass_nil]

theorem breaks_after {passed : Except Raised Bool} {t : Datetime} :
    Breaks (passed >>= fun passed =>
        if passed then (readEntry t (.obj entries)).map some else .ok none) ↔
      Breaks passed ∨ passed = .ok true ∧ entries.lookup "event_id" ≠ none ∧
        UnknownEvent entries := by
  rw [breaks_bind]
  refine or_congr_right ?_
  constructor
  · rintro ⟨passed', hpassed, h⟩
    cases passed' with
    | true => exact ⟨hpassed, breaks_readEntry.mp (breaks_map.mp h)⟩
    | false => exact absurd h (breaks_ok _)
  · rintro ⟨hpassed, h⟩
    exact ⟨true, hpassed, breaks_map.mpr (breaks_readEntry.mpr h)⟩

/-- After the timestamp the loop may end in the filters or in the entry. -/
theorem breaks_readData :
    Breaks (readData f (.obj entries)) ↔
      (∃ value, entries.lookup "timestamp" = some value ∧ Undated value) ∨
      ∃ t, (∃ s, entries.lookup "timestamp" = some (.str s) ∧ fromisoformat s = some t) ∧
        (Breaks (passes f t (.obj entries)) ∨ passes f t (.obj entries) = .ok true ∧
          entries.lookup "event_id" ≠ none ∧ UnknownEvent entries) := by
  rw [readData, breaks_bind, breaks_timestamp]
  refine or_congr_right (exists_congr fun t => ?_)
  rw [readTimestamp_ok, breaks_after]

theorem stops_of_breaks (h : Breaks (readData f (.obj entries))) : Stops f (.obj entries) := by
  rcases breaks_readData.mp h with ⟨value, htimestamp, hundated⟩ | ⟨t, ⟨s, htimestamp, ht⟩, h⟩
  · exact .undated htimestamp hundated
  · rcases h with h | ⟨h, hid, hunknown⟩
    · rcases breaks_passes.mp h with hmixed | ⟨hstart, hmixed | ⟨hend, hasked, hunknown⟩⟩
      · obtain ⟨start, hstart, hmixed⟩ := breaks_passesStart.mp hmixed
        exact .start htimestamp ht hstart hmixed
      · obtain ⟨stop, hstop, hmixed⟩ := breaks_passesEnd.mp hmixed
        exact .stop htimestamp ht (passesStart_iff.mp hstart) hstop hmixed
      · exact .event htimestamp ht (passesStart_iff.mp hstart) (passesEnd_iff.mp hend) hunknown
          (.inl hasked)
    · obtain ⟨hstart, hend, -, huser, hrisk⟩ := passes_iff.mp h
      exact .event htimestamp ht (passesStart_iff.mp hstart) (passesEnd_iff.mp hend) hunknown
        (.inr ⟨passesText_iff.mp huser, passesText_iff.mp hrisk, hid⟩)

theorem Stops.breaks {logData : Value F} (h : Stops f logData) : Breaks (readData f logData) := by
  cases h with
  | other hobj =>
    cases logData with
    | obj entries => exact absurd rfl (hobj entries)
    | _ => exact ⟨.typeError, rfl, rfl⟩
  | undated htimestamp hundated =>
    exact breaks_readData.mpr (.inl ⟨_, htimestamp, hundated⟩)
  | @start entries s t start htimestamp ht hstart hmixed =>
    have hpasses : Breaks (passes f t (.obj entries)) :=
      breaks_passes.mpr (.inl (breaks_passesStart.mpr ⟨start, hstart, hmixed⟩))
    exact breaks_readData.mpr (.inr ⟨t, ⟨s, htimestamp, ht⟩, .inl hpasses⟩)
  | @stop entries s t stop htimestamp ht hstart hstop hmixed =>
    have hend := breaks_passesEnd.mpr ⟨stop, hstop, hmixed⟩
    have hpasses : Breaks (passes f t (.obj entries)) :=
      breaks_passes.mpr (.inr ⟨passesStart_iff.mpr hstart, .inl hend⟩)
    exact breaks_readData.mpr (.inr ⟨t, ⟨s, htimestamp, ht⟩, .inl hpasses⟩)
  | @event entries s t htimestamp ht hstart hstop hunknown hasked =>
    refine breaks_readData.mpr (.inr ⟨t, ⟨s, htimestamp, ht⟩, ?_⟩)
    by_cases htypes : AsksTypes f
    · exact .inl (breaks_passes.mpr (.inr ⟨passesStart_iff.mpr hstart,
        .inr ⟨passesEnd_iff.mpr hstop, htypes, hunknown⟩⟩))
    · obtain ⟨huser, hrisk, hid⟩ := hasked.resolve_left htypes
      refine .inr ⟨passes_iff.mpr ⟨passesStart_iff.mpr hstart, passesEnd_iff.mpr hstop,
        passesTypes_of_not_asked htypes _, ?_, ?_⟩, hid, hunknown⟩
      · exact passesText_iff.mpr huser
      · exact passesText_iff.mpr hrisk

/-- A value ends the loop for one of the reasons of `Stops`. -/
theorem stops_iff {logData : Value F} : Stops f logData ↔ Breaks (readData f logData) := by
  refine ⟨Stops.breaks, fun h => ?_⟩
  cases logData with
  | obj entries => exact stops_of_breaks h
  | _ => exact .other nofun

end breaks

/-- No entry can be read from the line. -/
def Malformed (text : String) : Prop := ∀ e, readLine floats {} text ≠ .ok (some e)

/-- The line ends the reading of the log. -/
def StopsLine (text : String) : Prop :=
  ∃ logData, loads floats (Text.strip text) = some logData ∧ Stops f logData

variable {floats f} {text : String}

theorem breaks_readLine : Breaks (readLine floats f text) ↔ StopsLine floats f text := by
  rw [readLine, StopsLine]
  cases loads floats (Text.strip text) with
  | none => simp [Raised.caught]
  | some logData => simp [stops_iff]

/-- A filter only leaves lines out. -/
theorem readLine_unfiltered {e : AuditLogEntry F} (h : readLine floats f text = .ok (some e)) :
    readLine floats {} text = .ok (some e) := by
  rw [readLine] at h ⊢
  cases hload : loads floats (Text.strip text) with
  | none => simp [hload] at h
  | some logData =>
    rw [hload] at h
    obtain ⟨t, ht, h⟩ := bind_eq_ok.mp h
    obtain ⟨passed, -, h⟩ := bind_eq_ok.mp h
    show readData {} logData = _
    rw [readData, ht, ok_bind]
    cases passed with
    | true => exact h
    | false => cases h

/-- A malformed line is skipped, or it ends the loop. -/
theorem queryEvents_malformed (h : Malformed floats text) (lines : List String) :
    (¬ StopsLine floats f text →
      queryEvents floats f (text :: lines) = queryEvents floats f lines) ∧
    (StopsLine floats f text → queryEvents floats f (text :: lines) = []) := by
  rw [← breaks_readLine, queryEvents]
  cases hread : readLine floats f text with
  | ok entry =>
    cases entry with
    | some e => exact absurd (readLine_unfiltered hread) (h e)
    | none => simp
  | error raised => cases hcaught : raised.caught <;> simp [hcaught]

end malformed

/-! Logs. -/

inductive Line (F : Type)
  | written (e : AuditLogEntry F)
  | other (text : String)

def Line.append (lines : List String) : Line F → List String
  | .written e => logEvent floats e lines
  | .other text => lines ++ [text]

/-- The file after the lines have been appended to it one after another. -/
def file (log : List (Line F)) : List String := log.foldl (Line.append floats) []

def Line.text : Line F → String
  | .written e => dumps floats (.obj e.logData)
  | .other text => text

def written : List (Line F) → List (AuditLogEntry F)
  | [] => []
  | .written e :: log => e :: written log
  | .other _ :: log => written log

/-- No line that ends the reading stands before an entry that satisfies the filters. -/
def Unbroken (f : Filters) : List (Line F) → Prop
  | [] => True
  | .written _ :: log => Unbroken f log
  | .other text :: log =>
    (StopsLine floats f text → ∀ e ∈ written log, satisfies f e = false) ∧ Unbroken f log

section logs

variable {floats} {f : Filters} {log : List (Line F)}

theorem file_eq (log : List (Line F)) : file floats log = log.map (Line.text floats) := by
  have hfoldl (log : List (Line F)) (lines : List String) :
      log.foldl (Line.append floats) lines = lines ++ log.map (Line.text floats) := by
    induction log generalizing lines with
    | nil => simp
    | cons line log ih =>
      have happend : Line.append floats lines line = lines ++ [Line.text floats line] := by
        cases line <;> rfl
      rw [List.foldl_cons, ih, happend, List.map_cons, List.append_assoc, List.singleton_append]
  exact hfoldl log []

theorem unbroken_of_unsatisfied (h : ∀ e ∈ written log, satisfies f e = false) :
    Unbroken floats f log := by
  induction log with
  | nil => trivial
  | cons line log ih =>
    cases line with
    | written e => exact ih fun e' he' => h e' (List.mem_cons_of_mem _ he')
    | other text => exact ⟨fun _ => h, ih h⟩

theorem query_text_iff (hserialisable : ∀ e ∈ written log, Serialisable e)
    (hcomparable : ∀ e ∈ written log, Comparable f e)
    (hmalformed : ∀ text, .other text ∈ log → Malformed floats text) :
    queryEvents floats f (log.map (Line.text floats)) = (written log).filter (satisfies f) ↔
      Unbroken floats f log := by
  induction log with
  | nil => exact iff_of_true rfl trivial
  | cons line log ih =>
    have hmalformed' := fun text htext => hmalformed text (List.mem_cons_of_mem _ htext)
    cases line with
    | written e =>
      have hread := readLine_logData floats (hserialisable e List.mem_cons_self)
        (hcomparable e List.mem_cons_self)
      have ih := ih (fun e' he' => hserialisable e' (List.mem_cons_of_mem _ he'))
        (fun e' he' => hcomparable e' (List.mem_cons_of_mem _ he')) hmalformed'
      rw [List.map_cons, Line.text, queryEvents, hread, written, List.filter_cons, Unbroken, ← ih]
      cases satisfies f e <;> simp
    | other text =>
      have ih := ih hserialisable hcomparable hmalformed'
      obtain ⟨hskips, hstops⟩ := queryEvents_malformed (f := f)
        (hmalformed text List.mem_cons_self) (log.map (Line.text floats))
      rw [List.map_cons, Line.text, written, Unbroken]
      by_cases hstop : StopsLine floats f text
      · rw [hstops hstop, eq_comm, List.filter_eq_nil_iff]
        simp only [Bool.not_eq_true, hstop, true_implies]
        exact (and_iff_left_of_imp unbroken_of_unsatisfied).symm
      · rw [hskips hstop, ih]
        exact (and_iff_right fun h => absurd h hstop).symm

end logs

/-- 2024-05-06 07:08:09 -/
def someTime : Datetime := ⟨⟨2024, 5, 6, ⟨7, 8, 9, 0⟩, none⟩, by decide⟩

def login : AuditLogEntry Written where
  eventId := .str "e1"
  eventType := .userLogin
  timestamp := someTime
  userId := .str "alice"

theorem login_serialisable : Serialisable login := by
  intro entry hentry
  simp only [AuditLogEntry.logData, login, List.mem_cons, List.not_mem_nil, or_false] at hentry
  rcases hentry with rfl | rfl | rfl | rfl | rfl | rfl | rfl | rfl | rfl | rfl | rfl | rfl | rfl |
    rfl | rfl
  all_goals simp [Value.WellFormed, Value.WellFormedEntries]

theorem read_empty (f : Filters) :
    readLine JsonText.written f "\x7b\x7d" = .error .keyError := rfl

theorem read_brace (f : Filters) :
    readLine JsonText.written f "\x7b" = .error .jsonDecodeError := rfl

end Marty.Security.AuditLog
