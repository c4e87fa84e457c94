import Mathlib.Data.List.Sort
import Mathlib.Data.String.Basic
import Marty.Lib.Datetime
import Marty.Lib.Dict
import Marty.Lib.Filter
import Marty.Lib.Repr
import Marty.Lib.Table
import Marty.Lib.Text

/-! `annex9_policies`: background checks, electronic records and visa-free status of crew member
certificates.  An operation is given the identifiers and the times that it draws. -/

namespace Marty.Policies.Annex9

open Lib Lib.Datetime Lib.Repr

/-- `hashlib.sha256(data.encode()).hexdigest()`, and the formats of `str`. -/
structure Library where
  sha256 : String → String
  length_sha256 : ∀ data, (sha256 data).length = 64
  fmt : Format

/-- A library in which all digests are the same, for runs on fixed inputs. -/
def zeros : Library where
  sha256 := fun _ => String.ofList (List.replicate 64 '0')
  length_sha256 := fun _ => by rw [String.length_ofList, List.length_replicate]
  fmt := Repr.ascii

/-- A dictionary with text keys. -/
abbrev Entries := List (String × Json)

inductive BackgroundCheckStatus
  | pending | inProgress | completed | failed | expired
  deriving DecidableEq

inductive VisaFreeEntryStatus
  | eligible | notEligible | suspended | underReview
  deriving DecidableEq

def VisaFreeEntryStatus.value : VisaFreeEntryStatus → String
  | .eligible => "eligible"
  | .notEligible => "not_eligible"
  | .suspended => "suspended"
  | .underReview => "under_review"

/-! Background checks. -/

structure BackgroundCheckRecord where
  recordId : String
  cmcId : String
  checkAuthority : String
  checkReference : String
  status : BackgroundCheckStatus := .pending
  startedAt : Option Time := none
  completedAt : Option Time := none
  expiresAt : Option Time := none
  checkScope : List String := []
  findings : Entries := []
  verificationCode : Option String := none
  annex9Compliant : Bool := false

def requiredChecks : List String :=
  ["criminal_history", "employment_history", "identity_verification", "security_clearance",
    "aviation_experience"]

/-- The loop of `_assess_annex9_compliance`; it raises at a finding that is not a dictionary. -/
def assess (findings : Entries) : List String → Option Bool
  | [] => some true
  | check :: checks =>
    match findings.lookup check with
    | none => some false
    | some (.obj finding) =>
      if (finding.lookup "passed").any Json.truthy then assess findings checks else some false
    | some _ => none

def assessAnnex9Compliance (findings : Entries) : Option Bool := assess findings requiredChecks

namespace BackgroundCheckRecord

variable (lib : Library) (r : BackgroundCheckRecord)

def generateVerificationCode : String :=
  let data := r.recordId ++ r.cmcId ++ r.checkAuthority ++ r.checkReference
  Text.upper (String.ofList ((lib.sha256 data).toList.take 16))

def isExpired (now : Time) : Bool := r.expiresAt.any (· < now)

/-- The branches of `update_status` on the status; `none` stands for an exception, and the record
is then left as it is. -/
def changeStatus (status : BackgroundCheckStatus) (findings : Entries) (now : Time) :
    BackgroundCheckRecord × Option Unit :=
  let r := { r with status := status }
  match status with
  | .inProgress =>
    (if r.startedAt.isNone then { r with startedAt := some now } else r, some ())
  | .completed =>
    let r := { r with completedAt := some now }
    match assessAnnex9Compliance findings with
    | none => (r, none)
    | some compliant => ({ r with annex9Compliant := compliant }, some ())
  | .failed => ({ r with completedAt := some now, annex9Compliant := false }, some ())
  | .pending | .expired => (r, some ())

/-- `None` and an empty dictionary are the same here. -/
def updateStatus (status : BackgroundCheckStatus) (findings : Entries) (now : Time) :
    BackgroundCheckRecord × Option Unit :=
  match r.changeStatus status findings now with
  | (r, none) => (r, none)
  | (r, some ()) =>
    let r := { r with findings := Dict.updated r.findings findings }
    if status = .completed ∨ status = .failed then
      ({ r with verificationCode := some (r.generateVerificationCode lib) }, some ())
    else (r, some ())

end BackgroundCheckRecord

/-! Electronic records. -/

structure AuditEntry where
  timestamp : String
  action : String
  actor : String
  details : Entries

structure ElectronicRecord where
  recordId : String
  cmcId : String
  issuerAuthority : String
  lastUpdated : Time
  version : Nat := 1
  recordHash : Option String := none
  holderData : Entries := []
  backgroundChecks : List String := []
  auditTrail : List AuditEntry := []
  archivalDate : Option Time := none

namespace ElectronicRecord

variable (lib : Library) (r : ElectronicRecord)

def content : Entries :=
  [("record_id", .str r.recordId), ("cmc_id", .str r.cmcId),
    ("issuer_authority", .str r.issuerAuthority), ("version", .int r.version),
    ("holder_data", .obj r.holderData),
    ("background_checks", .arr ((r.backgroundChecks.insertionSort (· ≤ ·)).map .str))]

/-- The keys of the content differ, so that its items are sorted by their keys. -/
def calculateRecordHash : String :=
  lib.sha256 (strItems lib.fmt (r.content.insertionSort fun item item' => item.1 ≤ item'.1))

/-- `entered` and `updated` are the times that are read. -/
def addAuditEntry (action actor : String) (details : Entries) (entered updated : Time) :
    ElectronicRecord :=
  let entry : AuditEntry := ⟨(Stamp.utc entered).isoformat, action, actor, details⟩
  let r := { r with
    auditTrail := r.auditTrail ++ [entry]
    lastUpdated := updated
    version := r.version + 1 }
  { r with recordHash := some (r.calculateRecordHash lib) }

def verifyIntegrity : Bool :=
  match Text.truthy r.recordHash with
  | none => false
  | some recordHash => recordHash = r.calculateRecordHash lib

end ElectronicRecord

/-! Visa-free status. -/

structure StatusChange where
  timestamp : String
  oldStatus : String
  newStatus : String
  authority : String
  reason : String
  deriving DecidableEq

structure VisaFreeEntryRecord where
  recordId : String
  cmcId : String
  status : VisaFreeEntryStatus := .notEligible
  grantingAuthority : String
  authorizationReference : String
  grantedAt : Option Time := none
  validFrom : Option Time := none
  validUntil : Option Stamp := none
  eligibleCountries : List String := []
  entryPurposes : List String := []
  statusHistory : List StatusChange := []
  nextReviewDate : Option Time := none

namespace VisaFreeEntryRecord

variable (v : VisaFreeEntryRecord)

/-- `clock` is the time at each reading of it. -/
def updateStatus (newStatus : VisaFreeEntryStatus) (authority reason : String)
    (validUntil : Option Stamp) (clock : Nat → Time) : VisaFreeEntryRecord :=
  let statusChange : StatusChange :=
    ⟨(Stamp.utc (clock 0)).isoformat, v.status.value, newStatus.value, authority, reason⟩
  let v := { v with status := newStatus, statusHistory := v.statusHistory ++ [statusChange] }
  match newStatus with
  | .eligible => { v with
    grantedAt := some (clock 1)
    validFrom := some (clock 2)
    validUntil := validUntil }
  | .suspended | .notEligible => { v with validUntil := some (.utc (clock 1)) }
  | .underReview => v

/-- It raises when `valid_until` has no time zone. -/
def isCurrentlyEligible (now : Time) : Option Bool :=
  if v.status ≠ .eligible then some false
  else if v.validFrom.any (now < ·) then some false
  else
    match v.validUntil with
    | none => some true
    | some validUntil => (validUntil.lt? (.utc now)).map (!·)

def isEligibleForCountry (countryCode : String) (now : Time) : Option Bool :=
  (v.isCurrentlyEligible now).map fun eligible =>
    eligible && decide (countryCode ∈ v.eligibleCountries ∨ v.eligibleCountries = [])

end VisaFreeEntryRecord

/-! The manager. -/

/-- The records, in the order in which they were made, with their identifiers as keys. -/
structure Annex9PolicyManager where
  backgroundChecks : List BackgroundCheckRecord := []
  electronicRecords : List ElectronicRecord := []
  visaFreeRecords : List VisaFreeEntryRecord := []

structure CleanupCount where
  backgroundChecks : Nat
  electronicRecords : Nat
  visaFreeRecords : Nat
  deriving DecidableEq

namespace Annex9PolicyManager

open Lib.Table

variable (lib : Library) (m : Annex9PolicyManager)

/-- The record that `initiate_background_check` makes. -/
def newBackgroundCheck (recordId cmcId checkAuthority : String) (checkScope : List String)
    (named expires : Time) : BackgroundCheckRecord where
  recordId := recordId
  cmcId := cmcId
  checkAuthority := checkAuthority
  checkReference := "BGC-" ++ cmcId ++ "-" ++ strftimeMinute named
  checkScope := if checkScope = [] then requiredChecks else checkScope
  expiresAt := some (expires + days 365)

def initiateBackgroundCheck (recordId cmcId checkAuthority : String) (checkScope : List String)
    (named expires : Time) : Annex9PolicyManager × BackgroundCheckRecord :=
  let check := newBackgroundCheck recordId cmcId checkAuthority checkScope named expires
  let checks := upsert (·.recordId) recordId check (fun _ => check) m.backgroundChecks
  ({ m with backgroundChecks := checks }, check)

/-- An exception of `update_status` (`none`) is passed on. -/
def updateBackgroundCheck (recordId : String) (status : BackgroundCheckStatus) (findings : Entries)
    (now : Time) : Annex9PolicyManager × Option (Option BackgroundCheckRecord) :=
  match get (·.recordId) recordId m.backgroundChecks with
  | none => (m, some none)
  | some check =>
    let (check, result) := check.updateStatus lib status findings now
    let checks := modify (·.recordId) recordId (fun _ => check) m.backgroundChecks
    ({ m with backgroundChecks := checks }, result.map fun _ => some check)

/-- The record that `create_electronic_record` makes; `clock` is the time at each reading. -/
def newElectronicRecord (recordId cmcId issuerAuthority : String) (holderData : Entries)
    (clock : Nat → Time) : ElectronicRecord :=
  let record : ElectronicRecord := {
    recordId := recordId
    cmcId := cmcId
    issuerAuthority := issuerAuthority
    lastUpdated := clock 1
    holderData := holderData
    archivalDate := some (clock 0 + days (365 * 10)) }
  let record := { record with recordHash := some (record.calculateRecordHash lib) }
  record.addAuditEntry lib "created" issuerAuthority [("initial_creation", .bool true)] (clock 2)
    (clock 3)

def createElectronicRecord (recordId cmcId issuerAuthority : String) (holderData : Entries)
    (clock : Nat → Time) : Annex9PolicyManager × ElectronicRecord :=
  let record := newElectronicRecord lib recordId cmcId issuerAuthority holderData clock
  let records := upsert (·.recordId) recordId record (fun _ => record) m.electronicRecords
  ({ m with electronicRecords := records }, record)

/-- The record that `link_background_check` makes of one. -/
def linked (backgroundCheckId : String) (entered updated : Time) (record : ElectronicRecord) :
    ElectronicRecord :=
  let record := { record with backgroundChecks := record.backgroundChecks ++ [backgroundCheckId] }
  record.addAuditEntry lib "background_check_linked" "system"
    [("background_check_id", .str backgroundCheckId)] entered updated

def linkBackgroundCheck (electronicRecordId backgroundCheckId : String) (entered updated : Time) :
    Annex9PolicyManager × Bool :=
  if (get (·.recordId) electronicRecordId m.electronicRecords).isNone then (m, false)
  else if (get (·.recordId) backgroundCheckId m.backgroundChecks).isNone then (m, false)
  else
    let link := linked lib backgroundCheckId entered updated
    let records := modify (·.recordId) electronicRecordId link m.electronicRecords
    ({ m with electronicRecords := records }, true)

def getVisaFreeRecord (cmcId : String) : Option VisaFreeEntryRecord :=
  m.visaFreeRecords.find? (·.cmcId = cmcId)

/-- The record that `manage_visa_free_status` makes for a certificate without one. -/
def newVisaFreeRecord (recordId cmcId grantingAuthority : String) (eligibleCountries : List String)
    (named reviewed : Time) : VisaFreeEntryRecord where
  recordId := recordId
  cmcId := cmcId
  grantingAuthority := grantingAuthority
  authorizationReference := "VFE-" ++ cmcId ++ "-" ++ strftimeDay named
  eligibleCountries := eligibleCountries
  entryPurposes := ["crew_duties", "transit"]
  nextReviewDate := some (reviewed + days 365)

/-- A call of `manage_visa_free_status`, with what it draws; the identifier, `named` and `reviewed`
are for a new record. -/
structure VisaFreeCall where
  cmcId : String
  status : VisaFreeEntryStatus
  grantingAuthority : String
  reason : String
  eligibleCountries : List String := []
  validUntil : Option Stamp := none
  recordId : String
  named : Time
  reviewed : Time
  clock : Nat → Time

def VisaFreeCall.change (c : VisaFreeCall) (v : VisaFreeEntryRecord) : VisaFreeEntryRecord :=
  v.updateStatus c.status c.grantingAuthority c.reason c.validUntil c.clock

def VisaFreeCall.newRecord (c : VisaFreeCall) : VisaFreeEntryRecord :=
  newVisaFreeRecord c.recordId c.cmcId c.grantingAuthority c.eligibleCountries c.named c.reviewed

section

variable {c : VisaFreeCall} {v : VisaFreeEntryRecord}

@[simp] theorem VisaFreeCall.change_recordId : (c.change v).recordId = v.recordId := by
  obtain ⟨_, _ | _⟩ := c <;> rfl

@[simp] theorem VisaFreeCall.change_cmcId : (c.change v).cmcId = v.cmcId := by
  obtain ⟨_, _ | _⟩ := c <;> rfl

@[simp] theorem VisaFreeCall.newRecord_cmcId : c.newRecord.cmcId = c.cmcId := rfl

@[simp] theorem VisaFreeCall.newRecord_recordId : c.newRecord.recordId = c.recordId := rfl

@[simp] theorem VisaFreeCall.change_eligibleCountries :
    (c.change v).eligibleCountries = v.eligibleCountries := by
  obtain ⟨_, _ | _⟩ := c <;> rfl

end

def manageVisaFreeStatus (c : VisaFreeCall) : Annex9PolicyManager × VisaFreeEntryRecord :=
  match m.getVisaFreeRecord c.cmcId with
  | some record =>
    let records := modify (·.recordId) record.recordId c.change m.visaFreeRecords
    ({ m with visaFreeRecords := records }, c.change record)
  | none =>
    let record := c.change c.newRecord
    let records := upsert (·.recordId) c.recordId record (fun _ => record) m.visaFreeRecords
    ({ m with visaFreeRecords := records }, record)

/-- Whether a visa-free record is beyond its grace period. -/
def beyondGrace (now : Time) (v : VisaFreeEntryRecord) : Option Bool :=
  match v.validUntil with
  | none => some false
  | some validUntil => (validUntil.add? (days 30)).bind (·.lt? (.utc now))

def expiredRecords (now : Time) : List ElectronicRecord :=
  m.electronicRecords.filter fun record => record.archivalDate.any (· < now)

/-- `checked` is the time at which a background check is looked at, and `archives` says which
records the storage service takes; without one it takes all.  An exception (`none`) leaves what was
done before it. -/
def cleanupExpiredRecords (now : Time) (checked : String → Time) (archives : String → Bool) :
    Annex9PolicyManager × Option CleanupCount :=
  let expired (check : BackgroundCheckRecord) : Bool := check.isExpired (checked check.recordId)
  let archived : List String := ((m.expiredRecords now).map (·.recordId)).takeWhile archives
  let cleaned : Annex9PolicyManager := { m with
    backgroundChecks := m.backgroundChecks.filter (!expired ·)
    electronicRecords := m.electronicRecords.filter (·.recordId ∉ archived) }
  if archived.length < (m.expiredRecords now).length then (cleaned, none)
  else
    match filter? (beyondGrace now) m.visaFreeRecords with
    | none => (cleaned, none)
    | some expiredVisas =>
      let ids := expiredVisas.map (·.recordId)
      ({ cleaned with visaFreeRecords := m.visaFreeRecords.filter (·.recordId ∉ ids) },
        some ⟨(m.backgroundChecks.filter expired).length, archived.length, expiredVisas.length⟩)

end Annex9PolicyManager

end Marty.Policies.Annex9
