import Marty.Lib.Strip
import Marty.Models.Documents

/-! `to_dict` and `from_dict` of `CMCData`, `VDSNCBarcode` and `CMCCertificate`, and which documents
come back from their dictionaries. -/

namespace Marty.Models.CrewCertificate

open Lib Lib.Base64 Lib.Case Lib.Fields Lib.Isoformat Lib.JsonText Lib.Uuid
open HolderDates (Gender CMCSecurityModel Image validateCountryCode validateExpiryDate
  validateImage)
open Documents

variable {F : Type}

def asBool : Value F → Option Bool
  | .bool b => some b
  | _ => none

@[simp] theorem asBool_bool (b : Bool) : asBool (F := F) (.bool b) = some b := rfl

structure CMCData where
  documentNumber : String
  issuingCountry : String
  surname : String
  givenNames : String
  nationality : String
  dateOfBirth : Date
  gender : Gender
  dateOfExpiry : Date
  employer : Option String := none
  crewId : Option String := none
  securityModel : CMCSecurityModel := .chipLds
  backgroundCheckVerified : Bool := false
  faceImage : Option Image := none
  deriving DecidableEq

namespace CMCData

/-- The same data with the dates as ordinals. -/
def holder (p : CMCData) : HolderDates.CMCData where
  documentNumber := p.documentNumber
  issuingCountry := p.issuingCountry
  surname := p.surname
  givenNames := p.givenNames
  nationality := p.nationality
  dateOfBirth := p.dateOfBirth.toordinal
  gender := p.gender
  dateOfExpiry := p.dateOfExpiry.toordinal
  employer := p.employer
  crewId := p.crewId
  securityModel := p.securityModel
  backgroundCheckVerified := p.backgroundCheckVerified
  faceImage := p.faceImage

/-- `CMCData(...)` -/
def new (upper : String → String) (p : CMCData) : Option CMCData := do
  let issuingCountry ← validateCountryCode upper p.issuingCountry
  let nationality ← validateCountryCode upper p.nationality
  let _ ← validateExpiryDate p.dateOfBirth.toordinal p.dateOfExpiry.toordinal
  let faceImage ← validateImage p.faceImage
  some { p with
    issuingCountry := issuingCountry
    nationality := nationality
    faceImage := faceImage }

theorem holder_new (upper : String → String) (p : CMCData) :
    (new upper p).map holder = HolderDates.CMCData.new upper p.holder := by
  rw [new, HolderDates.CMCData.new, holder]
  cases validateCountryCode upper p.issuingCountry with
  | none => rfl
  | some issuingCountry =>
    cases validateCountryCode upper p.nationality with
    | none => rfl
    | some nationality =>
      cases hexpiry : validateExpiryDate p.dateOfBirth.toordinal p.dateOfExpiry.toordinal with
      | none => rfl
      | some dateOfExpiry =>
        obtain ⟨rfl, -⟩ := HolderDates.validateExpiryDate_eq_some hexpiry
        cases validateImage p.faceImage with
        | none => rfl
        | some faceImage => rfl

def fieldNames : List String := ["document_number", "issuing_country", "surname", "given_names",
  "nationality", "date_of_birth", "gender", "date_of_expiry", "employer", "crew_id",
  "security_model", "background_check_verified", "face_image"]

/-- `model_dump()`, with the face image and the dates as texts. -/
def dump (p : CMCData) : Entries F := [
  ("document_number", .str p.documentNumber),
  ("issuing_country", .str p.issuingCountry),
  ("surname", .str p.surname),
  ("given_names", .str p.givenNames),
  ("nationality", .str p.nationality),
  ("date_of_birth", .str p.dateOfBirth.isoformat),
  ("gender", .str (StrEnum.value p.gender)),
  ("date_of_expiry", .str p.dateOfExpiry.isoformat),
  ("employer", optStr p.employer),
  ("crew_id", optStr p.crewId),
  ("security_model", .str (StrEnum.value p.securityModel)),
  ("background_check_verified", .bool p.backgroundCheckVerified),
  ("face_image", optStr (p.faceImage.map imageText))]

def toDict (p : CMCData) : Entries F := snakeToCamelDict p.dump

/-- `CMCData(**data)`, with the texts of dates read; other fields are forbidden. -/
def ofFields (upper : String → String) (data : Entries F) : Option CMCData := do
  if !data.all (·.1 ∈ fieldNames) then none
  let documentNumber ← required data "document_number" asStr
  let issuingCountry ← required data "issuing_country" asStr
  let surname ← required data "surname" asStr
  let givenNames ← required data "given_names" asStr
  let nationality ← required data "nationality" asStr
  let dateOfBirth ← required data "date_of_birth" asDate
  let gender ← required data "gender" asStrEnum
  let dateOfExpiry ← required data "date_of_expiry" asDate
  let employer ← getField data "employer" asStr
  let crewId ← getField data "crew_id" asStr
  let securityModel ← ifPresent data "security_model" asStrEnum
  let backgroundCheckVerified ← ifPresent data "background_check_verified" asBool
  let faceImage ← getField data "face_image" asImage
  new upper {
    documentNumber
    issuingCountry
    surname
    givenNames
    nationality
    dateOfBirth
    gender
    dateOfExpiry
    employer
    crewId
    securityModel := securityModel.getD .chipLds
    backgroundCheckVerified := backgroundCheckVerified.getD false
    faceImage }

def fromDict (upper : String → String) (data : Entries F) : Option CMCData :=
  ofFields upper (camelToSnakeDict data)

theorem keys_dump (p : CMCData) : (p.dump (F := F)).map (·.1) = fieldNames := rfl

theorem restored_dump (p : CMCData) : Restored (p.dump (F := F)) := by
  rw [Restored, keys_dump]
  exact ⟨by decide +kernel, by decide +kernel⟩

/-- What is written is read, and validated again with the face image as a text. -/
theorem fromDict_toDict (upper : String → String) (p : CMCData) :
    fromDict (F := F) upper p.toDict = new upper { p with faceImage := encoded p.faceImage } := by
  have hnames : (p.dump (F := F)).all (·.1 ∈ fieldNames) = true := by
    rw [List.all_eq_true]
    intro e he
    rw [decide_eq_true_eq, ← keys_dump (F := F) p]
    exact List.mem_map_of_mem he
  have hemployer : getField (p.dump (F := F)) "employer" asStr = some p.employer :=
    getField_optStr rfl
  have hcrewId : getField (p.dump (F := F)) "crew_id" asStr = some p.crewId := getField_optStr rfl
  have hface : getField (p.dump (F := F)) "face_image" asImage = some (encoded p.faceImage) :=
    getField_encoded rfl
  rw [fromDict, toDict, camelToSnakeDict_snakeToCamelDict p.restored_dump, ofFields, hnames,
    hemployer, hcrewId, hface]
  simp [required, ifPresent, dump, List.lookup_cons]

/-- What the constructor has returned. -/
def Valid (upper : String → String) (p : CMCData) : Prop := ∃ q, new upper q = some p

/-- The same in every field, the face image as bytes. -/
def Same (p p' : CMCData) : Prop :=
  p' = { p with faceImage := p'.faceImage } ∧ imageBytes p'.faceImage = imageBytes p.faceImage

/-- The codes are still of three letters in upper case. -/
abbrev CodesKept (p : CMCData) : Prop :=
  p.issuingCountry.length = 3 ∧ p.nationality.length = 3

theorem same_encoded (p : CMCData) : p.Same { p with faceImage := encoded p.faceImage } :=
  ⟨rfl, imageBytes_encoded p.faceImage⟩

theorem fromDict_toDict_of_valid {upper : String → String} (hupper : ∀ s, upper (upper s) = upper s)
    {p : CMCData} (h : p.Valid upper) : fromDict (F := F) upper p.toDict =
      if p.CodesKept then some { p with faceImage := encoded p.faceImage } else none := by
  obtain ⟨q, hq⟩ := h
  obtain ⟨issuing, hissuing, hq⟩ := Option.bind_eq_some_iff.mp hq
  obtain ⟨nationality, hnationality, hq⟩ := Option.bind_eq_some_iff.mp hq
  obtain ⟨expiry, hexpiry, hq⟩ := Option.bind_eq_some_iff.mp hq
  obtain ⟨faceImage, hface, hq⟩ := Option.bind_eq_some_iff.mp hq
  obtain rfl := validateImage_eq_some hface
  cases hq
  rw [fromDict_toDict, new]
  simp only [validateCountryCode_upper hupper hissuing,
    validateCountryCode_upper hupper hnationality, hexpiry, validateImage_encoded hface, CodesKept]
  exact bind_codes

end CMCData

/-- `validate_date_format` and `validate_time_format`; `isdigit` is `str.isdigit`. -/
def validateSixDigits (isdigit : String → Bool) (v : String) : Option String :=
  if v.length ≠ 6 ∨ isdigit v = false then none else some v

def validateTime (isdigit : String → Bool) (v : Option String) : Option (Option String) :=
  match v with
  | none => some none
  | some v => (validateSixDigits isdigit v).map some

structure VDSNCBarcode (F : Type) where
  header : String
  messageType : String := "CMC"
  issuingCountry : String
  signatureAlgorithm : String := "ES256"
  certificateReference : String
  signatureCreationDate : String
  signatureCreationTime : Option String := none
  cmcData : Entries F
  signature : String

namespace VDSNCBarcode

/-- `VDSNCBarcode(...)` -/
def new (upper : String → String) (isdigit : String → Bool) (b : VDSNCBarcode F) :
    Option (VDSNCBarcode F) := do
  let issuingCountry ← validateCountryCode upper b.issuingCountry
  let _ ← validateSixDigits isdigit b.signatureCreationDate
  let _ ← validateTime isdigit b.signatureCreationTime
  some { b with issuingCountry }

def fieldNames : List String := ["header", "message_type", "issuing_country",
  "signature_algorithm", "certificate_reference", "signature_creation_date",
  "signature_creation_time", "cmc_data", "signature"]

/-- `model_dump()` -/
def dump (b : VDSNCBarcode F) : Entries F := [
  ("header", .str b.header),
  ("message_type", .str b.messageType),
  ("issuing_country", .str b.issuingCountry),
  ("signature_algorithm", .str b.signatureAlgorithm),
  ("certificate_reference", .str b.certificateReference),
  ("signature_creation_date", .str b.signatureCreationDate),
  ("signature_creation_time", optStr b.signatureCreationTime),
  ("cmc_data", .obj b.cmcData),
  ("signature", .str b.signature)]

def toDict (b : VDSNCBarcode F) : Entries F := snakeToCamelDict b.dump

/-- `VDSNCBarcode(**data)`; other fields are forbidden. -/
def ofFields (upper : String → String) (isdigit : String → Bool) (data : Entries F) :
    Option (VDSNCBarcode F) := do
  if !data.all (·.1 ∈ fieldNames) then none
  let header ← required data "header" asStr
  let messageType ← ifPresent data "message_type" asStr
  let issuingCountry ← required data "issuing_country" asStr
  let signatureAlgorithm ← ifPresent data "signature_algorithm" asStr
  let certificateReference ← required data "certificate_reference" asStr
  let signatureCreationDate ← required data "signature_creation_date" asStr
  let signatureCreationTime ← getField data "signature_creation_time" asStr
  let cmcData ← required data "cmc_data" asEntries
  let signature ← required data "signature" asStr
  new upper isdigit {
    header
    messageType := messageType.getD "CMC"
    issuingCountry
    signatureAlgorithm := signatureAlgorithm.getD "ES256"
    certificateReference
    signatureCreationDate
    signatureCreationTime
    cmcData
    signature }

theorem keys_dump (b : VDSNCBarcode F) : b.dump.map (·.1) = fieldNames := rfl

theorem restored_dump (b : VDSNCBarcode F) : Restored b.dump := by
  rw [Restored, keys_dump]
  exact ⟨by decide +kernel, by decide +kernel⟩

/-- What is written is read, and validated again. -/
theorem ofFields_toDict (upper : String → String) (isdigit : String → Bool) (b : VDSNCBarcode F) :
    ofFields upper isdigit (camelToSnakeDict b.toDict) = new upper isdigit b := by
  have hnames : b.dump.all (·.1 ∈ fieldNames) = true := by
    rw [List.all_eq_true]
    intro e he
    rw [decide_eq_true_eq, ← keys_dump b]
    exact List.mem_map_of_mem he
  have htime : getField b.dump "signature_creation_time" asStr = some b.signatureCreationTime :=
    getField_optStr rfl
  rw [toDict, camelToSnakeDict_snakeToCamelDict b.restored_dump, ofFields, hnames, htime]
  simp [required, ifPresent, dump, List.lookup_cons]

/-- What the constructor has returned. -/
def Valid (upper : String → String) (isdigit : String → Bool) (b : VDSNCBarcode F) : Prop :=
  ∃ q, new upper isdigit q = some b

theorem new_of_valid {upper : String → String} {isdigit : String → Bool}
    (hupper : ∀ s, upper (upper s) = upper s) {b : VDSNCBarcode F} (h : b.Valid upper isdigit) :
    new upper isdigit b = if b.issuingCountry.length = 3 then some b else none := by
  obtain ⟨q, hq⟩ := h
  obtain ⟨issuing, hissuing, hq⟩ := Option.bind_eq_some_iff.mp hq
  obtain ⟨date, hdate, hq⟩ := Option.bind_eq_some_iff.mp hq
  obtain ⟨time, htime, hq⟩ := Option.bind_eq_some_iff.mp hq
  cases hq
  rw [new]
  simp only [validateCountryCode_upper hupper hissuing, hdate, htime]
  by_cases hi : issuing.length = 3
  · rw [if_pos hi, if_pos hi]
    rfl
  · rw [if_neg hi, if_neg hi]
    rfl

end VDSNCBarcode

structure CMCCertificate (F : Type) where
  id : UUID
  cmcData : CMCData
  td1Mrz : Option String := none
  securityObject : Option String := none
  vdsNcBarcode : Option (VDSNCBarcode F) := none
  chipContent : Option Image := none
  dataGroups : DataGroups F := []
  electronicRecordId : Option String := none
  issuerRecordKeeping : Bool := false
  visaFreeEntryEligible : Bool := false

namespace CMCCertificate

/-- `CMCCertificate(...)`, of data and a barcode that have been validated. -/
def new (x : CMCCertificate F) : Option (CMCCertificate F) :=
  (validateImage x.chipContent).map fun chipContent => { x with chipContent }

def fieldNames : List String := ["id", "cmc_data", "td1_mrz", "security_object", "vds_nc_barcode",
  "chip_content", "data_groups", "electronic_record_id", "issuer_record_keeping",
  "visa_free_entry_eligible"]

/-- The entries of `to_dict`, of which the last two may be missing. -/
def camelEntries (x : CMCCertificate F) : List (String × Option (Value F)) := [
  ("id", some (.str x.id.text)),
  ("cmcData", some (.obj x.cmcData.toDict)),
  ("td1Mrz", some (optStr x.td1Mrz)),
  ("securityObject", some (optStr x.securityObject)),
  ("dataGroups", some (dataGroupsValue x.dataGroups)),
  ("electronicRecordId", some (optStr x.electronicRecordId)),
  ("issuerRecordKeeping", some (.bool x.issuerRecordKeeping)),
  ("visaFreeEntryEligible", some (.bool x.visaFreeEntryEligible)),
  ("vdsNcBarcode", x.vdsNcBarcode.map fun b => .obj b.toDict),
  ("chipContent", chipEntry x.chipContent)]

def toDict (x : CMCCertificate F) : Entries F := entries x.camelEntries

section

variable (upper : String → String) (isdigit : String → Bool)

def asBarcode (v : Value F) : Option (VDSNCBarcode F) :=
  (asEntries v).bind fun entries => VDSNCBarcode.ofFields upper isdigit (camelToSnakeDict entries)

/-- `fresh` is the UUID of a certificate that is given none. -/
def fromDict (fresh : UUID) (data : Entries F) : Option (CMCCertificate F) := do
  let snakeCaseData := camelToSnakeDict data
  if !snakeCaseData.all (·.1 ∈ fieldNames) then none
  let cmcData ← required snakeCaseData "cmc_data" fun v =>
    (asEntries v).bind (CMCData.fromDict upper)
  let vdsNcBarcode ← getField snakeCaseData "vds_nc_barcode" (asBarcode upper isdigit)
  let dataGroups ← ifPresent snakeCaseData "data_groups" asDataGroups
  let id ← ifPresent snakeCaseData "id" asUuid
  let td1Mrz ← getField snakeCaseData "td1_mrz" asStr
  let securityObject ← getField snakeCaseData "security_object" asStr
  let chipContent ← getField snakeCaseData "chip_content" asImage
  let electronicRecordId ← getField snakeCaseData "electronic_record_id" asStr
  let issuerRecordKeeping ← ifPresent snakeCaseData "issuer_record_keeping" asBool
  let visaFreeEntryEligible ← ifPresent snakeCaseData "visa_free_entry_eligible" asBool
  new {
    id := id.getD fresh
    cmcData
    td1Mrz
    securityObject
    vdsNcBarcode
    chipContent
    dataGroups := dataGroups.getD []
    electronicRecordId
    issuerRecordKeeping := issuerRecordKeeping.getD false
    visaFreeEntryEligible := visaFreeEntryEligible.getD false }

end

/-- The entries of `to_dict` under the names of the fields. -/
def snakeEntries (x : CMCCertificate F) : List (String × Option (Value F)) := [
  ("id", some (.str x.id.text)),
  ("cmc_data", some (.obj x.cmcData.toDict)),
  ("td1_mrz", some (optStr x.td1Mrz)),
  ("security_object", some (optStr x.securityObject)),
  ("data_groups", some (dataGroupsValue x.dataGroups)),
  ("electronic_record_id", some (optStr x.electronicRecordId)),
  ("issuer_record_keeping", some (.bool x.issuerRecordKeeping)),
  ("visa_free_entry_eligible", some (.bool x.visaFreeEntryEligible)),
  ("vds_nc_barcode", x.vdsNcBarcode.map fun b => .obj b.toDict),
  ("chip_content", chipEntry x.chipContent)]

theorem camelToSnakeDict_toDict (x : CMCCertificate F) :
    camelToSnakeDict x.toDict = entries x.snakeEntries := by
  have hnames : ["id", "cmcData", "td1Mrz", "securityObject", "dataGroups", "electronicRecordId",
      "issuerRecordKeeping", "visaFreeEntryEligible", "vdsNcBarcode", "chipContent"].map
        camelToSnake = ["id", "cmc_data", "td1_mrz", "security_object", "data_groups",
      "electronic_record_id", "issuer_record_keeping", "visa_free_entry_eligible",
      "vds_nc_barcode", "chip_content"] := by decide +kernel
  simp only [List.map_cons, List.map_nil, List.cons.injEq, and_true] at hnames
  have hnodup : (x.camelEntries.map fun field => camelToSnake field.1).Nodup := by
    simp only [camelEntries, List.map_cons, List.map_nil, hnames]
    decide +kernel
  rw [camelToSnakeDict, toDict, mapKeys_entries hnodup]
  simp only [camelEntries, snakeEntries, List.map_cons, List.map_nil, hnames]

/-- What the constructors have returned. -/
def Valid (upper : String → String) (isdigit : String → Bool) (x : CMCCertificate F) : Prop :=
  x.cmcData.Valid upper ∧ (∀ b ∈ x.vdsNcBarcode, b.Valid upper isdigit) ∧ ∃ y, new y = some x

/-- The same in every field, the face image and the chip content as bytes. -/
def Same (x x' : CMCCertificate F) : Prop :=
  x' = { x with cmcData := x'.cmcData, chipContent := x'.chipContent } ∧
    x.cmcData.Same x'.cmcData ∧ imageBytes x'.chipContent = imageBytes x.chipContent

/-- The codes of the data and of the barcode are still of three letters. -/
abbrev CodesKept (x : CMCCertificate F) : Prop :=
  x.cmcData.CodesKept ∧ ∀ b ∈ x.vdsNcBarcode, b.issuingCountry.length = 3

theorem getField_barcode {upper : String → String} {isdigit : String → Bool}
    (hupper : ∀ s, upper (upper s) = upper s) {x : CMCCertificate F}
    (h : ∀ b ∈ x.vdsNcBarcode, b.Valid upper isdigit) :
    getField (entries x.snakeEntries) "vds_nc_barcode" (asBarcode upper isdigit) =
      if ∀ b ∈ x.vdsNcBarcode, b.issuingCountry.length = 3 then some x.vdsNcBarcode else none := by
  have hlookup : (entries x.snakeEntries).lookup "vds_nc_barcode" =
      x.vdsNcBarcode.map fun b => .obj b.toDict := by
    simp [snakeEntries, lookup_entries_cons, lookup_entries_nil]
  rw [getField, hlookup]
  cases hbarcode : x.vdsNcBarcode with
  | none => simp
  | some b =>
    have hb := VDSNCBarcode.new_of_valid hupper (h b hbarcode)
    simp only [Option.map_some, asBarcode, asEntries_obj, Option.bind_some,
      VDSNCBarcode.ofFields_toDict, hb, Option.mem_some_iff, forall_eq']
    by_cases hcode : b.issuingCountry.length = 3
    · rw [if_pos hcode, if_pos hcode]
      rfl
    · rw [if_neg hcode, if_neg hcode]
      rfl

/-- What is written is read again, but for the chip content and the codes. -/
theorem fromDict_toDict {upper : String → String} {isdigit : String → Bool} (fresh : UUID)
    (hupper : ∀ s, upper (upper s) = upper s) {x : CMCCertificate F} (h : x.Valid upper isdigit) :
    fromDict upper isdigit fresh x.toDict =
      if x.CodesKept then
        new { x with
          cmcData := { x.cmcData with faceImage := encoded x.cmcData.faceImage }
          chipContent := encoded (x.chipContent.filter imageTruthy) }
      else none := by
  have hdata : CMCData.fromDict (F := F) upper x.cmcData.toDict = _ :=
    CMCData.fromDict_toDict_of_valid hupper h.1
  have hbarcode := getField_barcode hupper h.2.1
  have hnames : (entries x.snakeEntries).all (·.1 ∈ fieldNames) = true := by
    rw [List.all_eq_true]
    intro e he
    have hmem := (keys_entries_sublist x.snakeEntries).subset (List.mem_map_of_mem he)
    have hall : ∀ key ∈ x.snakeEntries.map (·.1), key ∈ fieldNames := by
      change ∀ key ∈ ["id", "cmc_data", "td1_mrz", "security_object", "data_groups",
        "electronic_record_id", "issuer_record_keeping", "visa_free_entry_eligible",
        "vds_nc_barcode", "chip_content"], key ∈ fieldNames
      decide +kernel
    exact decide_eq_true (hall e.1 hmem)
  have htext : ∀ key text, (entries x.snakeEntries).lookup key = some (optStr text) →
      getField (entries x.snakeEntries) key asStr = some text := fun _ _ => getField_optStr
  have hmrz := htext "td1_mrz" x.td1Mrz (by simp [snakeEntries, lookup_entries_cons])
  have hobject := htext "security_object" x.securityObject
    (by simp [snakeEntries, lookup_entries_cons])
  have hrecord := htext "electronic_record_id" x.electronicRecordId
    (by simp [snakeEntries, lookup_entries_cons])
  have hchip : getField (entries x.snakeEntries) "chip_content" asImage =
      some (encoded (x.chipContent.filter imageTruthy)) := by
    apply getField_chipEntry
    simp [snakeEntries, lookup_entries_cons, lookup_entries_nil]
  have hgroups : ifPresent (entries x.snakeEntries) "data_groups" asDataGroups =
      some (some x.dataGroups) := by
    simp [ifPresent, snakeEntries, lookup_entries_cons, asDataGroups_dataGroupsValue]
  have hid : ifPresent (entries x.snakeEntries) "id" asUuid = some (some x.id) := by
    simp [ifPresent, snakeEntries, lookup_entries_cons]
  have hkeeping : ifPresent (entries x.snakeEntries) "issuer_record_keeping" asBool =
      some (some x.issuerRecordKeeping) := by
    simp [ifPresent, snakeEntries, lookup_entries_cons]
  have heligible : ifPresent (entries x.snakeEntries) "visa_free_entry_eligible" asBool =
      some (some x.visaFreeEntryEligible) := by
    simp [ifPresent, snakeEntries, lookup_entries_cons]
  have hcmc : (required (entries x.snakeEntries) "cmc_data" fun v =>
      (asEntries v).bind (CMCData.fromDict upper)) =
        CMCData.fromDict (F := F) upper x.cmcData.toDict := by
    have hlookup : (entries x.snakeEntries).lookup "cmc_data" = some (.obj x.cmcData.toDict) := by
      simp [snakeEntries, lookup_entries_cons]
    rw [required, hlookup, Option.bind_some, asEntries_obj, Option.bind_some]
  rw [fromDict, camelToSnakeDict_toDict]
  simp only [hnames, hcmc, hdata, hbarcode, hgroups, hid, hmrz, hobject, hchip, hrecord, hkeeping,
    heligible]
  by_cases hcodes : x.cmcData.CodesKept
  · by_cases hcode : ∀ b ∈ x.vdsNcBarcode, b.issuingCountry.length = 3
    · rw [if_pos hcodes, if_pos hcode, if_pos (And.intro hcodes hcode)]
      rfl
    · have hlost : ¬ x.CodesKept := fun h => hcode h.2
      rw [if_pos hcodes, if_neg hcode, if_neg hlost]
      rfl
  · have hlost : ¬ x.CodesKept := fun h => hcodes h.1
    rw [if_neg hcodes, if_neg hlost]
    rfl

/-- `from_dict(to_dict(x))` succeeds with the same certificate. -/
def RoundTrips (upper : String → String) (isdigit : String → Bool) (fresh : UUID)
    (x : CMCCertificate F) : Prop :=
  ∃ x', fromDict upper isdigit fresh x.toDict = some x' ∧ x.Same x'

theorem roundTrips_iff {upper : String → String} {isdigit : String → Bool} (fresh : UUID)
    (hupper : ∀ s, upper (upper s) = upper s) {x : CMCCertificate F} (h : x.Valid upper isdigit) :
    x.RoundTrips upper isdigit fresh ↔ x.CodesKept ∧ ChipKept x.chipContent := by
  have hchip : validateImage x.chipContent = some x.chipContent := by
    obtain ⟨y, hy⟩ := h.2.2
    obtain ⟨chipContent, hvalid, rfl⟩ := Option.map_eq_some_iff.mp hy
    obtain rfl := validateImage_eq_some hvalid
    exact hvalid
  have hnew := validateImage_encoded (validateImage_filter hchip imageTruthy)
  rw [RoundTrips, fromDict_toDict fresh hupper h]
  by_cases hcodes : x.CodesKept
  · rw [if_pos hcodes, new, hnew, Option.map_some, and_iff_right hcodes, ← imageBytes_filter_iff]
    constructor
    · rintro ⟨x', hx', -, -, hbytes⟩
      cases hx'
      exact hbytes
    · exact fun hbytes => ⟨_, rfl, rfl, x.cmcData.same_encoded, hbytes⟩
  · rw [if_neg hcodes]
    refine iff_of_false ?_ fun hkept => hcodes hkept.1
    rintro ⟨x', hnone, -⟩
    cases hnone

end CMCCertificate

/-- The documents that are the same after `from_dict(to_dict(x))`: the codes are still of three
letters, and the chip content is not empty. -/
theorem documents_return_iff {upper : String → String} {isdigit : String → Bool} (fresh : UUID)
    (hupper : ∀ s, upper (upper s) = upper s) :
    (∀ x : Passport F, x.Valid upper →
      (x.RoundTrips upper ↔ x.passportData.CodesKept ∧ ChipKept x.chipContent)) ∧
    ∀ x : CMCCertificate F, x.Valid upper isdigit →
      (x.RoundTrips upper isdigit fresh ↔ x.CodesKept ∧ ChipKept x.chipContent) :=
  ⟨fun _ => Passport.roundTrips_iff hupper, fun _ => CMCCertificate.roundTrips_iff fresh hupper⟩

section

def isdigit (s : String) : Bool := !s.isEmpty && s.toList.all Char.isDigit

def nilId : UUID := ⟨0, by decide⟩

def passportData : PassportData where
  documentNumber := "L898902C3"
  issuingCountry := "UTO"
  surname := "ERIKSSON"
  givenNames := "ANNA MARIA"
  nationality := "UTO"
  dateOfBirth := ⟨1974, 8, 12, by decide, by decide, by decide⟩
  gender := .female
  dateOfExpiry := ⟨2012, 4, 15, by decide, by decide, by decide⟩
  photo := some (.bytes [255, 216])

def cmcData : CMCData where
  documentNumber := "C12345678"
  issuingCountry := "UTO"
  surname := "ERIKSSON"
  givenNames := "ANNA MARIA"
  nationality := "UTO"
  dateOfBirth := ⟨1974, 8, 12, by decide, by decide, by decide⟩
  gender := .female
  dateOfExpiry := ⟨2012, 4, 15, by decide, by decide, by decide⟩

def passport (chipContent : Option Image) : Passport Empty where
  id := nilId
  passportData := passportData
  chipContent := chipContent

def barcode : VDSNCBarcode Empty where
  header := "DC03"
  issuingCountry := "UTO"
  certificateReference := "UTOSIGNER1"
  signatureCreationDate := "120415"
  cmcData := []
  signature := "c2lnbmF0dXJl"

def certificate : CMCCertificate Empty where
  id := nilId
  cmcData := cmcData
  vdsNcBarcode := some barcode
  chipContent := some (.text "AQI=")

theorem passport_valid (b : Bytes) : (passport (some (.bytes b))).Valid Text.upper := by
  have hdata : PassportData.new Text.upper passportData = some passportData := by decide +kernel
  exact ⟨⟨passportData, hdata⟩, passport (some (.bytes b)), rfl⟩

theorem certificate_valid : certificate.Valid Text.upper isdigit := by
  have hdata : CMCData.new Text.upper cmcData = some cmcData := by decide +kernel
  have hcode : validateCountryCode Text.upper "UTO" = some "UTO" := by decide +kernel
  have hdate : validateSixDigits isdigit "120415" = some "120415" := by decide +kernel
  have hbarcode : VDSNCBarcode.new Text.upper isdigit barcode = some barcode := by
    simp [VDSNCBarcode.new, barcode, hcode, hdate, validateTime]
  have hchip : validateImage (some (.text "AQI=")) = some (some (.text "AQI=")) := by decide +kernel
  refine ⟨⟨cmcData, hdata⟩, ?_, certificate, ?_⟩
  · rintro b ⟨⟩
    exact ⟨barcode, hbarcode⟩
  · simp [CMCCertificate.new, certificate, hchip]

theorem sample_documents_return : (passport (some (.bytes [1, 2]))).RoundTrips Text.upper ∧
    certificate.RoundTrips Text.upper isdigit nilId := by
  obtain ⟨hpassport, hcertificate⟩ :=
    @documents_return_iff Empty Text.upper isdigit nilId Text.upper_upper
  refine ⟨(hpassport _ (passport_valid _)).mpr ⟨by decide, by decide⟩,
    (hcertificate _ certificate_valid).mpr ⟨⟨by decide, ?_⟩, by decide⟩⟩
  rintro b ⟨⟩
  rfl

/-- Empty chip content is not written, and read back as `None`. -/
theorem empty_chip_content_lost : (passport (some (.bytes []))).Valid Text.upper ∧
    ¬ (passport (some (.bytes []))).RoundTrips Text.upper := by
  refine ⟨passport_valid [], ?_⟩
  rw [Passport.roundTrips_iff Text.upper_upper (passport_valid [])]
  exact fun h => h.2.2 rfl

end

end Marty.Models.CrewCertificate
