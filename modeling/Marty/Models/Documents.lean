import Marty.Lib.Case
import Marty.Lib.Fields
import Marty.Lib.Isoformat
import Marty.Lib.Uuid
import Marty.Models.HolderDates

/-! `to_dict` and `from_dict` of `PassportData` and `Passport`.  A value of another type than its
field's is refused; the conversions that pydantic makes of some of them are left out. -/

universe u

namespace Marty.Models.Documents

open Lib Lib.Base64 Lib.Case Lib.Fields Lib.Isoformat Lib.JsonText Lib.Uuid
open HolderDates (Gender CMCSecurityModel Image validateCountryCode validateExpiryDate
  validateImage)

variable {F : Type} {α : Type u}

/-! Values. -/

/-- An enumeration of texts. -/
class StrEnum (α : Type u) where
  value : α → String
  members : List α
  member_value : ∀ a, member members value (value a) = some a

instance : StrEnum Gender where
  value
    | .male => "M"
    | .female => "F"
    | .unspecified => "X"
  members := [.male, .female, .unspecified]
  member_value a := by cases a <;> decide +kernel

instance : StrEnum CMCSecurityModel where
  value
    | .chipLds => "CHIP_LDS"
    | .vdsNc => "VDS_NC"
  members := [.chipLds, .vdsNc]
  member_value a := by cases a <;> decide +kernel

inductive DataGroupType
  | dg1 | dg2 | dg3 | dg4 | dg5 | dg6 | dg7 | dg8 | dg9 | dg10 | dg11 | dg12 | dg13 | dg14 | dg15
  | dg16 | sod
  deriving DecidableEq

instance : StrEnum DataGroupType where
  value
    | .dg1 => "DG1"
    | .dg2 => "DG2"
    | .dg3 => "DG3"
    | .dg4 => "DG4"
    | .dg5 => "DG5"
    | .dg6 => "DG6"
    | .dg7 => "DG7"
    | .dg8 => "DG8"
    | .dg9 => "DG9"
    | .dg10 => "DG10"
    | .dg11 => "DG11"
    | .dg12 => "DG12"
    | .dg13 => "DG13"
    | .dg14 => "DG14"
    | .dg15 => "DG15"
    | .dg16 => "DG16"
    | .sod => "SOD"
  members := [.dg1, .dg2, .dg3, .dg4, .dg5, .dg6, .dg7, .dg8, .dg9, .dg10, .dg11, .dg12, .dg13,
    .dg14, .dg15, .dg16, .sod]
  member_value a := by cases a <;> decide +kernel

def asStrEnum [StrEnum α] (v : Value F) : Option α :=
  (asStr v).bind (member StrEnum.members StrEnum.value)

@[simp] theorem asStrEnum_value [StrEnum α] (a : α) :
    asStrEnum (F := F) (.str (StrEnum.value a)) = some a := StrEnum.member_value a

/-- `datetime.fromisoformat(v).date()` -/
def asDate (v : Value F) : Option Date :=
  (asStr v).bind fun s => (fromisoformat s).map Datetime.date

@[simp] theorem asDate_isoformat (d : Date) : asDate (F := F) (.str d.isoformat) = some d := by
  rw [asDate, asStr_str, Option.bind_some, date_fromisoformat]

def asUuid (v : Value F) : Option UUID := (asStr v).bind ofText

@[simp] theorem asUuid_text (id : UUID) : asUuid (F := F) (.str id.text) = some id := by
  rw [asUuid, asStr_str, Option.bind_some, ofText_text]

def asImage (v : Value F) : Option Image := (asStr v).map .text

def optStr : Option String → Value F
  | none => .null
  | some s => .str s

/-- A field that may be `None`. -/
theorem getField_optStr {data : Entries F} {key : String} {s : Option String}
    (h : data.lookup key = some (optStr s)) : getField data key asStr = some s := by
  rw [getField, h]
  cases s <;> rfl

/-- Entries whose keys are converted, the fields without a value apart. -/
theorem mapKeys_entries {f : String → String} {fields : List (String × Option (Value F))}
    (h : (fields.map fun field => f field.1).Nodup) :
    mapKeys f (entries fields) = entries (fields.map fun field => (f field.1, field.2)) := by
  have hentries : (entries fields).map (fun e => (f e.1, e.2)) =
      entries (fields.map fun field => (f field.1, field.2)) := by
    clear h
    induction fields with
    | nil => rfl
    | cons field fields ih =>
      obtain ⟨key, _ | value⟩ := field
      · exact ih
      · rw [entries, List.map_cons, ih]
        rfl
  have hkeys := (keys_entries_sublist fields).map f
  rw [List.map_map, List.map_map] at hkeys
  rw [mapKeys_of_nodup (h.sublist hkeys), hentries]

/-! Images and chip contents: bytes, or a text of them. -/

/-- The value that `to_dict` writes. -/
def imageText : Image → String
  | .text s => s
  | .bytes b => b64encode b

/-- The value used as a condition. -/
def imageTruthy : Image → Bool
  | .text s => s ≠ ""
  | .bytes b => b ≠ []

/-- `photo_bytes`, `face_image_bytes` and `chip_content_bytes` -/
def imageBytes : Option Image → Option (Option Bytes)
  | none => some none
  | some (.text s) => (b64decode s).map some
  | some (.bytes b) => some (some b)

/-- The image as a text. -/
def encoded (image : Option Image) : Option Image := image.map fun i => .text (imageText i)

theorem imageBytes_encoded (image : Option Image) :
    imageBytes (encoded image) = imageBytes image := by
  cases image with
  | none => rfl
  | some image =>
    cases image with
    | text s => rfl
    | bytes b => exact congrArg (Option.map some) (b64decode_b64encode b)

theorem validateImage_encoded {image : Option Image} (h : validateImage image = some image) :
    validateImage (encoded image) = some (encoded image) := by
  cases image with
  | none => rfl
  | some image =>
    cases image with
    | text s => exact h
    | bytes b =>
      change (b64decode (b64encode b)).map _ = _
      rw [b64decode_b64encode]
      rfl

theorem validateImage_eq_some {image image' : Option Image}
    (h : validateImage image = some image') : image' = image := by
  cases image with
  | none => exact (Option.some.inj h).symm
  | some image =>
    cases image with
    | bytes b => exact (Option.some.inj h).symm
    | text s =>
      obtain ⟨_, -, rfl⟩ := Option.map_eq_some_iff.mp h
      rfl

theorem getField_encoded {data : Entries F} {key : String} {image : Option Image}
    (h : data.lookup key = some (optStr (image.map imageText))) :
    getField data key asImage = some (encoded image) := by
  rw [getField, h]
  cases image <;> rfl

/-! Country codes. -/

section

variable {upper : String → String}

theorem validateCountryCode_upper (hupper : ∀ s, upper (upper s) = upper s) {v v' : String}
    (h : validateCountryCode upper v = some v') :
    validateCountryCode upper v' = if v'.length = 3 then some v' else none := by
  rw [validateCountryCode] at h
  split at h
  · cases h
  · obtain rfl := Option.some.inj h
    rw [validateCountryCode, hupper, ite_not]

end

/-- Two codes that are validated one after the other. -/
theorem bind_codes {β : Type u} {issuing nationality : String} {f : String → String → Option β} :
    ((if issuing.length = 3 then some issuing else none).bind fun issuing =>
      (if nationality.length = 3 then some nationality else none).bind (f issuing)) =
      if issuing.length = 3 ∧ nationality.length = 3 then f issuing nationality else none := by
  by_cases hi : issuing.length = 3
  · rw [if_pos hi, Option.bind_some]
    by_cases hn : nationality.length = 3
    · rw [if_pos hn, if_pos (And.intro hi hn), Option.bind_some]
    · have hlost : ¬ (issuing.length = 3 ∧ nationality.length = 3) := fun h => hn h.2
      rw [if_neg hn, if_neg hlost, Option.bind_none]
  · have hlost : ¬ (issuing.length = 3 ∧ nationality.length = 3) := fun h => hi h.1
    rw [if_neg hi, if_neg hlost, Option.bind_none]

structure PassportData where
  documentNumber : String
  issuingCountry : String
  surname : String
  givenNames : String
  nationality : String
  dateOfBirth : Date
  gender : Gender
  dateOfExpiry : Date
  personalNumber : Option String := none
  photo : Option Image := none
  deriving DecidableEq

namespace PassportData

/-- The same data with the dates as ordinals. -/
def holder (p : PassportData) : HolderDates.PassportData where
  documentNumber := p.documentNumber
  issuingCountry := p.issuingCountry
  surname := p.surname
  givenNames := p.givenNames
  nationality := p.nationality
  dateOfBirth := p.dateOfBirth.toordinal
  gender := p.gender
  dateOfExpiry := p.dateOfExpiry.toordinal
  personalNumber := p.personalNumber
  photo := p.photo

/-- `PassportData(...)` -/
def new (upper : String → String) (p : PassportData) : Option PassportData := do
  let issuingCountry ← validateCountryCode upper p.issuingCountry
  let nationality ← validateCountryCode upper p.nationality
  let _ ← validateExpiryDate p.dateOfBirth.toordinal p.dateOfExpiry.toordinal
  let photo ← validateImage p.photo
  some { p with
    issuingCountry := issuingCountry
    nationality := nationality
    photo := photo }

theorem holder_new (upper : String → String) (p : PassportData) :
    (new upper p).map holder = HolderDates.PassportData.new upper p.holder := by
  rw [new, HolderDates.PassportData.new, holder]
  cases validateCountryCode upper p.issuingCountry with
  | none => rfl
  | some issuingCountry =>
    cases validateCountryCode upper p.nationality with
    | none => rfl
    | some nationality =>
      cases hexpiry : validateExpiryDate p.dateOfBirth.toordinal p.dateOfExpiry.toordinal with
      | none => rfl
      | some dateOfExpiry =>
        obtain ⟨rfl, -⟩ := HolderDates.validateExpiryDate_eq_some hexpiry
        cases validateImage p.photo with
        | none => rfl
        | some photo => rfl

def fieldNames : List String := ["document_number", "issuing_country", "surname", "given_names",
  "nationality", "date_of_birth", "gender", "date_of_expiry", "personal_number", "photo"]

/-- `model_dump()`, with the photo and the dates as texts. -/
def dump (p : PassportData) : Entries F := [
  ("document_number", .str p.documentNumber),
  ("issuing_country", .str p.issuingCountry),
  ("surname", .str p.surname),
  ("given_names", .str p.givenNames),
  ("nationality", .str p.nationality),
  ("date_of_birth", .str p.dateOfBirth.isoformat),
  ("gender", .str (StrEnum.value p.gender)),
  ("date_of_expiry", .str p.dateOfExpiry.isoformat),
  ("personal_number", optStr p.personalNumber),
  ("photo", optStr (p.photo.map imageText))]

def toDict (p : PassportData) : Entries F := snakeToCamelDict p.dump

/-- `PassportData(**data)`, with the texts of dates read; other fields are forbidden. -/
def ofFields (upper : String → String) (data : Entries F) : Option PassportData := do
  if !data.all (·.1 ∈ fieldNames) then none
  let documentNumber ← required data "document_number" asStr
  let issuingCountry ← required data "issuing_country" asStr
  let surname ← required data "surname" asStr
  let givenNames ← required data "given_names" asStr
  let nationality ← required data "nationality" asStr
  let dateOfBirth ← required data "date_of_birth" asDate
  let gender ← required data "gender" asStrEnum
  let dateOfExpiry ← required data "date_of_expiry" asDate
  let personalNumber ← getField data "personal_number" asStr
  let photo ← getField data "photo" asImage
  new upper {
    documentNumber
    issuingCountry
    surname
    givenNames
    nationality
    dateOfBirth
    gender
    dateOfExpiry
    personalNumber
    photo }

def fromDict (upper : String → String) (data : Entries F) : Option PassportData :=
  ofFields upper (camelToSnakeDict data)

theorem keys_dump (p : PassportData) : (p.dump (F := F)).map (·.1) = fieldNames := rfl

theorem restored_dump (p : PassportData) : Restored (p.dump (F := F)) := by
  rw [Restored, keys_dump]
  exact ⟨by decide +kernel, by decide +kernel⟩

/-- What is written is read, and validated again with the photo as a text. -/
theorem fromDict_toDict (upper : String → String) (p : PassportData) :
    fromDict (F := F) upper p.toDict = new upper { p with photo := encoded p.photo } := by
  have hnames : (p.dump (F := F)).all (·.1 ∈ fieldNames) = true := by
    rw [List.all_eq_true]
    intro e he
    rw [decide_eq_true_eq, ← keys_dump (F := F) p]
    exact List.mem_map_of_mem he
  have hpersonal : getField (p.dump (F := F)) "personal_number" asStr = some p.personalNumber :=
    getField_optStr rfl
  have hphoto : getField (p.dump (F := F)) "photo" asImage = some (encoded p.photo) :=
    getField_encoded rfl
  rw [fromDict, toDict, camelToSnakeDict_snakeToCamelDict p.restored_dump, ofFields, hnames,
    hpersonal, hphoto]
  simp [required, dump, List.lookup_cons]

/-- What the constructor has returned. -/
def Valid (upper : String → String) (p : PassportData) : Prop := ∃ q, new upper q = some p

/-- The same in every field, the photo as bytes. -/
def Same (p p' : PassportData) : Prop :=
  p' = { p with photo := p'.photo } ∧ imageBytes p'.photo = imageBytes p.photo

/-- The codes are still of three letters in upper case. -/
abbrev CodesKept (p : PassportData) : Prop :=
  p.issuingCountry.length = 3 ∧ p.nationality.length = 3

theorem same_encoded (p : PassportData) : p.Same { p with photo := encoded p.photo } :=
  ⟨rfl, imageBytes_encoded p.photo⟩

theorem fromDict_toDict_of_valid {upper : String → String} (hupper : ∀ s, upper (upper s) = upper s)
    {p : PassportData} (h : p.Valid upper) : fromDict (F := F) upper p.toDict =
      if p.CodesKept then some { p with photo := encoded p.photo } else none := by
  obtain ⟨q, hq⟩ := h
  obtain ⟨issuing, hissuing, hq⟩ := Option.bind_eq_some_iff.mp hq
  obtain ⟨nationality, hnationality, hq⟩ := Option.bind_eq_some_iff.mp hq
  obtain ⟨expiry, hexpiry, hq⟩ := Option.bind_eq_some_iff.mp hq
  obtain ⟨photo, hphoto, hq⟩ := Option.bind_eq_some_iff.mp hq
  obtain rfl := validateImage_eq_some hphoto
  cases hq
  rw [fromDict_toDict, new]
  simp only [validateCountryCode_upper hupper hissuing,
    validateCountryCode_upper hupper hnationality, hexpiry, validateImage_encoded hphoto, CodesKept]
  exact bind_codes

end PassportData

/-- `data` is whatever JSON has. -/
structure DataGroup (F : Type) where
  type : DataGroupType
  data : Value F

namespace DataGroup

def toDict (g : DataGroup F) : Entries F :=
  [("type", .str (StrEnum.value g.type)), ("data", g.data)]

def fromDict (data : Entries F) : Option (DataGroup F) := do
  if !data.all (·.1 ∈ ["type", "data"]) then none
  let type ← required data "type" asStrEnum
  let data ← required data "data" some
  some { type, data }

theorem fromDict_toDict (g : DataGroup F) : fromDict g.toDict = some g := by
  simp [fromDict, toDict, required, List.lookup_cons]

end DataGroup

abbrev DataGroups (F : Type) := List (String × DataGroup F)

def dataGroupsValue (groups : DataGroups F) : Value F :=
  .obj (groups.map fun e => (e.1, .obj e.2.toDict))

/-- Each group from its dictionary. -/
def asDataGroups (v : Value F) : Option (DataGroups F) :=
  (asEntries v).bind fun entries => entries.mapM fun e =>
    ((asEntries e.2).bind DataGroup.fromDict).map fun group => (e.1, group)

theorem asDataGroups_dataGroupsValue (groups : DataGroups F) :
    asDataGroups (dataGroupsValue groups) = some groups := by
  rw [asDataGroups, dataGroupsValue, asEntries_obj, Option.bind_some]
  induction groups with
  | nil => rfl
  | cons e groups ih =>
    rw [List.map_cons, List.mapM_cons, asEntries_obj, Option.bind_some, DataGroup.fromDict_toDict,
      ih]
    rfl

/-- The chip content that `to_dict` writes. -/
def chipEntry (chipContent : Option Image) : Option (Value F) :=
  (chipContent.filter imageTruthy).map fun image => .str (imageText image)

/-- Content that is not empty, or none at all. -/
abbrev ChipKept (chipContent : Option Image) : Prop :=
  chipContent ≠ some (.text "") ∧ chipContent ≠ some (.bytes [])

theorem validateImage_filter {image : Option Image} (h : validateImage image = some image)
    (p : Image → Bool) : validateImage (image.filter p) = some (image.filter p) := by
  cases image with
  | none => rfl
  | some i =>
    rw [Option.filter]
    split
    · exact h
    · rfl

/-- Content that is there but empty is not written. -/
theorem imageBytes_filter_iff {chipContent : Option Image} :
    imageBytes (encoded (chipContent.filter imageTruthy)) = imageBytes chipContent ↔
      ChipKept chipContent := by
  rw [imageBytes_encoded, ChipKept]
  cases chipContent with
  | none => simp
  | some image =>
    cases image with
    | text s =>
      by_cases hs : s = ""
      · subst hs
        simp [Option.filter, imageTruthy, imageBytes, b64decode]
      · simp [Option.filter, imageTruthy, hs]
    | bytes b =>
      by_cases hb : b = []
      · subst hb
        simp [Option.filter, imageTruthy, imageBytes]
      · simp [Option.filter, imageTruthy, hb]

theorem getField_chipEntry {data : Entries F} {key : String} {chipContent : Option Image}
    (h : data.lookup key = chipEntry chipContent) :
    getField data key asImage = some (encoded (chipContent.filter imageTruthy)) := by
  rw [getField, h, chipEntry]
  cases chipContent.filter imageTruthy <;> rfl

structure Passport (F : Type) where
  id : UUID
  passportData : PassportData
  mrz : Option String := none
  securityObject : Option String := none
  chipContent : Option Image := none
  dataGroups : DataGroups F := []

namespace Passport

/-- `Passport(...)`, of data that has been validated. -/
def new (x : Passport F) : Option (Passport F) :=
  (validateImage x.chipContent).map fun chipContent => { x with chipContent }

def toDict (x : Passport F) : Entries F :=
  entries [
    ("id", some (.str x.id.text)),
    ("documentData", some (.obj x.passportData.toDict)),
    ("mrz", some (optStr x.mrz)),
    ("securityObject", some (optStr x.securityObject)),
    ("dataGroups", some (dataGroupsValue x.dataGroups)),
    ("chipContent", chipEntry x.chipContent)]

def fromDict (upper : String → String) (data : Entries F) : Option (Passport F) := do
  let documentData ← required data "documentData" asEntries
  let passportData ← PassportData.fromDict upper documentData
  let id ← required data "id" asUuid
  let dataGroups ← ifPresent data "dataGroups" asDataGroups
  let mrz ← getField data "mrz" asStr
  let securityObject ← getField data "securityObject" asStr
  let chipContent ← getField data "chipContent" asImage
  new { id, passportData, mrz, securityObject, chipContent, dataGroups := dataGroups.getD [] }

/-- What the constructor has returned. -/
def Valid (upper : String → String) (x : Passport F) : Prop :=
  x.passportData.Valid upper ∧ ∃ y, new y = some x

/-- The same in every field, the photo and the chip content as bytes. -/
def Same (x x' : Passport F) : Prop :=
  x' = { x with passportData := x'.passportData, chipContent := x'.chipContent } ∧
    x.passportData.Same x'.passportData ∧ imageBytes x'.chipContent = imageBytes x.chipContent

/-- What is written is read again, but for the chip content and the codes. -/
theorem fromDict_toDict {upper : String → String} (hupper : ∀ s, upper (upper s) = upper s)
    {x : Passport F} (h : x.Valid upper) : fromDict upper x.toDict =
      if x.passportData.CodesKept then
        new { x with
          passportData := { x.passportData with photo := encoded x.passportData.photo }
          chipContent := encoded (x.chipContent.filter imageTruthy) }
      else none := by
  have hdata : PassportData.fromDict (F := F) upper x.passportData.toDict = _ :=
    PassportData.fromDict_toDict_of_valid hupper h.1
  have hmrz : getField x.toDict "mrz" asStr = some x.mrz := by
    apply getField_optStr
    simp [toDict, lookup_entries_cons]
  have hobject : getField x.toDict "securityObject" asStr = some x.securityObject := by
    apply getField_optStr
    simp [toDict, lookup_entries_cons]
  have hchip : getField x.toDict "chipContent" asImage =
      some (encoded (x.chipContent.filter imageTruthy)) := by
    apply getField_chipEntry
    simp [toDict, lookup_entries_cons, lookup_entries_nil]
  have hgroups : ifPresent x.toDict "dataGroups" asDataGroups = some (some x.dataGroups) := by
    simp [ifPresent, toDict, lookup_entries_cons, asDataGroups_dataGroupsValue]
  have hid : required x.toDict "id" asUuid = some x.id := by
    simp [required, toDict, lookup_entries_cons]
  have hdocument : required x.toDict "documentData" asEntries = some x.passportData.toDict := by
    simp [required, toDict, lookup_entries_cons]
  rw [fromDict, hdocument, hid, hgroups, hmrz, hobject, hchip]
  simp only [Option.bind_eq_bind, Option.bind_some, hdata]
  by_cases hcodes : x.passportData.CodesKept
  · rw [if_pos hcodes, if_pos hcodes]
    rfl
  · rw [if_neg hcodes, if_neg hcodes]
    rfl

/-- `from_dict(to_dict(x))` succeeds with the same passport. -/
def RoundTrips (upper : String → String) (x : Passport F) : Prop :=
  ∃ x', fromDict upper x.toDict = some x' ∧ x.Same x'

theorem roundTrips_iff {upper : String → String} (hupper : ∀ s, upper (upper s) = upper s)
    {x : Passport F} (h : x.Valid upper) :
    x.RoundTrips upper ↔ x.passportData.CodesKept ∧ ChipKept x.chipContent := by
  have hchip : validateImage x.chipContent = some x.chipContent := by
    obtain ⟨y, hy⟩ := h.2
    obtain ⟨chipContent, hvalid, rfl⟩ := Option.map_eq_some_iff.mp hy
    obtain rfl := validateImage_eq_some hvalid
    exact hvalid
  have hnew := validateImage_encoded (validateImage_filter hchip imageTruthy)
  rw [RoundTrips, fromDict_toDict hupper h]
  by_cases hcodes : x.passportData.CodesKept
  · rw [if_pos hcodes, new, hnew, Option.map_some, and_iff_right hcodes,
      ← imageBytes_filter_iff]
    constructor
    · rintro ⟨x', hx', -, -, hbytes⟩
      cases hx'
      exact hbytes
    · exact fun hbytes => ⟨_, rfl, rfl, x.passportData.same_encoded, hbytes⟩
  · rw [if_neg hcodes]
    refine iff_of_false ?_ fun hkept => hcodes hkept.1
    rintro ⟨x', hnone, -⟩
    cases hnone

end Passport

end Marty.Models.Documents
