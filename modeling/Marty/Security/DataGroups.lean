import Marty.Security.Fingerprint

/-! `process_dg3_fingerprint` and `process_dg4_iris`: the templates of all records of a data group,
what they leave of its bytes, and the minutiae that they count.  The device names of the iris
templates, which are drawn, are left out. -/

namespace Marty.Security.DataGroups

open Lib.BigEndian BiometricRecords Fingerprint

/-- The angle is the bits of a float. -/
structure IrisTemplate where
  header : BiometricHeader
  templateData : Bytes
  imageFormat : String
  imageDiameter : Nat
  rotationAngle : Nat := 0
  irisCenterX : Nat := 0
  irisCenterY : Nat := 0
  irisRadius : Nat := 0
  pupilRadius : Nat := 0
  qualityScore : Option BiometricQualityScore := none
  deriving DecidableEq

/-- The diameter and the angle. -/
def extractIrisMetadata (templateData : Bytes) : Nat × Nat :=
  if 16 ≤ templateData.length then
    (value (slice templateData 8 10), value (slice templateData 12 16))
  else (200, 0)

namespace IrisTemplate

def ofRecord (header : BiometricHeader) (templateData : Bytes) : IrisTemplate :=
  let (irisDiameter, rotation) := extractIrisMetadata templateData
  { header, templateData, imageFormat := "ISO_19794_6", imageDiameter := irisDiameter,
    rotationAngle := rotation, irisCenterX := irisDiameter / 2, irisCenterY := irisDiameter / 2,
    irisRadius := irisDiameter / 3, pupilRadius := irisDiameter / 8 }

/-- What `process_dg4_iris` does with a record, over the score of an iris. -/
def process (calculateIrisQuality : IrisTemplate → BiometricQualityScore)
    (enableQualityAssessment : Bool) (header : BiometricHeader) (templateData : Bytes) :
    Except String IrisTemplate :=
  let template := ofRecord header templateData
  if enableQualityAssessment then
    .ok { template with qualityScore := some (calculateIrisQuality template) }
  else .ok template

end IrisTemplate

section

variable (enableQualityAssessment : Bool) (draw : Nat → Nat)
  (calculateIrisQuality : IrisTemplate → BiometricQualityScore)

def processDg3Fingerprint (dg3Data : Bytes) :
    Except BiometricTemplateError (List FingerprintTemplate) :=
  processGroup "DG3 fingerprint" .finger
    (FingerprintTemplate.process enableQualityAssessment draw) dg3Data

def processDg4Iris (dg4Data : Bytes) : Except BiometricTemplateError (List IrisTemplate) :=
  processGroup "DG4 iris" .iris (IrisTemplate.process calculateIrisQuality enableQualityAssessment)
    dg4Data

theorem keeps_fingerprint : Keeps (FingerprintTemplate.process enableQualityAssessment draw)
    (·.header) (·.templateData) := by
  intro header data
  obtain ⟨points, score, hprocess⟩ :=
    FingerprintTemplate.process_ok enableQualityAssessment draw header data
  exact ⟨_, hprocess, rfl, rfl⟩

theorem keeps_iris : Keeps (IrisTemplate.process calculateIrisQuality enableQualityAssessment)
    (·.header) (·.templateData) := by
  intro header data
  cases enableQualityAssessment with
  | false => exact ⟨_, rfl, rfl, rfl⟩
  | true => exact ⟨_, rfl, rfl, rfl⟩

/-- Whole records give a template each, and any data end with templates or with an error. -/
theorem records_processed :
    (∀ rs : List Record,
      (∃ templates, processDg3Fingerprint enableQualityAssessment draw (Record.encodeAll rs) =
          .ok templates ∧ Templates .finger (·.header) (·.templateData) rs templates) ∧
      (∃ templates, processDg4Iris enableQualityAssessment calculateIrisQuality
          (Record.encodeAll rs) = .ok templates ∧
          Templates .iris (·.header) (·.templateData) rs templates)) ∧
    ∀ data : Bytes,
      ((∃ templates, processDg3Fingerprint enableQualityAssessment draw data = .ok templates ∧
          24 * templates.length ≤ data.length) ∨
        ∃ e, processDg3Fingerprint enableQualityAssessment draw data = .error e) ∧
      ((∃ templates, processDg4Iris enableQualityAssessment calculateIrisQuality data =
          .ok templates ∧ 24 * templates.length ≤ data.length) ∨
        ∃ e, processDg4Iris enableQualityAssessment calculateIrisQuality data = .error e) := by
  have hfinger := keeps_fingerprint enableQualityAssessment draw
  have hiris := keeps_iris enableQualityAssessment calculateIrisQuality
  constructor
  · intro rs
    exact ⟨processGroup_encodeAll _ hfinger rs, processGroup_encodeAll _ hiris rs⟩
  · intro data
    exact ⟨processGroup_ends _ hfinger data, processGroup_ends _ hiris data⟩

theorem no_silent_loss_iff (data : Bytes) :
    (NoSilentLoss .finger (·.header) (·.templateData)
        (processDg3Fingerprint enableQualityAssessment draw) data ↔ NothingTruncated data) ∧
      (NoSilentLoss .iris (·.header) (·.templateData)
        (processDg4Iris enableQualityAssessment calculateIrisQuality) data ↔
          NothingTruncated data) :=
  ⟨noSilentLoss_processGroup_iff _ (keeps_fingerprint enableQualityAssessment draw) data,
    noSilentLoss_processGroup_iff _ (keeps_iris enableQualityAssessment calculateIrisQuality) data⟩

/-- A record that states one byte of data, and ends there. -/
def cutRecord : Bytes :=
  [0, 27, 2, 1] ++ List.replicate 16 0 ++ pack 4 1

theorem cut_record_lost :
    processDg3Fingerprint true (fun _ => 0) cutRecord = .ok [] ∧
      ¬ NoSilentLoss .finger (·.header) (·.templateData)
        (processDg3Fingerprint true fun _ => 0) cutRecord := by
  have htruncated : Truncated cutRecord := .inr ⟨⟨by decide, by decide⟩, by decide⟩
  have hnone : processDg3Fingerprint true (fun _ => 0) cutRecord = .ok [] :=
    (processGroup_eq_ok_iff _ _ _ _ _).mpr ⟨[], cutRecord, rfl, htruncated, .nil⟩
  refine ⟨hnone, fun h => ?_⟩
  obtain ⟨rs, hdata, hrs⟩ := h [] hnone
  cases hrs
  cases hdata

/-- The count is that of the minutiae in the data, and the quality is scored by it. -/
def CountIsReal (template : FingerprintTemplate) : Prop :=
  ∃ template' minutiae, template.extractMinutiae draw = .ok (template', minutiae) ∧
    template.minutiaeCount = minutiae.length ∧
    template.calculateFingerprintQuality.map Prod.snd =
      ({ template with minutiaeCount := minutiae.length } :
        FingerprintTemplate).calculateFingerprintQuality.map Prod.snd

/-- All the minutiae that the data declare, up to 100, are in the data. -/
def DeclaredPresent (templateData : Bytes) : Prop :=
  30 ≤ templateData.length →
    30 + 6 * min (value (slice templateData 28 30)) 100 ≤ templateData.length

theorem countIsReal_iff {template : FingerprintTemplate}
    (hformat : template.format = .isoFingerMinutiae)
    (hcount : template.minutiaeCount = countMinutiae template.templateData .isoFingerMinutiae) :
    CountIsReal draw template ↔ DeclaredPresent template.templateData := by
  have hextract : template.extractMinutiae draw = .ok template.extractIsoMinutiae := by
    rw [FingerprintTemplate.extractMinutiae, hformat]
  have hequal : CountIsReal draw template ↔
      template.minutiaeCount = template.extractIsoMinutiae.2.length := by
    constructor
    · rintro ⟨template', minutiae, hextracted, hlength, -⟩
      rw [hextract] at hextracted
      rw [Except.ok.inj hextracted]
      exact hlength
    · intro hlength
      exact ⟨template.extractIsoMinutiae.1, template.extractIsoMinutiae.2, hextract, hlength,
        by rw [← hlength]⟩
  rw [hequal, template.extractIsoMinutiae_length, hcount, countMinutiae, DeclaredPresent]
  by_cases hshort : template.templateData.length < 30
  · rw [if_neg (by omega), if_pos hshort]
    exact iff_of_true rfl fun h => absurd hshort (Nat.not_lt.mpr h)
  · rw [if_pos ⟨rfl, Nat.not_lt.mp hshort⟩, if_neg hshort]
    omega

/-- The fingerprints of a data group are counted right exactly when the data hold what they
declare. -/
theorem minutiae_count_iff {dg3Data : Bytes} {templates : List FingerprintTemplate}
    (h : processDg3Fingerprint enableQualityAssessment draw dg3Data = .ok templates)
    {template : FingerprintTemplate} (hmem : template ∈ templates)
    (hformat : template.format = .isoFingerMinutiae) :
    CountIsReal draw template ↔ DeclaredPresent template.templateData := by
  obtain ⟨r, hprocess⟩ := exists_record_of_mem h hmem
  obtain ⟨points, score, hprocess'⟩ := FingerprintTemplate.process_ok enableQualityAssessment draw
    (r.cbeffHeader .finger) r.data
  rw [hprocess'] at hprocess
  cases hprocess
  refine countIsReal_iff draw hformat ?_
  change detectFingerprintFormat r.data = .isoFingerMinutiae at hformat
  change countMinutiae r.data (detectFingerprintFormat r.data) = countMinutiae r.data _
  rw [hformat]

/-- A record of a template with no minutiae but a count of them. -/
def emptyRecord (minutiaeCount : UInt8) : Record where
  header := [0, 27, 2, 1] ++ List.replicate 16 0
  data := List.replicate 29 0 ++ [minutiaeCount]
  length_header := rfl
  formatOwner_pos := by decide
  formatType_pos := by decide
  length_data := by
    rw [List.length_append, List.length_replicate, List.length_singleton]
    decide

def emptyTemplate (minutiaeCount : UInt8) : FingerprintTemplate :=
  FingerprintTemplate.ofRecord ((emptyRecord minutiaeCount).cbeffHeader .finger)
    (emptyRecord minutiaeCount).data

theorem processDg3Fingerprint_emptyRecord {minutiaeCount : UInt8}
    (h : FingerprintTemplate.process false (fun _ => 0)
      ((emptyRecord minutiaeCount).cbeffHeader .finger) (emptyRecord minutiaeCount).data =
        .ok (emptyTemplate minutiaeCount)) :
    processDg3Fingerprint false (fun _ => 0) (emptyRecord minutiaeCount).encode =
      .ok [emptyTemplate minutiaeCount] := by
  refine (processGroup_eq_ok_iff _ _ _ _ _).mpr
    ⟨[emptyRecord minutiaeCount], [], ?_, truncated_nil, .cons h .nil⟩
  rw [Record.encodeAll, List.flatMap_singleton, List.append_nil]

theorem empty_count_real : CountIsReal (fun _ => 0) (emptyTemplate 0) :=
  (minutiae_count_iff false (fun _ => 0) (processDg3Fingerprint_emptyRecord (by rfl))
    (List.mem_singleton.mpr rfl) (by decide)).mpr (by unfold DeclaredPresent; decide)

/-- Thirty minutiae are stored, and none is there. -/
theorem thirty_minutiae_counted :
    processDg3Fingerprint false (fun _ => 0) (emptyRecord 30).encode = .ok [emptyTemplate 30] ∧
      (emptyTemplate 30).format = .isoFingerMinutiae ∧ (emptyTemplate 30).minutiaeCount = 30 ∧
      (emptyTemplate 30).extractIsoMinutiae.2 = [] ∧
      ¬ CountIsReal (fun _ => 0) (emptyTemplate 30) := by
  refine ⟨processDg3Fingerprint_emptyRecord (by rfl), by decide, by decide, by decide, ?_⟩
  rw [countIsReal_iff (fun _ => 0) (by decide) (by decide)]
  intro h
  exact absurd (h (by decide)) (by decide)

end

end Marty.Security.DataGroups
