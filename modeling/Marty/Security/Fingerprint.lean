import Marty.Security.BiometricRecords

/-! `FingerprintTemplate`: the format and the metadata of its data, the minutiae and the quality
score.  The counts of ridges, which nothing reads, are left out. -/

namespace Marty.Security.Fingerprint

open Lib.BigEndian BiometricRecords

inductive FingerprintFormat
  | wsq | isoFingerMinutiae | ansiFingerMinutiae | isoFingerPattern
  deriving DecidableEq

structure Minutia where
  id : Nat
  x : Nat
  y : Nat
  angle : Nat
  type : String
  quality : Nat
  deriving DecidableEq

inductive BiometricQualityLevel
  | excellent | good | fair | poor | unusable
  deriving DecidableEq

structure BiometricQualityScore where
  overallScore : Nat
  qualityLevel : BiometricQualityLevel
  assessmentAlgorithm : String
  individualScores : List (String × Nat)
  qualityIssues : List String
  overallScore_le : overallScore ≤ 100
  deriving DecidableEq

def BiometricQualityScore.new (overallScore : Nat) (qualityLevel : BiometricQualityLevel)
    (assessmentAlgorithm : String) (individualScores : List (String × Nat))
    (qualityIssues : List String) : Except String BiometricQualityScore :=
  if h : overallScore ≤ 100 then
    .ok ⟨overallScore, qualityLevel, assessmentAlgorithm, individualScores, qualityIssues, h⟩
  else .error "Quality score must be between 0 and 100"

structure FingerprintTemplate where
  header : BiometricHeader
  templateData : Bytes
  format : FingerprintFormat
  imageWidth : Nat
  imageHeight : Nat
  resolution : Nat
  minutiaeCount : Nat := 0
  minutiaePoints : List Minutia := []
  qualityScore : Option BiometricQualityScore := none
  deriving DecidableEq

def detectFingerprintFormat (templateData : Bytes) : FingerprintFormat :=
  if [0xff, 0xa0].isPrefixOf templateData then .wsq
  else if 4 ≤ templateData.length then
    match value (slice templateData 0 4) with
    | 0x464D5200 => .isoFingerMinutiae
    | 0x414E5349 => .ansiFingerMinutiae
    | _ => .isoFingerMinutiae
  else .isoFingerMinutiae

/-- The width, the height and the resolution. -/
def extractFingerprintMetadata (templateData : Bytes) (fmt : FingerprintFormat) : Nat × Nat × Nat :=
  if fmt = .isoFingerMinutiae ∧ 20 ≤ templateData.length then
    (value (slice templateData 14 16), value (slice templateData 16 18),
      value (slice templateData 18 20))
  else (256, 360, 500)

/-- What the data declares, at most 100. -/
def countMinutiae (templateData : Bytes) (fmt : FingerprintFormat) : Nat :=
  if fmt = .isoFingerMinutiae ∧ 30 ≤ templateData.length then
    min (value (slice templateData 28 30)) 100
  else 0

/-- `secrets.randbelow`, from the draws of a run. -/
def randbelow (draw : Nat → Nat) (k n : Nat) : Except String Nat :=
  if n = 0 then .error "Upper bound must be positive." else .ok (draw k % n)

def isoMinutia (data : Bytes) (i offset : Nat) : Except String Minutia := do
  let x ← unpack 2 (slice data offset (offset + 2))
  let y ← unpack 2 (slice data (offset + 2) (offset + 4))
  let angleType ← unpack 2 (slice data (offset + 4) (offset + 6))
  return {
    id := i + 1
    x
    y
    angle := (angleType &&& 0xFF00) >>> 8
    type := if angleType &&& 0x00C0 = 0x0040 then "ridge_ending" else "ridge_bifurcation"
    quality := (angleType &&& 0x003F) * 100 / 63 }

/-- The loop of `_extract_iso_minutiae`, with the turns that are left. -/
def isoMinutiae (data : Bytes) : Nat → Nat → Nat → Except String (List Minutia)
  | 0, _, _ => .ok []
  | turns + 1, i, offset =>
    if offset + 6 > data.length then .ok []
    else do
      let minutia ← isoMinutia data i offset
      let minutiae ← isoMinutiae data turns (i + 1) (offset + 6)
      return minutia :: minutiae

def readIsoMinutiae (data : Bytes) : Except String (List Minutia) := do
  let _ ← unpack 4 (slice data 0 4)
  let _ ← unpack 4 (slice data 4 8)
  let minutiaeCount ← unpack 2 (slice data 28 30)
  isoMinutiae data (min minutiaeCount 100) 0 30

def meanScore (scores : List (String × Nat)) : Nat :=
  (scores.map (·.2)).sum / scores.length

def qualityLevel (overallScore : Nat) : BiometricQualityLevel :=
  if 85 ≤ overallScore then .excellent
  else if 70 ≤ overallScore then .good
  else if 55 ≤ overallScore then .fair
  else if 40 ≤ overallScore then .poor
  else .unusable

namespace FingerprintTemplate

variable (template : FingerprintTemplate)

def drawMinutiae (draw : Nat → Nat) : Except String (List Minutia) :=
  (List.range (min template.minutiaeCount 50)).mapM fun i => do
    let x ← randbelow draw (4 * i) template.imageWidth
    let y ← randbelow draw (4 * i + 1) template.imageHeight
    let angle ← randbelow draw (4 * i + 2) 360
    let quality ← randbelow draw (4 * i + 3) 100
    return {
      id := i + 1
      x
      y
      angle
      type := if i % 2 = 0 then "ridge_ending" else "ridge_bifurcation"
      quality := quality + 1 }

/-- The placeholder, which draws its minutiae. -/
def extractWsqMinutiae (draw : Nat → Nat) : Except String (FingerprintTemplate × List Minutia) :=
  (template.drawMinutiae draw).map fun minutiae =>
    ({ template with minutiaePoints := minutiae }, minutiae)

def extractIsoMinutiae : FingerprintTemplate × List Minutia :=
  if template.templateData.length < 28 then (template, [])
  else
    match readIsoMinutiae template.templateData with
    | .error _ => (template, [])
    | .ok minutiae => ({ template with minutiaePoints := minutiae }, minutiae)

def extractMinutiae (draw : Nat → Nat) : Except String (FingerprintTemplate × List Minutia) :=
  match template.format with
  | .wsq => (template.extractWsqMinutiae draw).mapError ("Failed to extract minutiae: " ++ ·)
  | .isoFingerMinutiae => .ok template.extractIsoMinutiae
  | .ansiFingerMinutiae | .isoFingerPattern => .ok (template, [])

def individualScores : List (String × Nat) := [
  ("minutiae_count",
    if 30 ≤ template.minutiaeCount then 100
    else if 20 ≤ template.minutiaeCount then 80
    else if 12 ≤ template.minutiaeCount then 60
    else 30),
  ("resolution",
    if 500 ≤ template.resolution then 100 else if 400 ≤ template.resolution then 80 else 60),
  ("template_size",
    if 1000 ≤ template.templateData.length then 100
    else if 500 ≤ template.templateData.length then 80
    else 60),
  ("format", if template.format ∈ [.isoFingerMinutiae, .wsq] then 100 else 70)]

def qualityIssues : List String :=
  (if template.minutiaeCount < 12 then
    ["Low minutiae count: " ++ toString template.minutiaeCount] else []) ++
  (if template.resolution < 400 then
    ["Low resolution: " ++ toString template.resolution ++ " DPI"] else []) ++
  (if template.templateData.length < 500 then ["Small template size"] else []) ++
  (if template.format ∈ [.isoFingerMinutiae, .wsq] then []
    else ["Non-standard fingerprint format"])

/-- The score, and the template that keeps it. -/
def calculateFingerprintQuality : Except String (FingerprintTemplate × BiometricQualityScore) :=
  (do
    let overallScore := meanScore template.individualScores
    let score ← BiometricQualityScore.new overallScore (qualityLevel overallScore)
      "Marty_Fingerprint_Quality_v1.0" template.individualScores template.qualityIssues
    return ({ template with qualityScore := some score }, score)).mapError
      ("Failed to calculate fingerprint quality: " ++ ·)

/-- The template of one record, before its minutiae and its score. -/
def ofRecord (header : BiometricHeader) (templateData : Bytes) : FingerprintTemplate :=
  let fpFormat := detectFingerprintFormat templateData
  let (width, height, resolution) := extractFingerprintMetadata templateData fpFormat
  { header, templateData, format := fpFormat, imageWidth := width, imageHeight := height,
    resolution, minutiaeCount := countMinutiae templateData fpFormat }

/-- What `process_dg3_fingerprint` does with a record. -/
def process (enableQualityAssessment : Bool) (draw : Nat → Nat) (header : BiometricHeader)
    (templateData : Bytes) : Except String FingerprintTemplate := do
  let (template, _) ← (ofRecord header templateData).extractMinutiae draw
  if enableQualityAssessment then
    let (template, _) ← template.calculateFingerprintQuality
    return template
  else return template

end FingerprintTemplate

/-- The loop reads what is declared, as far as the data goes. -/
theorem isoMinutiae_length (data : Bytes) (turns i offset : Nat) :
    ∃ minutiae, isoMinutiae data turns i offset = .ok minutiae ∧
      minutiae.length = min turns ((data.length - offset) / 6) := by
  induction turns generalizing i offset with
  | zero => exact ⟨[], rfl, (Nat.zero_min _).symm⟩
  | succ turns ih =>
    by_cases hend : offset + 6 > data.length
    · refine ⟨[], by rw [isoMinutiae, if_pos hend], ?_⟩
      have hdiv : (data.length - offset) / 6 = 0 := Nat.div_eq_of_lt (by omega)
      rw [hdiv, Nat.min_zero]
      rfl
    · obtain ⟨minutiae, hminutiae, hlength⟩ := ih (i + 1) (offset + 6)
      have hread : ∀ start, start + 2 ≤ data.length →
          unpack 2 (slice data start (start + 2)) = .ok (value (slice data start (start + 2))) := by
        intro start hstart
        apply unpack_of_length
        rw [length_slice hstart, Nat.add_sub_cancel_left]
      have hx := hread offset (by omega)
      have hy := hread (offset + 2) (by omega)
      have hangle := hread (offset + 4) (by omega)
      simp only [Nat.add_assoc, Nat.reduceAdd] at hy hangle
      rw [isoMinutiae, if_neg hend, isoMinutia, hx, hy, hangle, hminutiae]
      refine ⟨_, rfl, ?_⟩
      rw [List.length_cons, hlength]
      omega

theorem readIsoMinutiae_length {data : Bytes} (h : 30 ≤ data.length) :
    ∃ minutiae, readIsoMinutiae data = .ok minutiae ∧
      minutiae.length = min (min (value (slice data 28 30)) 100) ((data.length - 30) / 6) := by
  obtain ⟨minutiae, hminutiae, hlength⟩ :=
    isoMinutiae_length data (min (value (slice data 28 30)) 100) 0 30
  have hfirst : unpack 4 (slice data 0 4) = .ok (value (slice data 0 4)) :=
    unpack_of_length (length_slice (by omega))
  have hsecond : unpack 4 (slice data 4 8) = .ok (value (slice data 4 8)) :=
    unpack_of_length (length_slice (by omega))
  have hcount : unpack 2 (slice data 28 30) = .ok (value (slice data 28 30)) :=
    unpack_of_length (length_slice h)
  refine ⟨minutiae, ?_, hlength⟩
  rw [readIsoMinutiae, hfirst, hsecond, hcount]
  exact hminutiae

/-- Data that ends before the count. -/
theorem readIsoMinutiae_of_lt {data : Bytes} (h : data.length < 30) :
    ∃ e, readIsoMinutiae data = .error e := by
  have hcount : ∃ e, unpack 2 (slice data 28 30) = .error e := by
    refine ⟨_, if_neg ?_⟩
    rw [slice, List.length_take, List.length_drop]
    omega
  obtain ⟨e, he⟩ := hcount
  rw [readIsoMinutiae, he]
  cases unpack 4 (slice data 0 4) with
  | error e => exact ⟨e, rfl⟩
  | ok first =>
    cases unpack 4 (slice data 4 8) with
    | error e => exact ⟨e, rfl⟩
    | ok second => exact ⟨e, rfl⟩

namespace FingerprintTemplate

variable (template : FingerprintTemplate)

theorem extractIsoMinutiae_length :
    template.extractIsoMinutiae.2.length =
      if template.templateData.length < 30 then 0
      else min (min (value (slice template.templateData 28 30)) 100)
        ((template.templateData.length - 30) / 6) := by
  rw [extractIsoMinutiae]
  by_cases hheader : template.templateData.length < 28
  · rw [if_pos hheader, if_pos (by omega)]
    rfl
  · rw [if_neg hheader]
    by_cases hcount : template.templateData.length < 30
    · obtain ⟨e, he⟩ := readIsoMinutiae_of_lt hcount
      rw [he, if_pos hcount]
      rfl
    · obtain ⟨minutiae, hminutiae, hlength⟩ := readIsoMinutiae_length (Nat.not_lt.mp hcount)
      rw [hminutiae, if_neg hcount]
      exact hlength

theorem extractWsqMinutiae_keeps {draw : Nat → Nat} {template' : FingerprintTemplate}
    {minutiae : List Minutia} (h : template.extractWsqMinutiae draw = .ok (template', minutiae)) :
    ∃ points, template' = { template with minutiaePoints := points } := by
  rw [extractWsqMinutiae] at h
  cases hdrawn : template.drawMinutiae draw with
  | error e =>
    rw [hdrawn] at h
    cases h
  | ok points =>
    rw [hdrawn] at h
    cases h
    exact ⟨_, rfl⟩

theorem extractIsoMinutiae_keeps :
    ∃ points, template.extractIsoMinutiae.1 = { template with minutiaePoints := points } := by
  rw [extractIsoMinutiae]
  split
  · exact ⟨template.minutiaePoints, rfl⟩
  · split
    · exact ⟨template.minutiaePoints, rfl⟩
    · exact ⟨_, rfl⟩

/-- The extraction changes nothing but the points. -/
theorem extractMinutiae_keeps {draw : Nat → Nat} {template' : FingerprintTemplate}
    {minutiae : List Minutia} (h : template.extractMinutiae draw = .ok (template', minutiae)) :
    ∃ points, template' = { template with minutiaePoints := points } := by
  rw [extractMinutiae] at h
  split at h
  · cases hdrawn : template.extractWsqMinutiae draw with
    | error e =>
      rw [hdrawn] at h
      cases h
    | ok drawn =>
      rw [hdrawn] at h
      cases h
      exact template.extractWsqMinutiae_keeps hdrawn
  · obtain ⟨points, hpoints⟩ := template.extractIsoMinutiae_keeps
    rw [Except.ok.inj h] at hpoints
    exact ⟨points, hpoints⟩
  · cases h
    exact ⟨template.minutiaePoints, rfl⟩
  · cases h
    exact ⟨template.minutiaePoints, rfl⟩

/-- A score is the mean of four that are at most 100. -/
theorem meanScore_individualScores_le : meanScore template.individualScores ≤ 100 := by
  have hscore : ∀ score ∈ template.individualScores.map (·.2), score ≤ 100 := by
    simp only [individualScores, List.map_cons, List.map_nil, List.mem_cons, List.not_mem_nil,
      or_false]
    rintro score (rfl | rfl | rfl | rfl) <;> split <;> grind
  have hsum := List.sum_le_card_nsmul _ 100 hscore
  rw [List.length_map, nsmul_eq_mul, Nat.cast_id] at hsum
  rw [meanScore]
  exact Nat.div_le_of_le_mul hsum

theorem calculateFingerprintQuality_ok : ∃ score, template.calculateFingerprintQuality =
    .ok ({ template with qualityScore := some score }, score) := by
  simp only [calculateFingerprintQuality, BiometricQualityScore.new,
    template.meanScore_individualScores_le]
  exact ⟨_, rfl⟩

theorem drawMinutiae_of_zero (draw : Nat → Nat) (h : template.minutiaeCount = 0) :
    template.drawMinutiae draw = .ok [] := by
  rw [drawMinutiae, h]
  rfl

/-- A WSQ template of a data group declares no minutiae, so that none is drawn. -/
theorem extractMinutiae_ofRecord (draw : Nat → Nat) (header : BiometricHeader)
    (templateData : Bytes) : ∃ points minutiae,
      (ofRecord header templateData).extractMinutiae draw =
        .ok ({ ofRecord header templateData with minutiaePoints := points }, minutiae) := by
  have hok : ∃ extracted, (ofRecord header templateData).extractMinutiae draw = .ok extracted := by
    rw [extractMinutiae]
    split
    · rename_i hformat
      have hcount : (ofRecord header templateData).minutiaeCount = 0 := by
        change detectFingerprintFormat templateData = .wsq at hformat
        change countMinutiae templateData (detectFingerprintFormat templateData) = 0
        rw [hformat]
        exact if_neg fun hiso => by cases hiso.1
      rw [extractWsqMinutiae, drawMinutiae_of_zero _ draw hcount]
      exact ⟨_, rfl⟩
    · exact ⟨_, rfl⟩
    · exact ⟨_, rfl⟩
    · exact ⟨_, rfl⟩
  obtain ⟨⟨template', minutiae⟩, hextracted⟩ := hok
  obtain ⟨points, rfl⟩ := extractMinutiae_keeps _ hextracted
  exact ⟨points, minutiae, hextracted⟩

theorem process_ok (enableQualityAssessment : Bool) (draw : Nat → Nat) (header : BiometricHeader)
    (templateData : Bytes) : ∃ points score,
      process enableQualityAssessment draw header templateData = .ok
        { ofRecord header templateData with minutiaePoints := points, qualityScore := score } := by
  obtain ⟨points, minutiae, hextracted⟩ := extractMinutiae_ofRecord draw header templateData
  rw [process, hextracted]
  cases enableQualityAssessment with
  | false => exact ⟨points, none, rfl⟩
  | true =>
    obtain ⟨score, hscore⟩ := calculateFingerprintQuality_ok
      { ofRecord header templateData with minutiaePoints := points }
    refine ⟨points, some score, ?_⟩
    exact congrArg (Except.map Prod.fst) hscore

end FingerprintTemplate

end Marty.Security.Fingerprint
