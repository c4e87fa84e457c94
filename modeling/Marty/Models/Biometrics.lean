import Marty.Lib.Base64
import Marty.Lib.Fields
import Marty.Lib.Isoformat

/-! `biometrics`: CBEFF containers and their dictionaries.  A value of another type than the field's
makes no record here. -/

namespace Marty.Models.Biometrics

open Lib Lib.JsonText Lib.Fields Lib.Base64
open Lib.Isoformat (Datetime fromisoformat fromisoformat_isoformat)

variable {F : Type}

/-! Enumerations. -/

inductive BiometricType
  | facial | finger | iris | signature | reserved

instance : IntEnum BiometricType where
  value
    | .facial => 1
    | .finger => 2
    | .iris => 3
    | .signature => 7
    | .reserved => 8
  members := [.facial, .finger, .iris, .signature, .reserved]
  member_value := by
    intro a
    cases a <;> rfl

inductive CompressionType
  | jpeg | jpeg2000 | png | wsq | uncompressed

namespace CompressionType

def value : CompressionType → String
  | .jpeg => "JPEG"
  | .jpeg2000 => "JPEG2000"
  | .png => "PNG"
  | .wsq => "WSQ"
  | .uncompressed => "UNCOMPRESSED"

def members : List CompressionType := [.jpeg, .jpeg2000, .png, .wsq, .uncompressed]

theorem member_value (a : CompressionType) : member members value a.value = some a := by
  cases a <;> rfl

end CompressionType

inductive FaceImageType
  | basic | fullFrontal | tokenFrontal

instance : IntEnum FaceImageType where
  value
    | .basic => 0
    | .fullFrontal => 1
    | .tokenFrontal => 2
  members := [.basic, .fullFrontal, .tokenFrontal]
  member_value := by
    intro a
    cases a <;> rfl

inductive FacePoseAngle
  | unspecified | frontal | halfLeft | left | halfRight | right

instance : IntEnum FacePoseAngle where
  value
    | .unspecified => 0
    | .frontal => 1
    | .halfLeft => 2
    | .left => 3
    | .halfRight => 4
    | .right => 5
  members := [.unspecified, .frontal, .halfLeft, .left, .halfRight, .right]
  member_value := by
    intro a
    cases a <;> rfl

inductive FaceFeaturePoint
  | rightEyeCenter | leftEyeCenter | mouthRightCorner | mouthLeftCorner | noseTip | rightEarTragus
  | leftEarTragus | rightEyeOuterCorner | rightEyeInnerCorner | leftEyeInnerCorner
  | leftEyeOuterCorner | noseRoot

instance : IntEnum FaceFeaturePoint where
  value
    | .rightEyeCenter => 1
    | .leftEyeCenter => 2
    | .mouthRightCorner => 3
    | .mouthLeftCorner => 4
    | .noseTip => 5
    | .rightEarTragus => 6
    | .leftEarTragus => 7
    | .rightEyeOuterCorner => 8
    | .rightEyeInnerCorner => 9
    | .leftEyeInnerCorner => 10
    | .leftEyeOuterCorner => 11
    | .noseRoot => 12
  members := [.rightEyeCenter, .leftEyeCenter, .mouthRightCorner, .mouthLeftCorner, .noseTip,
    .rightEarTragus, .leftEarTragus, .rightEyeOuterCorner, .rightEyeInnerCorner,
    .leftEyeInnerCorner, .leftEyeOuterCorner, .noseRoot]
  member_value := by
    intro a
    cases a <;> rfl

inductive FingerPosition
  | unknown | rightThumb | rightIndex | rightMiddle | rightRing | rightLittle | leftThumb
  | leftIndex | leftMiddle | leftRing | leftLittle

instance : IntEnum FingerPosition where
  value
    | .unknown => 0
    | .rightThumb => 1
    | .rightIndex => 2
    | .rightMiddle => 3
    | .rightRing => 4
    | .rightLittle => 5
    | .leftThumb => 6
    | .leftIndex => 7
    | .leftMiddle => 8
    | .leftRing => 9
    | .leftLittle => 10
  members := [.unknown, .rightThumb, .rightIndex, .rightMiddle, .rightRing, .rightLittle,
    .leftThumb, .leftIndex, .leftMiddle, .leftRing, .leftLittle]
  member_value := by
    intro a
    cases a <;> rfl

inductive FingerImpressionType
  | liveScanPlain | liveScanRolled | nonliveScanPlain | nonliveScanRolled | latentImpression
  | latentTracing | latentPhoto | latentLift

instance : IntEnum FingerImpressionType where
  value
    | .liveScanPlain => 0
    | .liveScanRolled => 1
    | .nonliveScanPlain => 2
    | .nonliveScanRolled => 3
    | .latentImpression => 4
    | .latentTracing => 5
    | .latentPhoto => 6
    | .latentLift => 7
  members := [.liveScanPlain, .liveScanRolled, .nonliveScanPlain, .nonliveScanRolled,
    .latentImpression, .latentTracing, .latentPhoto, .latentLift]
  member_value := by
    intro a
    cases a <;> rfl

inductive IrisImageType
  | uncropped | vga | cropped | croppedAndMasked

instance : IntEnum IrisImageType where
  value
    | .uncropped => 1
    | .vga => 2
    | .cropped => 3
    | .croppedAndMasked => 7
  members := [.uncropped, .vga, .cropped, .croppedAndMasked]
  member_value := by
    intro a
    cases a <;> rfl

inductive IrisEyePosition
  | undefined | right | left

instance : IntEnum IrisEyePosition where
  value
    | .undefined => 0
    | .right => 1
    | .left => 2
  members := [.undefined, .right, .left]
  member_value := by
    intro a
    cases a <;> rfl

/-! Records. -/

structure FeaturePoint where
  featureType : FaceFeaturePoint
  x : Int
  y : Int

namespace FeaturePoint

def toDict (p : FeaturePoint) : Entries F := entries [
  ("featureType", some (.int (IntEnum.value p.featureType))), ("x", some (.int p.x)),
  ("y", some (.int p.y))]

def fromDict (data : Entries F) : Option FeaturePoint := do
  let featureType ← required data "featureType" asEnum
  let x ← required data "x" asInt
  let y ← required data "y" asInt
  some ⟨featureType, x, y⟩

end FeaturePoint

structure FacialImageInfo where
  imageType : FaceImageType
  width : Int
  height : Int
  colorSpace : String
  sourceType : String
  deviceType : String
  quality : Option Int := none
  poseAngle : Option FacePoseAngle := none
  poseAngleYaw : Option Int := none
  poseAnglePitch : Option Int := none
  poseAngleRoll : Option Int := none
  featurePoints : List FeaturePoint := []

namespace FacialImageInfo

def toDict (info : FacialImageInfo) : Entries F := entries [
  ("imageType", some (.int (IntEnum.value info.imageType))),
  ("width", some (.int info.width)),
  ("height", some (.int info.height)),
  ("colorSpace", some (.str info.colorSpace)),
  ("sourceType", some (.str info.sourceType)),
  ("deviceType", some (.str info.deviceType)),
  ("quality", info.quality.map .int),
  ("poseAngle", info.poseAngle.map fun poseAngle => .int (IntEnum.value poseAngle)),
  ("poseAngleYaw", info.poseAngleYaw.map .int),
  ("poseAnglePitch", info.poseAnglePitch.map .int),
  ("poseAngleRoll", info.poseAngleRoll.map .int),
  ("featurePoints", if info.featurePoints.isEmpty then none
    else some (.arr (info.featurePoints.map fun fp => .obj fp.toDict)))]

def fromDict (data : Entries F) : Option FacialImageInfo := do
  let imageType ← required data "imageType" asEnum
  let width ← required data "width" asInt
  let height ← required data "height" asInt
  let colorSpace ← required data "colorSpace" asStr
  let sourceType ← required data "sourceType" asStr
  let deviceType ← required data "deviceType" asStr
  let quality ← getField data "quality" asInt
  let poseAngle ← ifPresent data "poseAngle" asEnum
  let poseAngleYaw ← getField data "poseAngleYaw" asInt
  let poseAnglePitch ← getField data "poseAnglePitch" asInt
  let poseAngleRoll ← getField data "poseAngleRoll" asInt
  let featurePoints ← ifPresent data "featurePoints" (asList fun fp =>
    (asEntries fp).bind FeaturePoint.fromDict)
  some ⟨imageType, width, height, colorSpace, sourceType, deviceType, quality, poseAngle,
    poseAngleYaw, poseAnglePitch, poseAngleRoll, featurePoints.getD []⟩

end FacialImageInfo

structure FingerImageInfo where
  position : FingerPosition
  width : Int
  height : Int
  impressionType : FingerImpressionType
  horizontalResolution : Int
  verticalResolution : Int
  grayscaleDepth : Int
  quality : Option Int := none

namespace FingerImageInfo

def toDict (info : FingerImageInfo) : Entries F := entries [
  ("position", some (.int (IntEnum.value info.position))),
  ("width", some (.int info.width)),
  ("height", some (.int info.height)),
  ("impressionType", some (.int (IntEnum.value info.impressionType))),
  ("horizontalResolution", some (.int info.horizontalResolution)),
  ("verticalResolution", some (.int info.verticalResolution)),
  ("grayscaleDepth", some (.int info.grayscaleDepth)),
  ("quality", info.quality.map .int)]

def fromDict (data : Entries F) : Option FingerImageInfo := do
  let position ← required data "position" asEnum
  let width ← required data "width" asInt
  let height ← required data "height" asInt
  let impressionType ← required data "impressionType" asEnum
  let horizontalResolution ← required data "horizontalResolution" asInt
  let verticalResolution ← required data "verticalResolution" asInt
  let grayscaleDepth ← required data "grayscaleDepth" asInt
  let quality ← getField data "quality" asInt
  some ⟨position, width, height, impressionType, horizontalResolution, verticalResolution,
    grayscaleDepth, quality⟩

end FingerImageInfo

structure IrisImageInfo where
  imageType : IrisImageType
  eyePosition : IrisEyePosition
  width : Int
  height : Int
  deviceUniqueId : String
  quality : Option Int := none

namespace IrisImageInfo

def toDict (info : IrisImageInfo) : Entries F := entries [
  ("imageType", some (.int (IntEnum.value info.imageType))),
  ("eyePosition", some (.int (IntEnum.value info.eyePosition))),
  ("width", some (.int info.width)),
  ("height", some (.int info.height)),
  ("deviceUniqueId", some (.str info.deviceUniqueId)),
  ("quality", info.quality.map .int)]

def fromDict (data : Entries F) : Option IrisImageInfo := do
  let imageType ← required data "imageType" asEnum
  let eyePosition ← required data "eyePosition" asEnum
  let width ← required data "width" asInt
  let height ← required data "height" asInt
  let deviceUniqueId ← required data "deviceUniqueId" asStr
  let quality ← getField data "quality" asInt
  some ⟨imageType, eyePosition, width, height, deviceUniqueId, quality⟩

end IrisImageInfo

structure BiometricDataBlock where
  biometricType : BiometricType
  biometricSubtype : Int
  creationDate : Datetime
  formatOwner : Int
  formatType : Int
  compressionType : CompressionType
  imageData : Bytes
  facialInfo : Option FacialImageInfo := none
  fingerInfo : Option FingerImageInfo := none
  irisInfo : Option IrisImageInfo := none

namespace BiometricDataBlock

def toDict (block : BiometricDataBlock) : Entries F := entries [
  ("biometricType", some (.int (IntEnum.value block.biometricType))),
  ("biometricSubtype", some (.int block.biometricSubtype)),
  ("creationDate", some (.str block.creationDate.isoformat)),
  ("formatOwner", some (.int block.formatOwner)),
  ("formatType", some (.int block.formatType)),
  ("compressionType", some (.str block.compressionType.value)),
  ("imageData", some (.str (b64encode block.imageData))),
  ("facialInfo", block.facialInfo.map fun info => .obj info.toDict),
  ("fingerInfo", block.fingerInfo.map fun info => .obj info.toDict),
  ("irisInfo", block.irisInfo.map fun info => .obj info.toDict)]

def fromDict (data : Entries F) : Option BiometricDataBlock := do
  let biometricType ← required data "biometricType" asEnum
  let biometricSubtype ← required data "biometricSubtype" asInt
  let creationDate ← required data "creationDate" fun value => (asStr value).bind fromisoformat
  let formatOwner ← required data "formatOwner" asInt
  let formatType ← required data "formatType" asInt
  let compressionType ← required data "compressionType" fun value =>
    (asStr value).bind (member CompressionType.members CompressionType.value)
  let imageData ← required data "imageData" fun value => (asStr value).bind b64decode
  let facialInfo ← ifPresent data "facialInfo" fun info =>
    (asEntries info).bind FacialImageInfo.fromDict
  let fingerInfo ← ifPresent data "fingerInfo" fun info =>
    (asEntries info).bind FingerImageInfo.fromDict
  let irisInfo ← ifPresent data "irisInfo" fun info =>
    (asEntries info).bind IrisImageInfo.fromDict
  some ⟨biometricType, biometricSubtype, creationDate, formatOwner, formatType, compressionType,
    imageData, facialInfo, fingerInfo, irisInfo⟩

end BiometricDataBlock

structure BiometricInfoGroup where
  biometricType : BiometricType
  formatOwner : Int
  formatType : Int
  elements : List BiometricDataBlock := []

namespace BiometricInfoGroup

def toDict (group : BiometricInfoGroup) : Entries F := entries [
  ("biometricType", some (.int (IntEnum.value group.biometricType))),
  ("formatOwner", some (.int group.formatOwner)),
  ("formatType", some (.int group.formatType)),
  ("elements", some (.arr (group.elements.map fun element => .obj element.toDict)))]

def fromDict (data : Entries F) : Option BiometricInfoGroup := do
  let biometricType ← required data "biometricType" asEnum
  let formatOwner ← required data "formatOwner" asInt
  let formatType ← required data "formatType" asInt
  let elements ← ifPresent data "elements" (asList fun element =>
    (asEntries element).bind BiometricDataBlock.fromDict)
  some ⟨biometricType, formatOwner, formatType, elements.getD []⟩

end BiometricInfoGroup

structure CBEFFContainer where
  version : Int := 1
  biometricGroups : List BiometricInfoGroup := []

namespace CBEFFContainer

variable (floats : FloatText F)

def toDict (container : CBEFFContainer) : Entries F := entries [
  ("version", some (.int container.version)),
  ("biometricGroups",
    some (.arr (container.biometricGroups.map fun group => .obj group.toDict)))]

def fromDict (data : Entries F) : Option CBEFFContainer := do
  let version ← ifPresent data "version" asInt
  let biometricGroups ← ifPresent data "biometricGroups" (asList fun group =>
    (asEntries group).bind BiometricInfoGroup.fromDict)
  some ⟨version.getD 1, biometricGroups.getD []⟩

def toBinary (container : CBEFFContainer) : ByteArray := dumpBytes floats (.obj container.toDict)

def fromBinary (data : ByteArray) : Option CBEFFContainer := do
  let value ← loadBytes floats data
  let data ← asEntries value
  fromDict data

end CBEFFContainer

/-! What is written is read back. -/

theorem FeaturePoint.fromDict_toDict (p : FeaturePoint) : fromDict (F := F) p.toDict = some p := by
  simp [fromDict, toDict, required, lookup_entries_cons]

theorem FeaturePoint.wellFormed (p : FeaturePoint) : (Value.obj (F := F) p.toDict).WellFormed := by
  apply wellFormed_entries
  · simp
  · simp

namespace FacialImageInfo

variable (info : FacialImageInfo)

theorem ifPresent_featurePoints :
    ifPresent (toDict (F := F) info) "featurePoints" (asList fun fp =>
      (asEntries fp).bind FeaturePoint.fromDict) =
    some (if info.featurePoints.isEmpty then none else some info.featurePoints) := by
  apply ifPresent_map fun points => .arr (points.map fun fp => .obj fp.toDict)
  · simp only [toDict, lookup_entries_cons, lookup_entries_nil, String.reduceEq, if_false,
      if_true, Option.or_none]
    split <;> rfl
  · exact fun points _ => asList_records _ points fun fp _ => fp.fromDict_toDict

theorem fromDict_toDict : fromDict (F := F) info.toDict = some info := by
  have hquality : getField (toDict (F := F) info) "quality" asInt = some info.quality := by
    apply getField_int
    simp [toDict, lookup_entries_cons, lookup_entries_nil]
  have hangle : ifPresent (toDict (F := F) info) "poseAngle" asEnum = some info.poseAngle := by
    apply ifPresent_map fun poseAngle => .int (IntEnum.value poseAngle)
    · simp [toDict, lookup_entries_cons, lookup_entries_nil]
    · simp
  have hyaw : getField (toDict (F := F) info) "poseAngleYaw" asInt = some info.poseAngleYaw := by
    apply getField_int
    simp [toDict, lookup_entries_cons, lookup_entries_nil]
  have hpitch : getField (toDict (F := F) info) "poseAnglePitch" asInt =
      some info.poseAnglePitch := by
    apply getField_int
    simp [toDict, lookup_entries_cons, lookup_entries_nil]
  have hroll : getField (toDict (F := F) info) "poseAngleRoll" asInt = some info.poseAngleRoll := by
    apply getField_int
    simp [toDict, lookup_entries_cons, lookup_entries_nil]
  have hpoints : (if info.featurePoints = [] then none else some info.featurePoints).getD [] =
      info.featurePoints := by
    cases info.featurePoints <;> simp
  simp only [fromDict, hquality, hangle, hyaw, hpitch, hroll, ifPresent_featurePoints]
  simp [toDict, required, lookup_entries_cons, hpoints]

theorem wellFormed : (Value.obj (F := F) info.toDict).WellFormed := by
  apply wellFormed_entries
  · simp
  · have hpoints := wellFormed_arr_map (F := F) info.featurePoints fun fp _ => fp.wellFormed
    simp [hpoints]

end FacialImageInfo

theorem FingerImageInfo.fromDict_toDict (info : FingerImageInfo) :
    fromDict (F := F) info.toDict = some info := by
  have hquality : getField (toDict (F := F) info) "quality" asInt = some info.quality := by
    apply getField_int
    simp [toDict, lookup_entries_cons, lookup_entries_nil]
  simp only [fromDict, hquality]
  simp [toDict, required, lookup_entries_cons]

theorem FingerImageInfo.wellFormed (info : FingerImageInfo) :
    (Value.obj (F := F) info.toDict).WellFormed := by
  apply wellFormed_entries
  · simp
  · simp

theorem IrisImageInfo.fromDict_toDict (info : IrisImageInfo) :
    fromDict (F := F) info.toDict = some info := by
  have hquality : getField (toDict (F := F) info) "quality" asInt = some info.quality := by
    apply getField_int
    simp [toDict, lookup_entries_cons, lookup_entries_nil]
  simp only [fromDict, hquality]
  simp [toDict, required, lookup_entries_cons]

theorem IrisImageInfo.wellFormed (info : IrisImageInfo) :
    (Value.obj (F := F) info.toDict).WellFormed := by
  apply wellFormed_entries
  · simp
  · simp

namespace BiometricDataBlock

variable (block : BiometricDataBlock)

theorem fromDict_toDict : fromDict (F := F) block.toDict = some block := by
  have hfacial : ifPresent (toDict (F := F) block) "facialInfo" (fun info =>
      (asEntries info).bind FacialImageInfo.fromDict) = some block.facialInfo := by
    apply ifPresent_record FacialImageInfo.toDict
    · simp [toDict, lookup_entries_cons, lookup_entries_nil]
    · exact fun info _ => info.fromDict_toDict
  have hfinger : ifPresent (toDict (F := F) block) "fingerInfo" (fun info =>
      (asEntries info).bind FingerImageInfo.fromDict) = some block.fingerInfo := by
    apply ifPresent_record FingerImageInfo.toDict
    · simp [toDict, lookup_entries_cons, lookup_entries_nil]
    · exact fun info _ => info.fromDict_toDict
  have hiris : ifPresent (toDict (F := F) block) "irisInfo" (fun info =>
      (asEntries info).bind IrisImageInfo.fromDict) = some block.irisInfo := by
    apply ifPresent_record IrisImageInfo.toDict
    · simp [toDict, lookup_entries_cons, lookup_entries_nil]
    · exact fun info _ => info.fromDict_toDict
  simp only [fromDict, hfacial, hfinger, hiris]
  simp [toDict, required, lookup_entries_cons, fromisoformat_isoformat, b64decode_b64encode,
    CompressionType.member_value]

theorem wellFormed : (Value.obj (F := F) block.toDict).WellFormed := by
  apply wellFormed_entries
  · simp
  · simp [FacialImageInfo.wellFormed, FingerImageInfo.wellFormed, IrisImageInfo.wellFormed]

end BiometricDataBlock

namespace BiometricInfoGroup

variable (group : BiometricInfoGroup)

theorem fromDict_toDict : fromDict (F := F) group.toDict = some group := by
  have helements := asList_records (F := F) BiometricDataBlock.toDict group.elements
    fun element _ => element.fromDict_toDict
  simp [fromDict, toDict, required, ifPresent, lookup_entries_cons, helements]

theorem wellFormed : (Value.obj (F := F) group.toDict).WellFormed := by
  apply wellFormed_entries
  · simp
  · have helements := wellFormed_arr_map (F := F) group.elements
      fun element _ => element.wellFormed
    simp [helements]

end BiometricInfoGroup

namespace CBEFFContainer

variable (floats : FloatText F) (container : CBEFFContainer)

theorem fromDict_toDict : fromDict (F := F) container.toDict = some container := by
  have hgroups := asList_records (F := F) BiometricInfoGroup.toDict container.biometricGroups
    fun group _ => group.fromDict_toDict
  simp [fromDict, toDict, ifPresent, lookup_entries_cons, hgroups]

theorem wellFormed : (Value.obj (F := F) container.toDict).WellFormed := by
  apply wellFormed_entries
  · simp
  · have hgroups := wellFormed_arr_map (F := F) container.biometricGroups
      fun group _ => group.wellFormed
    simp [hgroups]

/-- Every container is read back from its bytes. -/
theorem fromBinary_toBinary : fromBinary floats (toBinary floats container) = some container := by
  have hload : loadBytes floats (toBinary floats container) = some (.obj container.toDict) :=
    loadBytes_dumpBytes floats container.wellFormed
  simp only [fromBinary, hload, Option.bind_eq_bind, Option.bind_some, asEntries_obj,
    fromDict_toDict]

end CBEFFContainer

end Marty.Models.Biometrics
