import Marty.Lib.Base64
import Marty.Lib.Fields
import Marty.Lib.Text

/-! `digital_signatures`: CMS signed data and their dictionaries.  A value of another type than the
field's makes no record here. -/

namespace Marty.Models.Cms

open Lib Lib.JsonText Lib.Fields Lib.Base64

variable {F : Type}

/-- A list used as a condition. -/
def nonEmpty {α : Type} (values : Option (List α)) : Option (List α) := values.filter (!·.isEmpty)

structure IssuerAndSerialNumber where
  issuerName : String
  serialNumber : String

namespace IssuerAndSerialNumber

def toDict (x : IssuerAndSerialNumber) : Entries F :=
  entries [("issuerName", some (.str x.issuerName)), ("serialNumber", some (.str x.serialNumber))]

def fromDict (data : Entries F) : Option IssuerAndSerialNumber := do
  let issuerName ← required data "issuerName" asStr
  let serialNumber ← required data "serialNumber" asStr
  some ⟨issuerName, serialNumber⟩

end IssuerAndSerialNumber

structure SignerIdentifier where
  issuerAndSerial : Option IssuerAndSerialNumber := none
  subjectKeyIdentifier : Option String := none

namespace SignerIdentifier

def toDict (x : SignerIdentifier) : Entries F := entries [
  ("issuerAndSerial", x.issuerAndSerial.map fun issuer => .obj issuer.toDict),
  ("subjectKeyIdentifier", (Text.truthy x.subjectKeyIdentifier).map .str)]

def fromDict (data : Entries F) : Option SignerIdentifier := do
  let issuerAndSerial ← ifPresent data "issuerAndSerial" fun value =>
    (asEntries value).bind IssuerAndSerialNumber.fromDict
  let subjectKeyIdentifier ← getField data "subjectKeyIdentifier" asStr
  some ⟨issuerAndSerial, subjectKeyIdentifier⟩

end SignerIdentifier

/-- No parameters are `null`. -/
structure AlgorithmIdentifier (F : Type) where
  algorithm : String
  parameters : Value F := .null

namespace AlgorithmIdentifier

def toDict (x : AlgorithmIdentifier F) : Entries F := entries [
  ("algorithm", some (.str x.algorithm)), ("parameters", notNone x.parameters)]

def fromDict (data : Entries F) : Option (AlgorithmIdentifier F) := do
  let algorithm ← required data "algorithm" asStr
  some ⟨algorithm, (data.lookup "parameters").getD .null⟩

end AlgorithmIdentifier

structure SignerInfo (F : Type) where
  version : Int
  signerIdentifier : SignerIdentifier
  digestAlgorithm : AlgorithmIdentifier F
  signatureAlgorithm : AlgorithmIdentifier F
  signature : String
  signedAttrs : Option (List (Entries F)) := none
  unsignedAttrs : Option (List (Entries F)) := none

namespace SignerInfo

def toDict (x : SignerInfo F) : Entries F := entries [
  ("version", some (.int x.version)),
  ("signerIdentifier", some (.obj x.signerIdentifier.toDict)),
  ("digestAlgorithm", some (.obj x.digestAlgorithm.toDict)),
  ("signatureAlgorithm", some (.obj x.signatureAlgorithm.toDict)),
  ("signature", some (.str x.signature)),
  ("signedAttrs", (nonEmpty x.signedAttrs).map fun attrs => .arr (attrs.map .obj)),
  ("unsignedAttrs", (nonEmpty x.unsignedAttrs).map fun attrs => .arr (attrs.map .obj))]

def fromDict (data : Entries F) : Option (SignerInfo F) := do
  let version ← required data "version" asInt
  let signerIdentifier ← required data "signerIdentifier" fun value =>
    (asEntries value).bind SignerIdentifier.fromDict
  let digestAlgorithm ← required data "digestAlgorithm" fun value =>
    (asEntries value).bind AlgorithmIdentifier.fromDict
  let signatureAlgorithm ← required data "signatureAlgorithm" fun value =>
    (asEntries value).bind AlgorithmIdentifier.fromDict
  let signature ← required data "signature" asStr
  let signedAttrs ← getField data "signedAttrs" (asList asEntries)
  let unsignedAttrs ← getField data "unsignedAttrs" (asList asEntries)
  some ⟨version, signerIdentifier, digestAlgorithm, signatureAlgorithm, signature, signedAttrs,
    unsignedAttrs⟩

end SignerInfo

inductive Content
  | text (s : String)
  | bytes (b : Bytes)
  deriving DecidableEq

structure EncapsulatedContent where
  contentType : String
  content : Option Content := none

namespace EncapsulatedContent

/-- What is written of the content: an empty text is left out. -/
def contentText : Option Content → Option String
  | some (.bytes b) => some (b64encode b)
  | some (.text s) => Text.truthy (some s)
  | none => none

def toDict (x : EncapsulatedContent) : Entries F := entries [
  ("contentType", some (.str x.contentType)), ("content", (contentText x.content).map .str)]

/-- A text with a length that is divisible by four is decoded where that is possible. -/
def detect (s : String) : Content :=
  if s ≠ "" ∧ s.length % 4 = 0 then
    match b64decode s with
    | some decoded => .bytes decoded
    | none => .text s
  else .text s

def fromDict (data : Entries F) : Option EncapsulatedContent := do
  let content ← getField data "content" asStr
  let contentType ← required data "contentType" asStr
  some ⟨contentType, content.map detect⟩

end EncapsulatedContent

structure CMSSignedData (F : Type) where
  version : Int
  digestAlgorithms : List (AlgorithmIdentifier F)
  encapContentInfo : EncapsulatedContent
  signerInfos : List (SignerInfo F)
  certificates : Option (List String) := none
  crls : Option (List String) := none

namespace CMSSignedData

variable (floats : FloatText F)

def toDict (x : CMSSignedData F) : Entries F := entries [
  ("version", some (.int x.version)),
  ("digestAlgorithms", some (.arr (x.digestAlgorithms.map fun algo => .obj algo.toDict))),
  ("encapContentInfo", some (.obj x.encapContentInfo.toDict)),
  ("signerInfos", some (.arr (x.signerInfos.map fun signer => .obj signer.toDict))),
  ("certificates", (nonEmpty x.certificates).map fun certificates => .arr (certificates.map .str)),
  ("crls", (nonEmpty x.crls).map fun crls => .arr (crls.map .str))]

def fromDict (data : Entries F) : Option (CMSSignedData F) := do
  let version ← required data "version" asInt
  let digestAlgorithms ← required data "digestAlgorithms" (asList fun value =>
    (asEntries value).bind AlgorithmIdentifier.fromDict)
  let encapContentInfo ← required data "encapContentInfo" fun value =>
    (asEntries value).bind EncapsulatedContent.fromDict
  let signerInfos ← required data "signerInfos" (asList fun value =>
    (asEntries value).bind SignerInfo.fromDict)
  let certificates ← getField data "certificates" (asList asStr)
  let crls ← getField data "crls" (asList asStr)
  some ⟨version, digestAlgorithms, encapContentInfo, signerInfos, certificates, crls⟩

def toDer (x : CMSSignedData F) : ByteArray := dumpBytes floats (.obj x.toDict)

def fromDer (derData : ByteArray) : Option (CMSSignedData F) := do
  let value ← loadBytes floats derData
  let data ← asEntries value
  fromDict data

end CMSSignedData

/-! What is written is read back. -/

theorem nonEmpty_eq {α : Type} {values : Option (List α)} (h : values ≠ some []) :
    nonEmpty values = values := by
  cases values with
  | none => rfl
  | some values =>
    cases values with
    | nil => exact absurd rfl h
    | cons => rfl

theorem IssuerAndSerialNumber.fromDict_toDict (x : IssuerAndSerialNumber) :
    fromDict (F := F) x.toDict = some x := by
  simp [fromDict, toDict, required, lookup_entries_cons]

theorem IssuerAndSerialNumber.wellFormed (x : IssuerAndSerialNumber) :
    (Value.obj (F := F) x.toDict).WellFormed := by
  apply wellFormed_entries
  · simp
  · simp

namespace SignerIdentifier

def Regular (x : SignerIdentifier) : Prop := x.subjectKeyIdentifier ≠ some ""

theorem fromDict_toDict {x : SignerIdentifier} (h : x.Regular) :
    fromDict (F := F) x.toDict = some x := by
  have hissuer : ifPresent (toDict (F := F) x) "issuerAndSerial"
      (fun value => (asEntries value).bind IssuerAndSerialNumber.fromDict) =
        some x.issuerAndSerial := by
    apply ifPresent_record IssuerAndSerialNumber.toDict
    · simp [toDict, lookup_entries_cons, lookup_entries_nil]
    · exact fun issuer _ => issuer.fromDict_toDict
  have hkey : getField (toDict (F := F) x) "subjectKeyIdentifier" asStr =
      some x.subjectKeyIdentifier := by
    apply getField_str
    simp [toDict, lookup_entries_cons, lookup_entries_nil, truthy_eq h]
  simp only [fromDict, hissuer, hkey]
  rfl

theorem wellFormed (x : SignerIdentifier) : (Value.obj (F := F) x.toDict).WellFormed := by
  apply wellFormed_entries
  · simp
  · simp [IssuerAndSerialNumber.wellFormed]

end SignerIdentifier

namespace AlgorithmIdentifier

def Regular (x : AlgorithmIdentifier F) : Prop := x.parameters.WellFormed

theorem fromDict_toDict (x : AlgorithmIdentifier F) : fromDict x.toDict = some x := by
  simp [fromDict, toDict, required, lookup_entries_cons, lookup_entries_nil]

theorem Regular.wellFormed {x : AlgorithmIdentifier F} (h : x.Regular) :
    (Value.obj x.toDict).WellFormed := by
  apply wellFormed_entries
  · simp
  · have hparameters : ∀ value ∈ notNone x.parameters, value.WellFormed := by
      intro value hvalue
      rwa [eq_of_mem_notNone hvalue]
    simpa using hparameters

end AlgorithmIdentifier

namespace SignerInfo

/-- The lists of attributes are `None` or not empty, and the attributes are dictionaries. -/
def RegularAttrs (attrs : Option (List (Entries F))) : Prop :=
  attrs ≠ some [] ∧ ∀ values ∈ attrs, ∀ value ∈ values, (Value.obj value).WellFormed

structure Regular (x : SignerInfo F) : Prop where
  signerIdentifier : x.signerIdentifier.Regular
  digestAlgorithm : x.digestAlgorithm.Regular
  signatureAlgorithm : x.signatureAlgorithm.Regular
  signedAttrs : RegularAttrs x.signedAttrs
  unsignedAttrs : RegularAttrs x.unsignedAttrs

theorem getField_attrs {data : Entries F} {key : String} {attrs : Option (List (Entries F))}
    (hlookup : data.lookup key = attrs.map fun attrs => .arr (attrs.map .obj)) :
    getField data key (asList asEntries) = some attrs := by
  apply getField_map _ hlookup
  · simp
  · exact fun values _ => asList_map fun _ _ => rfl

theorem fromDict_toDict {x : SignerInfo F} (h : x.Regular) : fromDict x.toDict = some x := by
  have hsigned : getField x.toDict "signedAttrs" (asList asEntries) = some x.signedAttrs := by
    apply getField_attrs
    simp [toDict, lookup_entries_cons, lookup_entries_nil, nonEmpty_eq h.signedAttrs.1]
  have hunsigned : getField x.toDict "unsignedAttrs" (asList asEntries) = some x.unsignedAttrs := by
    apply getField_attrs
    simp [toDict, lookup_entries_cons, lookup_entries_nil, nonEmpty_eq h.unsignedAttrs.1]
  simp only [fromDict, hsigned, hunsigned]
  simp [toDict, required, lookup_entries_cons,
    SignerIdentifier.fromDict_toDict h.signerIdentifier, AlgorithmIdentifier.fromDict_toDict]

theorem RegularAttrs.wellFormed {attrs : Option (List (Entries F))} (h : RegularAttrs attrs) :
    ∀ value ∈ (nonEmpty attrs).map fun attrs => Value.arr (attrs.map .obj), value.WellFormed := by
  rw [nonEmpty_eq h.1]
  intro value hvalue
  obtain ⟨values, hvalues, rfl⟩ := Option.map_eq_some_iff.mp hvalue
  exact wellFormed_arr_map values (h.2 values hvalues)

theorem Regular.wellFormed {x : SignerInfo F} (h : x.Regular) :
    (Value.obj x.toDict).WellFormed := by
  apply wellFormed_entries
  · simp
  · have hsigned := h.signedAttrs.wellFormed
    have hunsigned := h.unsignedAttrs.wellFormed
    simp only [List.forall_mem_cons]
    refine ⟨by simp, by simp [SignerIdentifier.wellFormed], ?_, ?_, by simp, hsigned, hunsigned,
      by simp⟩
    · simp [h.digestAlgorithm.wellFormed]
    · simp [h.signatureAlgorithm.wellFormed]

end SignerInfo

namespace EncapsulatedContent

/-- The content is told from the text that is written for it: it is no empty text and no empty
bytes, and no text that decodes as the bytes of another content would. -/
def Told : Option Content → Prop
  | none => True
  | some (.bytes b) => b ≠ []
  | some (.text s) => s ≠ "" ∧ (s.length % 4 = 0 → b64decode s = none)

theorem detect_b64encode {b : Bytes} (hb : b ≠ []) : detect (b64encode b) = .bytes b := by
  have hempty : b64encode b ≠ "" := by
    intro h
    have htext := congrArg String.toList h
    rw [b64encode, String.toList_ofList] at htext
    exact hb (encodeChars_eq_nil_iff.mp htext)
  have hlength : (b64encode b).length % 4 = 0 := by
    rw [b64encode, String.length_ofList, length_encodeChars_mod]
  rw [detect, if_pos ⟨hempty, hlength⟩, b64decode_b64encode]

theorem detect_eq_text_iff {s : String} (hs : s ≠ "") :
    detect s = .text s ↔ (s.length % 4 = 0 → b64decode s = none) := by
  rw [detect]
  split
  case isTrue h => cases b64decode s <;> simp [h.2]
  case isFalse h => exact ⟨fun _ hlength => absurd ⟨hs, hlength⟩ h, fun _ => rfl⟩

theorem detect_content_iff (content : Option Content) :
    (contentText content).map detect = content ↔ Told content := by
  match content with
  | none => simp [contentText, Told]
  | some (.bytes b) =>
    by_cases hb : b = []
    · subst hb
      simp [contentText, Told, b64encode, encodeChars, detect]
    · simp [contentText, Told, detect_b64encode hb, hb]
  | some (.text s) =>
    by_cases hs : s = ""
    · subst hs
      simp [contentText, Told, Text.truthy]
    · simp [contentText, Told, Text.truthy, hs, detect_eq_text_iff hs]

theorem fromDict_toDict (x : EncapsulatedContent) : fromDict (F := F) x.toDict =
    some { x with content := (contentText x.content).map detect } := by
  have hcontent : getField (toDict (F := F) x) "content" asStr = some (contentText x.content) := by
    apply getField_str
    simp [toDict, lookup_entries_cons, lookup_entries_nil]
  simp only [fromDict, hcontent]
  simp [toDict, required, lookup_entries_cons]

theorem wellFormed (x : EncapsulatedContent) : (Value.obj (F := F) x.toDict).WellFormed := by
  apply wellFormed_entries
  · simp
  · simp

end EncapsulatedContent

namespace CMSSignedData

/-- The optional lists are `None` or not empty, and the identifiers, attributes and parameters below
are as they have to be. -/
structure Regular (x : CMSSignedData F) : Prop where
  digestAlgorithms : ∀ algo ∈ x.digestAlgorithms, algo.Regular
  signerInfos : ∀ signer ∈ x.signerInfos, signer.Regular
  certificates : x.certificates ≠ some []
  crls : x.crls ≠ some []

variable {floats : FloatText F} {x : CMSSignedData F}

theorem getField_texts {data : Entries F} {key : String} {texts : Option (List String)}
    (hlookup : data.lookup key = texts.map fun texts => .arr (texts.map .str)) :
    getField data key (asList asStr) = some texts := by
  apply getField_map _ hlookup
  · simp
  · exact fun values _ => asList_map fun _ _ => rfl

/-- What is read back has the content that its text is taken for. -/
theorem fromDict_toDict (h : x.Regular) : fromDict x.toDict = some { x with
    encapContentInfo := { x.encapContentInfo with
      content := (EncapsulatedContent.contentText x.encapContentInfo.content).map
        EncapsulatedContent.detect } } := by
  have hcertificates : getField x.toDict "certificates" (asList asStr) = some x.certificates := by
    apply getField_texts
    simp [toDict, lookup_entries_cons, lookup_entries_nil, nonEmpty_eq h.certificates]
  have hcrls : getField x.toDict "crls" (asList asStr) = some x.crls := by
    apply getField_texts
    simp [toDict, lookup_entries_cons, lookup_entries_nil, nonEmpty_eq h.crls]
  have halgorithms : asList (fun value => (asEntries value).bind AlgorithmIdentifier.fromDict)
      (.arr (x.digestAlgorithms.map fun algo => .obj algo.toDict)) = some x.digestAlgorithms :=
    asList_records _ _ fun algo _ => algo.fromDict_toDict
  have hsigners : asList (fun value => (asEntries value).bind SignerInfo.fromDict)
      (.arr (x.signerInfos.map fun signer => .obj signer.toDict)) = some x.signerInfos :=
    asList_records _ _ fun signer hsigner =>
      SignerInfo.fromDict_toDict (h.signerInfos signer hsigner)
  simp only [fromDict, hcertificates, hcrls]
  simp [toDict, required, lookup_entries_cons, halgorithms, hsigners,
    EncapsulatedContent.fromDict_toDict]

theorem wellFormed_texts (texts : Option (List String)) :
    ∀ value ∈ (nonEmpty texts).map fun texts => Value.arr (F := F) (texts.map .str),
      value.WellFormed := by
  intro value hvalue
  obtain ⟨values, -, rfl⟩ := Option.map_eq_some_iff.mp hvalue
  exact wellFormed_arr_map values fun _ _ => trivial

theorem Regular.wellFormed (h : x.Regular) : (Value.obj x.toDict).WellFormed := by
  apply wellFormed_entries
  · simp
  · have halgorithms := wellFormed_arr_map x.digestAlgorithms fun algo halgo =>
      (h.digestAlgorithms algo halgo).wellFormed
    have hsigners := wellFormed_arr_map x.signerInfos fun signer hsigner =>
      (h.signerInfos signer hsigner).wellFormed
    have hcertificates := wellFormed_texts (F := F) x.certificates
    have hcrls := wellFormed_texts (F := F) x.crls
    simp only [List.forall_mem_cons]
    refine ⟨by simp, ?_, ?_, ?_, hcertificates, hcrls, by simp⟩
    · simp [halgorithms]
    · simp [EncapsulatedContent.wellFormed]
    · simp [hsigners]

theorem fromDer_toDer (h : x.Regular) : fromDer floats (toDer floats x) = fromDict x.toDict := by
  have hload : loadBytes floats (toDer floats x) = some (.obj x.toDict) :=
    loadBytes_dumpBytes floats h.wellFormed
  simp only [fromDer, hload, Option.bind_eq_bind, Option.bind_some, asEntries_obj]

/-- Signed data are read back from their bytes exactly when their content is told from its text. -/
theorem fromDer_toDer_iff (floats : FloatText F) (x : CMSSignedData F) (h : x.Regular) :
    fromDer floats (toDer floats x) = some x ↔
      EncapsulatedContent.Told x.encapContentInfo.content := by
  rw [← EncapsulatedContent.detect_content_iff, fromDer_toDer h, fromDict_toDict h,
    Option.some.injEq]
  constructor
  · intro heq
    exact congrArg (fun x : CMSSignedData F => x.encapContentInfo.content) heq
  · intro heq
    rw [heq]

/-- Signed data with nothing but a content. -/
def ofContent (content : Option Content) : CMSSignedData Written where
  version := 1
  digestAlgorithms := []
  encapContentInfo := ⟨"1.2.840.113549.1.7.1", content⟩
  signerInfos := []

theorem regular_ofContent (content : Option Content) : (ofContent content).Regular where
  digestAlgorithms := by simp [ofContent]
  signerInfos := by simp [ofContent]
  certificates := by simp [ofContent]
  crls := by simp [ofContent]

theorem greeting_read_back :
    fromDer written (toDer written (ofContent (some (.text "hello")))) =
      some (ofContent (some (.text "hello"))) :=
  (fromDer_toDer_iff written _ (regular_ofContent _)).mpr ⟨by decide, by decide⟩

/-- The text `Test ...`, which is no base64, comes back as bytes, and no bytes as a text. -/
theorem text_read_as_bytes :
    fromDer written (toDer written (ofContent (some (.text "Test ...")))) =
      some (ofContent (some (.bytes [0x4d, 0xeb, 0x2d]))) ∧
    fromDer written (toDer written (ofContent (some (.bytes [])))) =
      some (ofContent (some (.text ""))) ∧
    fromDer written (toDer written (ofContent (some (.text "Test ...")))) ≠
      some (ofContent (some (.text "Test ..."))) := by
  have htest : fromDer written (toDer written (ofContent (some (.text "Test ...")))) =
      some (ofContent (some (.bytes [0x4d, 0xeb, 0x2d]))) := by
    rw [fromDer_toDer (regular_ofContent _), fromDict_toDict (regular_ofContent _)]
    rfl
  have hbytes : fromDer written (toDer written (ofContent (some (.bytes [])))) =
      some (ofContent (some (.text ""))) := by
    rw [fromDer_toDer (regular_ofContent _), fromDict_toDict (regular_ofContent _)]
    rfl
  refine ⟨htest, hbytes, fun h => ?_⟩
  have hcontent := congrArg (fun x : CMSSignedData Written => x.encapContentInfo.content)
    (Option.some.inj (htest.symm.trans h))
  cases hcontent

end CMSSignedData

end Marty.Models.Cms
