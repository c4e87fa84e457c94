import Marty.Lib.SortedKeys
import Marty.Models.CrewCertificate

/-! The texts of a VDS-NC barcode: the canonical data that are signed, and the barcode itself.  The
payload holds what `json.dumps` can write. -/

namespace Marty.Models.CrewCertificate.VDSNCBarcode

open Lib Lib.Base64 Lib.Fields Lib.JsonText Lib.Text
open Documents (optStr)

variable {F : Type} (floats : FloatText F)

/-- `model_dump(exclude={"signature"})` -/
def dataForSignature (b : VDSNCBarcode F) : Entries F :=
  b.dump.filter (·.1 ≠ "signature")

/-- `_get_canonical_data` -/
def canonicalData (b : VDSNCBarcode F) : String :=
  dumpsSorted floats .compact (.obj b.dataForSignature)

def encodeToBarcode (b : VDSNCBarcode F) : String :=
  b64encode (encode (dumps floats (.obj b.dump)))

/-- The barcodes differ in their signatures and in the order of the keys of the payloads only. -/
structure SameData (b b' : VDSNCBarcode F) : Prop where
  header : b.header = b'.header
  messageType : b.messageType = b'.messageType
  issuingCountry : b.issuingCountry = b'.issuingCountry
  signatureAlgorithm : b.signatureAlgorithm = b'.signatureAlgorithm
  certificateReference : b.certificateReference = b'.certificateReference
  signatureCreationDate : b.signatureCreationDate = b'.signatureCreationDate
  signatureCreationTime : b.signatureCreationTime = b'.signatureCreationTime
  cmcData : (Value.obj b.cmcData).Same (.obj b'.cmcData)

theorem dataForSignature_eq (b : VDSNCBarcode F) : b.dataForSignature = [
    ("header", .str b.header), ("message_type", .str b.messageType),
    ("issuing_country", .str b.issuingCountry), ("signature_algorithm", .str b.signatureAlgorithm),
    ("certificate_reference", .str b.certificateReference),
    ("signature_creation_date", .str b.signatureCreationDate),
    ("signature_creation_time", optStr b.signatureCreationTime),
    ("cmc_data", .obj b.cmcData)] := rfl

theorem wellFormed_optStr (s : Option String) : (optStr (F := F) s).WellFormed := by
  cases s <;> simp [optStr, Value.WellFormed]

theorem optStr_injective : Function.Injective (optStr : Option String → Value F) := by
  intro s s' h
  cases s <;> cases s' <;> simp_all [optStr]

theorem optStr_inj {s s' : Option String} (h : (optStr s : Value F).Same (optStr s')) :
    s = s' := by
  cases s <;> cases s' <;> cases h <;> rfl

theorem wellFormed_dump {b : VDSNCBarcode F} (h : (Value.obj b.cmcData).WellFormed) :
    (Value.obj b.dump).WellFormed := by
  refine ⟨by rw [keys_dump]; decide +kernel, ?_⟩
  simpa [dump, Value.WellFormedEntries, Value.WellFormed, wellFormed_optStr] using h

theorem keys_dataForSignature (b : VDSNCBarcode F) :
    b.dataForSignature.map (·.1) = fieldNames.filter (· ≠ "signature") := rfl

theorem wellFormed_dataForSignature {b : VDSNCBarcode F} (h : (Value.obj b.cmcData).WellFormed) :
    (Value.obj b.dataForSignature).WellFormed := by
  refine ⟨by rw [keys_dataForSignature]; decide +kernel, ?_⟩
  rw [Value.wellFormedEntries_iff]
  exact fun e he => Value.wellFormedEntries_iff.mp (wellFormed_dump h).2 e (List.mem_filter.mp he).1

variable {b b' : VDSNCBarcode F}

theorem SameData.of_same (h : (Value.obj b.dataForSignature).Same (.obj b'.dataForSignature)) :
    SameData b b' := by
  have hnodup : (b.dataForSignature.map (·.1)).Nodup := by
    rw [keys_dataForSignature]
    decide +kernel
  have hvalue (key : String) (value value' : Value F) (hmem : (key, value) ∈ b.dataForSignature)
      (hmem' : (key, value') ∈ b'.dataForSignature) : value.Same value' :=
    h.of_mem hnodup hmem hmem'
  simp only [dataForSignature_eq] at hvalue
  exact {
    header := (hvalue "header" _ _ (by simp) (by simp)).str_inj
    messageType := (hvalue "message_type" _ _ (by simp) (by simp)).str_inj
    issuingCountry := (hvalue "issuing_country" _ _ (by simp) (by simp)).str_inj
    signatureAlgorithm := (hvalue "signature_algorithm" _ _ (by simp) (by simp)).str_inj
    certificateReference := (hvalue "certificate_reference" _ _ (by simp) (by simp)).str_inj
    signatureCreationDate := (hvalue "signature_creation_date" _ _ (by simp) (by simp)).str_inj
    signatureCreationTime := optStr_inj (hvalue "signature_creation_time" _ _ (by simp) (by simp))
    cmcData := hvalue "cmc_data" _ _ (by simp) (by simp) }

theorem SameData.sortKeys_eq (h : SameData b b') (hb : (Value.obj b.cmcData).WellFormed)
    (hb' : (Value.obj b'.cmcData).WellFormed) :
    (Value.obj b.dataForSignature).sortKeys = (Value.obj b'.dataForSignature).sortKeys := by
  have hcmc := h.cmcData.sortKeys_eq hb hb'
  rw [Value.sortKeys, Value.sortKeys]
  simp only [dataForSignature_eq, Value.sortKeysEntries_eq_map, List.map_cons, List.map_nil,
    h.header, h.messageType, h.issuingCountry, h.signatureAlgorithm, h.certificateReference,
    h.signatureCreationDate, h.signatureCreationTime, hcmc]

def sealOf (cmcData : Entries Written) (signature : String) : VDSNCBarcode Written where
  header := "DC03"
  issuingCountry := "UTO"
  certificateReference := "UTSIGN01"
  signatureCreationDate := "240131"
  cmcData := cmcData
  signature := signature

def crewPayload : Entries Written := [("surname", .str "DOE"), ("document_number", .str "C1")]

theorem wellFormed_crewPayload : (Value.obj crewPayload).WellFormed := by
  simp [crewPayload, Value.WellFormed, Value.WellFormedEntries]

/-- The text of a barcode is that of no other. -/
theorem encodeToBarcode_inj (hb : (Value.obj b.cmcData).WellFormed)
    (hb' : (Value.obj b'.cmcData).WellFormed)
    (h : b.encodeToBarcode floats = b'.encodeToBarcode floats) : b = b' := by
  have hbytes : encode (dumps floats (.obj b.dump)) = encode (dumps floats (.obj b'.dump)) := by
    have hdecode := congrArg b64decode h
    rwa [encodeToBarcode, encodeToBarcode, b64decode_b64encode, b64decode_b64encode,
      Option.some.injEq] at hdecode
  have hloads := congrArg (loads floats) (encode_injective hbytes)
  rw [loads_dumps (wellFormed_dump hb), loads_dumps (wellFormed_dump hb')] at hloads
  cases b
  cases b'
  simpa [dump, optStr_injective.eq_iff] using hloads

end Marty.Models.CrewCertificate.VDSNCBarcode
