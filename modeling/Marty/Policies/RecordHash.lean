import Marty.Lib.ReprOrder
import Marty.Policies.Annex9

/-! `calculate_record_hash`: the items and the identifiers of background checks are sorted before
they are written, the dictionaries below them are not. -/

namespace Marty.Policies.RecordHash

open Lib Lib.Datetime Lib.Repr Annex9

/-- The text that is hashed. -/
def contentStr (lib : Library) (r : ElectronicRecord) : String :=
  strItems lib.fmt (r.content.insertionSort fun item item' => item.1 ≤ item'.1)

/-- The hashed fields of the records are equal as JSON values, the background checks but for their
order. -/
structure SameFields (r r' : ElectronicRecord) : Prop where
  recordId : r.recordId = r'.recordId
  cmcId : r.cmcId = r'.cmcId
  issuerAuthority : r.issuerAuthority = r'.issuerAuthority
  version : r.version = r'.version
  holderData : Json.Same (.obj r.holderData) (.obj r'.holderData)
  backgroundChecks : r.backgroundChecks.Perm r'.backgroundChecks

variable {lib : Library} {r r' : ElectronicRecord}

theorem sorted_content (r : ElectronicRecord) :
    (r.content.insertionSort fun item item' => item.1 ≤ item'.1) = [
      ("background_checks", .arr ((r.backgroundChecks.insertionSort (· ≤ ·)).map .str)),
      ("cmc_id", .str r.cmcId), ("holder_data", .obj r.holderData),
      ("issuer_authority", .str r.issuerAuthority), ("record_id", .str r.recordId),
      ("version", .int r.version)] := by
  simp [ElectronicRecord.content, List.insertionSort, List.orderedInsert]

theorem SameFields.insertionSort_eq (h : SameFields r r') :
    r.backgroundChecks.insertionSort (· ≤ ·) = r'.backgroundChecks.insertionSort (· ≤ ·) := by
  have hsorted := List.perm_insertionSort (· ≤ ·) r.backgroundChecks
  have hsorted' := List.perm_insertionSort (· ≤ ·) r'.backgroundChecks
  have hperm := (hsorted.trans h.backgroundChecks).trans hsorted'.symm
  exact hperm.eq_of_sortedLE List.sortedLE_insertionSort List.sortedLE_insertionSort

theorem contentStr_eq_iff (lib : Library) (h : SameFields r r') :
    contentStr lib r = contentStr lib r' ↔ r.holderData = r'.holderData := by
  simp only [contentStr, sorted_content, h.insertionSort_eq, h.recordId, h.cmcId, h.issuerAuthority,
    h.version]
  constructor
  · intro htext
    have hitems := strItems_inj (by rfl) (by simp [Json.Same.refl, h.holderData]) htext
    simpa using hitems
  · intro hdata
    rw [hdata]

/-- The hash does not depend on the order of keys below the top level, and a record that is loaded
with the hash of one that verifies does verify. -/
def Canonical (lib : Library) (r r' : ElectronicRecord) : Prop :=
  r.calculateRecordHash lib = r'.calculateRecordHash lib ∧
    (r'.recordHash = r.recordHash → r.verifyIntegrity lib = true → r'.verifyIntegrity lib = true)

/-- Where the digest tells the two texts apart, the hash of records with the same fields is the same
exactly when all keys are in the same order. -/
theorem canonical_iff (h : SameFields r r')
    (hcollision : lib.sha256 (contentStr lib r) = lib.sha256 (contentStr lib r') →
      contentStr lib r = contentStr lib r') :
    Canonical lib r r' ↔ r.holderData = r'.holderData := by
  rw [← contentStr_eq_iff lib h]
  constructor
  · exact fun hcanonical => hcollision hcanonical.1
  · intro htext
    have hhash : r.calculateRecordHash lib = r'.calculateRecordHash lib := congrArg lib.sha256 htext
    refine ⟨hhash, fun hloaded hintegrity => ?_⟩
    rwa [ElectronicRecord.verifyIntegrity, hloaded, ← hhash]

/-! Two records that differ in the order of the keys of a nested dictionary. -/

def storedHash : String := "fd48412ceb030d2cd5d71fed5771f35a39d1c4299629b3e0cb16fa5f9800b835"

def crewRecord (crew : Entries) : ElectronicRecord where
  recordId := "1"
  cmcId := "CMC"
  issuerAuthority := "XX"
  lastUpdated := 0
  recordHash := some storedHash
  holderData := [("crew", .obj crew)]

def stored : ElectronicRecord := crewRecord [("name", .str "A"), ("rank", .int 1)]

def reloaded : ElectronicRecord := crewRecord [("rank", .int 1), ("name", .str "A")]

/-- The digests of the two texts. -/
def digests : Library where
  sha256 := fun data =>
    if data = strItems ascii (stored.content.insertionSort fun item item' => item.1 ≤ item'.1) then
      storedHash
    else "886e9378f839231c180f34442e83d65c21f9d75c7d68493f43292991a02d7285"
  length_sha256 := fun data => by
    split <;> rfl
  fmt := ascii

theorem sameFields_reloaded : SameFields stored reloaded where
  recordId := rfl
  cmcId := rfl
  issuerAuthority := rfl
  version := rfl
  holderData := by
    apply Json.Same.obj
    · exact List.Perm.refl ["crew"]
    · intro key value value' hvalue hvalue'
      cases List.mem_singleton.mp hvalue
      cases List.mem_singleton.mp hvalue'
      apply Json.Same.obj
      · exact List.Perm.swap "rank" "name" []
      · intro key value value' hvalue hvalue'
        simp only [List.mem_cons, Prod.mk.injEq, List.not_mem_nil, or_false] at hvalue hvalue'
        obtain ⟨rfl, rfl⟩ | ⟨rfl, rfl⟩ := hvalue
        · simp only [String.reduceEq, false_and, true_and, false_or] at hvalue'
          subst hvalue'
          exact .refl _
        · simp only [String.reduceEq, false_and, true_and, or_false] at hvalue'
          subst hvalue'
          exact .refl _
  backgroundChecks := List.Perm.refl _

theorem canonical_reloaded_iff :
    Canonical digests stored reloaded ↔ stored.holderData = reloaded.holderData :=
  canonical_iff sameFields_reloaded (by decide +kernel)

/-- The record that is loaded with the keys in another order does not verify. -/
theorem reloaded_not_verified :
    SameFields stored reloaded ∧ stored.verifyIntegrity digests = true ∧
      reloaded.recordHash = stored.recordHash ∧ reloaded.verifyIntegrity digests = false ∧
      ¬ Canonical digests stored reloaded := by
  have hstored : stored.verifyIntegrity digests = true := by decide +kernel
  have hreloaded : reloaded.verifyIntegrity digests = false := by decide +kernel
  refine ⟨sameFields_reloaded, hstored, rfl, hreloaded, fun h => ?_⟩
  rw [h.2 rfl hstored] at hreloaded
  cases hreloaded

end Marty.Policies.RecordHash
