import Mathlib.Tactic.Basic
import Marty.Lib.Segments
import Marty.Lib.Text

/-! `role_separation`: the identifiers of keys are joined from their parts with colons, which the
parts may have as well. -/

namespace Marty.Crypto.RoleSeparation

open Lib Lib.Segments

inductive CryptoRole
  | csca | dsc | reader | verifier | wallet | holder | audit | evidence
  deriving DecidableEq

def CryptoRole.value : CryptoRole → String
  | csca => "csca"
  | dsc => "dsc"
  | reader => "reader"
  | verifier => "verifier"
  | wallet => "wallet"
  | holder => "holder"
  | audit => "audit"
  | evidence => "evidence"

inductive KeyPurpose
  | certificateSigning | documentSigning | vdsNcSigning
  | signatureVerification | certificateValidation
  | deviceBinding | sessionEstablishment | ephemeralCommunication
  | auditLogging | evidenceSigning | secureMessaging
  deriving DecidableEq

/-- `purpose.name.lower()` -/
def KeyPurpose.name : KeyPurpose → String
  | certificateSigning => "certificate_signing"
  | documentSigning => "document_signing"
  | vdsNcSigning => "vds_nc_signing"
  | signatureVerification => "signature_verification"
  | certificateValidation => "certificate_validation"
  | deviceBinding => "device_binding"
  | sessionEstablishment => "session_establishment"
  | ephemeralCommunication => "ephemeral_communication"
  | auditLogging => "audit_logging"
  | evidenceSigning => "evidence_signing"
  | secureMessaging => "secure_messaging"

/-- The purposes in `ROLE_POLICIES`. -/
def rolePurposes : CryptoRole → List KeyPurpose
  | .csca => [.certificateSigning]
  | .dsc => [.documentSigning, .vdsNcSigning]
  | .reader => [.signatureVerification, .certificateValidation]
  | .verifier => [.signatureVerification, .certificateValidation]
  | .wallet => [.deviceBinding, .sessionEstablishment]
  | .holder => [.ephemeralCommunication, .sessionEstablishment]
  | .audit => [.auditLogging]
  | .evidence => [.evidenceSigning]

def isCompatiblePurpose (role : CryptoRole) (purpose : KeyPurpose) : Bool :=
  purpose ∈ rolePurposes role

structure KeyIdentity where
  role : CryptoRole
  purpose : KeyPurpose
  keyId : String
  issuerIdentifier : Option String := none
  deviceIdentifier : Option String := none
  compatible : isCompatiblePurpose role purpose = true

namespace KeyIdentity

variable (k k' : KeyIdentity)

/-- The parts that the caller chooses. -/
def identifiers : List String :=
  k.keyId :: ((Text.truthy k.issuerIdentifier).toList ++ (Text.truthy k.deviceIdentifier).toList)

def fullKeyId : String := ":".intercalate (k.role.value :: k.purpose.name :: k.identifiers)

/-- Equal in all components, where an empty identifier is as good as none. -/
structure Same : Prop where
  role : k.role = k'.role
  purpose : k.purpose = k'.purpose
  keyId : k.keyId = k'.keyId
  issuerIdentifier : Text.truthy k.issuerIdentifier = Text.truthy k'.issuerIdentifier
  deviceIdentifier : Text.truthy k.deviceIdentifier = Text.truthy k'.deviceIdentifier

/-- The identities differ in the role, the purpose or the segments between the colons of their
identifiers. -/
def Apart : Prop :=
  k.role ≠ k'.role ∨ k.purpose ≠ k'.purpose ∨
    segments ':' k.identifiers ≠ segments ':' k'.identifiers

end KeyIdentity

/-! Credential key ids. -/

def credentialKeyPrefix : String := "cred:"

def isCredentialKey (keyId : String) : Bool := credentialKeyPrefix.toList.isPrefixOf keyId.toList

def getCredentialKeyType (keyId : String) : Option String :=
  if isCredentialKey keyId then ((keyId.toList.splitOn ':')[1]?).map String.ofList else none

def makeCredentialKeyId (keyType : String) (parts : List String) : String :=
  credentialKeyPrefix ++ keyType ++ ":" ++ ":".intercalate parts

/-! The role and the purpose can be read off a full id. -/

theorem CryptoRole.value_injective {r r' : CryptoRole} (h : r.value = r'.value) : r = r' := by
  revert h
  cases r <;> cases r' <;> decide

theorem KeyPurpose.name_injective {p p' : KeyPurpose} (h : p.name = p'.name) : p = p' := by
  revert h
  cases p <;> cases p' <;> decide

theorem CryptoRole.splitOn_value (r : CryptoRole) :
    r.value.toList.splitOn ':' = [r.value.toList] := by
  apply List.splitOn_eq_singleton
  cases r <;> decide

theorem KeyPurpose.splitOn_name (p : KeyPurpose) : p.name.toList.splitOn ':' = [p.name.toList] := by
  apply List.splitOn_eq_singleton
  cases p <;> decide

namespace KeyIdentity

variable {k k' : KeyIdentity}

theorem fullKeyId_eq_iff : k.fullKeyId = k'.fullKeyId ↔ ¬ k.Apart k' := by
  rw [fullKeyId, fullKeyId,
    join_eq_iff (c := ':') rfl (List.cons_ne_nil _ _) (List.cons_ne_nil _ _)]
  simp only [segments_cons, CryptoRole.splitOn_value, KeyPurpose.splitOn_name, List.cons_append,
    List.nil_append, List.cons.injEq, String.toList_inj]
  rw [Apart, not_or, not_or, not_not, not_not, not_not]
  refine and_congr ⟨CryptoRole.value_injective, congrArg _⟩ (and_congr_left' ?_)
  exact ⟨KeyPurpose.name_injective, congrArg _⟩

theorem Same.not_apart (h : k.Same k') : ¬ k.Apart k' := by
  rw [← fullKeyId_eq_iff, fullKeyId, fullKeyId, identifiers, identifiers, h.role, h.purpose,
    h.keyId, h.issuerIdentifier, h.deviceIdentifier]

/-- Identifiers without a colon are told apart, but not an issuer from a device. -/
theorem apart_iff_of_colonFree (h : ∀ part ∈ k.identifiers, ':' ∉ part.toList)
    (h' : ∀ part ∈ k'.identifiers, ':' ∉ part.toList) :
    k.Apart k' ↔ k.role ≠ k'.role ∨ k.purpose ≠ k'.purpose ∨ k.identifiers ≠ k'.identifiers := by
  rw [Apart, Ne, Ne, Ne, segments_eq_iff h h']

end KeyIdentity

/-! The same for credential keys. -/

section

variable {keyType keyType' part part' : String} {parts parts' : List String}

theorem makeCredentialKeyId_eq_join (keyType part : String) (parts : List String) :
    makeCredentialKeyId keyType (part :: parts) =
      credentialKeyPrefix ++ ":".intercalate (keyType :: part :: parts) := by
  rw [makeCredentialKeyId, String.intercalate_cons_cons]
  simp only [String.append_assoc]

theorem makeCredentialKeyId_eq_iff :
    makeCredentialKeyId keyType (part :: parts) = makeCredentialKeyId keyType' (part' :: parts') ↔
      segments ':' (keyType :: part :: parts) = segments ':' (keyType' :: part' :: parts') := by
  rw [makeCredentialKeyId_eq_join, makeCredentialKeyId_eq_join,
    ← join_eq_iff (c := ':') (s := ":") rfl (List.cons_ne_nil _ _) (List.cons_ne_nil _ _)]
  constructor
  · intro h
    have htext := congrArg String.toList h
    rw [String.toList_append, String.toList_append] at htext
    exact String.toList_injective (List.append_cancel_left htext)
  · intro h
    rw [h]

/-- A type without a colon is read back. -/
theorem getCredentialKeyType_make (h : ':' ∉ keyType.toList) (parts : List String) :
    getCredentialKeyType (makeCredentialKeyId keyType parts) = some keyType := by
  have htext : (makeCredentialKeyId keyType parts).toList =
      "cred".toList ++ ':' :: (keyType.toList ++ ':' :: (":".intercalate parts).toList) := by
    simp [makeCredentialKeyId, credentialKeyPrefix]
  have hprefix : isCredentialKey (makeCredentialKeyId keyType parts) = true := by
    rw [isCredentialKey, htext, List.isPrefixOf_iff_prefix]
    exact List.prefix_append ("cred".toList ++ [':']) _
  have hsplit : (makeCredentialKeyId keyType parts).toList.splitOn ':' =
      "cred".toList :: keyType.toList :: (":".intercalate parts).toList.splitOn ':' := by
    rw [htext, List.splitOn_append_cons_self_of_not_mem (by decide),
      List.splitOn_append_cons_self_of_not_mem h]
  rw [getCredentialKeyType, if_pos hprefix, hsplit]
  simp

end

/-- Two key identities, and two credential keys with a part at least, have different ids unless they
are the same exactly when the segments of what they are joined from differ. -/
theorem key_ids_distinct_iff (k k' : KeyIdentity) (keyType keyType' part part' : String)
    (parts parts' : List String) :
    ((¬ k.Same k' → k.fullKeyId ≠ k'.fullKeyId) ↔ k.Same k' ∨ k.Apart k') ∧
    (((keyType, part :: parts) ≠ (keyType', part' :: parts') →
        makeCredentialKeyId keyType (part :: parts) ≠
          makeCredentialKeyId keyType' (part' :: parts')) ↔
      (keyType, part :: parts) = (keyType', part' :: parts') ∨
        segments ':' (keyType :: part :: parts) ≠ segments ':' (keyType' :: part' :: parts')) := by
  constructor
  · rw [Ne, KeyIdentity.fullKeyId_eq_iff, not_not, or_iff_not_imp_left]
  · rw [Ne, Ne, Ne, makeCredentialKeyId_eq_iff, or_iff_not_imp_left]

/-! Ids that coincide. -/

def signer (keyId : String) (issuerIdentifier deviceIdentifier : Option String) : KeyIdentity where
  role := .dsc
  purpose := .documentSigning
  keyId := keyId
  issuerIdentifier := issuerIdentifier
  deviceIdentifier := deviceIdentifier
  compatible := rfl

/-- An issuer is taken for a device, and a colon in a part for one between two parts. -/
theorem key_ids_collide :
    (signer "key1" (some "US") none).fullKeyId = (signer "key1" none (some "US")).fullKeyId ∧
      ¬ (signer "key1" (some "US") none).Same (signer "key1" none (some "US")) ∧
    (signer "key1" (some "US") none).fullKeyId = (signer "key1:US" none none).fullKeyId ∧
      ¬ (signer "key1" (some "US") none).Same (signer "key1:US" none none) ∧
    makeCredentialKeyId "issuer" ["US", "key1"] = makeCredentialKeyId "issuer" ["US:key1"] := by
  refine ⟨by decide, fun h => ?_, by decide, fun h => ?_, by decide⟩
  · exact absurd h.issuerIdentifier (by decide)
  · exact absurd h.keyId (by decide)

end Marty.Crypto.RoleSeparation
