import Mathlib.Logic.Relation
import Marty.Crypto.RoleSeparation

/-! `RoleSeparationEnforcer`: where the material of a key can get to over any number of sharings
that are validated, and who has an operation with it validated there. -/

namespace Marty.Crypto.KeySharing

open RoleSeparation

/-- `str` of the role. -/
def str : CryptoRole → String
  | .csca => "CryptoRole.CSCA"
  | .dsc => "CryptoRole.DSC"
  | .reader => "CryptoRole.READER"
  | .verifier => "CryptoRole.VERIFIER"
  | .wallet => "CryptoRole.WALLET"
  | .holder => "CryptoRole.HOLDER"
  | .audit => "CryptoRole.AUDIT"
  | .evidence => "CryptoRole.EVIDENCE"

/-- The policies of all roles say no. -/
def canCrossBoundaries (_ : CryptoRole) : Bool := false

/-- The error is the message of a `RoleBoundaryViolation`. -/
def validateKeyOperation (key : KeyIdentity) (operation : String) (requestingRole : CryptoRole) :
    Except String Unit :=
  if key.role ≠ requestingRole ∧ canCrossBoundaries key.role = false then
    .error ("Role " ++ str requestingRole ++ " cannot use " ++ str key.role ++ " keys")
  else if operation = "sign" ∧ key.role ∈ [.reader, .verifier] then
    .error "Reader/Verifier roles cannot perform signing operations"
  else .ok ()

def validateKeySharing (sourceRole targetRole : CryptoRole) (keyPurpose : KeyPurpose) :
    Except String Unit :=
  if sourceRole ∈ [.csca, .dsc] ∧ keyPurpose ∈ [.certificateSigning, .documentSigning] then
    .error ("Private keys from " ++ str sourceRole ++ " cannot be shared")
  else if keyPurpose ∈ [.signatureVerification, .certificateValidation] then .ok ()
  else if sourceRole ∈ [.wallet, .holder] ∧ targetRole ∉ [.wallet, .holder] then
    .error ("Wallet/Holder keys cannot be shared with " ++ str targetRole)
  else .ok ()

/-- The one role may pass the key on to the other. -/
def Shares (key : KeyIdentity) (a b : CryptoRole) : Prop :=
  validateKeySharing a b key.purpose = .ok ()

/-- The key can get from its own role to the role, from one to the next. -/
def Reaches (key : KeyIdentity) (r : CryptoRole) : Prop :=
  Relation.ReflTransGen (Shares key) key.role r

/-- The purposes for which no rule keeps a key where it is: the signing of VDS-NC barcodes is among
them. -/
def freePurposes : List KeyPurpose :=
  [.signatureVerification, .certificateValidation, .vdsNcSigning, .auditLogging, .evidenceSigning]

/-- Where a key can get to. -/
def Range (key : KeyIdentity) (r : CryptoRole) : Prop :=
  r = key.role ∨ key.purpose ∈ freePurposes ∨
    (key.role ∈ [.wallet, .holder] ∧ r ∈ [.wallet, .holder])

variable {key : KeyIdentity} {a b r : CryptoRole}

theorem Shares.iff : Shares key a b ↔
    ¬ (a ∈ [.csca, .dsc] ∧ key.purpose ∈ [.certificateSigning, .documentSigning]) ∧
      (key.purpose ∈ [.signatureVerification, .certificateValidation] ∨
        ¬ (a ∈ [.wallet, .holder] ∧ b ∉ [.wallet, .holder])) := by
  unfold Shares validateKeySharing
  split
  case isTrue h => simp [h]
  case isFalse h =>
    rw [and_iff_right h]
    split
    case isTrue hpublic => simp [hpublic]
    case isFalse hpublic =>
      rw [or_iff_right hpublic]
      split
      case isTrue hisolated => simp [hisolated]
      case isFalse hisolated => simp only [hisolated, not_false_eq_true]

/-- The other keys are those that sign for an issuing authority and those of wallets and holders. -/
theorem bound_cases (h : key.purpose ∉ freePurposes) :
    (key.role ∈ [.csca, .dsc] ∧ key.purpose ∈ [.certificateSigning, .documentSigning]) ∨
      (key.role ∈ [.wallet, .holder] ∧
        key.purpose ∉ [.signatureVerification, .certificateValidation]) := by
  have hcompatible := key.compatible
  cases hrole : key.role <;> cases hpurpose : key.purpose <;>
    simp_all [isCompatiblePurpose, rolePurposes, freePurposes]

theorem free_cases (h : key.purpose ∈ freePurposes) :
    key.purpose ∉ [.certificateSigning, .documentSigning] ∧
      (key.purpose ∈ [.signatureVerification, .certificateValidation] ∨
        key.role ∉ [.wallet, .holder]) := by
  have hcompatible := key.compatible
  cases hrole : key.role <;> cases hpurpose : key.purpose <;>
    simp_all [isCompatiblePurpose, rolePurposes, freePurposes]

/-- A sharing that is validated does not leave the range. -/
theorem Range.step (h : Range key a) (hshares : Shares key a b) : Range key b := by
  by_cases hfree : key.purpose ∈ freePurposes
  · exact .inr (.inl hfree)
  · obtain ⟨hissuing, hisolated⟩ := Shares.iff.mp hshares
    rcases bound_cases hfree with ⟨hrole, hpurpose⟩ | ⟨hrole, hpurpose⟩
    · rcases h with rfl | hpublic | ⟨hwallet, -⟩
      · exact absurd ⟨hrole, hpurpose⟩ hissuing
      · exact absurd hpublic hfree
      · cases hkey : key.role <;> simp [hkey] at hrole hwallet
    · have ha : a ∈ [.wallet, .holder] := by
        rcases h with rfl | hpublic | ⟨-, ha⟩
        · exact hrole
        · exact absurd hpublic hfree
        · exact ha
      refine .inr (.inr ⟨hrole, ?_⟩)
      by_contra hb
      exact hisolated.elim hpurpose fun h => h ⟨ha, hb⟩

theorem reaches_iff : Reaches key r ↔ Range key r := by
  constructor
  · intro h
    induction h with
    | refl => exact .inl rfl
    | tail _ hshares ih => exact ih.step hshares
  · rintro (rfl | hfree | ⟨hrole, hr⟩)
    · exact .refl
    · obtain ⟨hpurpose, hrole⟩ := free_cases hfree
      exact .single (Shares.iff.mpr
        ⟨fun h => hpurpose h.2, hrole.imp_right fun hrole h => hrole h.1⟩)
    · refine .single (Shares.iff.mpr ⟨fun h => ?_, .inr fun h => h.2 hr⟩)
      obtain ⟨hissuing, -⟩ := h
      cases hkey : key.role <;> simp [hkey] at hrole hissuing

theorem validateKeyOperation_eq_ok {operation : String} :
    validateKeyOperation key operation r = .ok () ↔
      r = key.role ∧ ¬ (operation = "sign" ∧ key.role ∈ [.reader, .verifier]) := by
  unfold validateKeyOperation
  split
  case isTrue h => simp [Ne.symm h.1]
  case isFalse h =>
    have hrole : key.role = r := by simpa [canCrossBoundaries] using h
    rw [and_iff_right hrole.symm]
    split
    case isTrue hsign => simp [hsign]
    case isFalse hsign => simp only [hsign, not_false_eq_true]

/-- Over any number of sharings the signing keys of certificates and documents stay with their
authority, and those of wallets and holders among the two; every other key can get to every role.
Wherever it is, an operation with it is validated for its own role alone. -/
theorem custody_iff (key : KeyIdentity) (r : CryptoRole) :
    (Reaches key r ↔ Range key r) ∧ ∀ operation,
      validateKeyOperation key operation r = .ok () ↔
        r = key.role ∧ ¬ (operation = "sign" ∧ key.role ∈ [.reader, .verifier]) :=
  ⟨reaches_iff, fun _ => validateKeyOperation_eq_ok⟩

end Marty.Crypto.KeySharing
