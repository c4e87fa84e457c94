import Marty.Lib.Cedar

/-! `gateway_policies.cedar` and `credential_verification.cedar`, policy by policy, and the
policy set of `CedarEngine.with_credential_verification`. -/

namespace Marty.Cedar.Policies

open Lib.Cedar

def user : String := "MIP::User"

def apiKey : String := "MIP::ApiKey"

def action (id : String) : EntityUID := ⟨"MIP::Action", id⟩

def role (id : String) : EntityUID := ⟨"MIP::Role", id⟩

/-! Gateway policies. -/

/-- A permit for the users of a role. -/
def rolePolicy (id : String) (actions : Scope) (roleId : String) : Policy where
  id := id
  effect := .permit
  principal := .is user
  action := actions
  condition := .mem (.var .principal) (.lit (.entity (role roleId)))

def ownerFullAccess : Policy := rolePolicy "role-owner-full-access" .any "owner"

def adminFullAccess : Policy := rolePolicy "role-admin-full-access" .any "admin"

def viewerActions : List String :=
  ["credentials:read", "flows:read", "applications:read", "trust:read", "compliance:read",
    "templates:read", "webhooks:read", "integrations:read", "notifications:read", "audit:read",
    "deployment:read", "users:read", "roles:read", "keys:read", "policy_sets:read"]

def memberActions : List String :=
  ["credentials:issue", "credentials:revoke", "credentials:read", "credentials:verify",
    "flows:read", "flows:write", "flows:execute", "applications:read", "applications:write",
    "applications:approve", "applications:reject", "trust:read", "trust:write",
    "compliance:read", "compliance:write", "templates:read", "templates:write", "webhooks:read",
    "webhooks:write", "integrations:read", "integrations:write", "notifications:read",
    "notifications:send", "audit:read", "deployment:read", "users:read", "roles:read",
    "keys:read", "policy_sets:read"]

def memberStandardAccess : Policy :=
  rolePolicy "role-member-standard-access" (.mem (memberActions.map action)) "member"

def viewerReadOnly : Policy :=
  rolePolicy "role-viewer-read-only" (.mem (viewerActions.map action)) "viewer"

def orgApikeyFullAccess : Policy where
  id := "org-apikey-full-access"
  effect := .permit
  principal := .is apiKey
  condition :=
    .and (.eq (.attr .principal "scope_type") (.str "ORGANIZATION")) (.attr .principal "enabled")

def denyDisabledApikeys : Policy where
  id := "deny-disabled-apikeys"
  effect := .forbid
  principal := .is apiKey
  condition := .not (.attr .principal "enabled")

def denySuspendedUsers : Policy where
  id := "deny-suspended-users"
  effect := .forbid
  principal := .is user
  condition :=
    .or (.eq (.attr .principal "status") (.str "SUSPENDED"))
      (.eq (.attr .principal "status") (.str "DEACTIVATED"))

def gatewayPolicies : List Policy :=
  [ownerFullAccess, adminFullAccess, memberStandardAccess, viewerReadOnly, orgApikeyFullAccess,
    denyDisabledApikeys, denySuspendedUsers]

/-! Credential verification policies. -/

def verify : EntityUID := action "credentials:verify"

def verifyPolicy (effect : Effect) (id : String) (condition : Expr) : Policy where
  id := id
  effect := effect
  action := .eq verify
  condition := condition

def complianceCode (code : String) : Expr := .eq (.context "compliance_code") (.str code)

def permitValidCredentials : Policy :=
  verifyPolicy .permit "permit-valid-credentials"
    (.and
      (.and
        (.or (.not (.context "revocation_required"))
          (.and (.context "revocation_checked") (.not (.context "is_revoked"))))
        (.not (.context "is_expired")))
      (.ge (.context "issuer_trust_level") (.num 50)))

def denyRevokedCredentials : Policy :=
  verifyPolicy .forbid "deny-revoked-credentials" (.context "is_revoked")

def denyUncheckedRequiredRevocation : Policy :=
  verifyPolicy .forbid "deny-unchecked-required-revocation"
    (.and (.context "revocation_required") (.not (.context "revocation_checked")))

def denyExpiredCredentials : Policy :=
  verifyPolicy .forbid "deny-expired-credentials" (.context "is_expired")

def denyUntrustedIssuers : Policy :=
  verifyPolicy .forbid "deny-untrusted-issuers" (.less (.context "issuer_trust_level") (.num 10))

def formatRequirement (id code format : String) : Policy :=
  verifyPolicy .forbid id
    (.and (complianceCode code) (.ne (.context "credential_format") (.str format)))

def holderBinding (id code : String) : Policy :=
  verifyPolicy .forbid id (.and (complianceCode code) (.not (.context "holder_binding_present")))

def icaoDtcFormatRequirement : Policy :=
  formatRequirement "icao-dtc-format-requirement" "ICAO_DTC" "MDOC"

def icaoDtcHolderBinding : Policy := holderBinding "icao-dtc-holder-binding" "ICAO_DTC"

def aamvaMdlFormatRequirement : Policy :=
  formatRequirement "aamva-mdl-format-requirement" "AAMVA_MDL" "MDOC"

def aamvaMdlHolderBinding : Policy := holderBinding "aamva-mdl-holder-binding" "AAMVA_MDL"

def eudiPidFormatRequirement : Policy :=
  formatRequirement "eudi-pid-format-requirement" "EUDI_PID" "SD_JWT_VC"

def eudiPidHolderBinding : Policy := holderBinding "eudi-pid-holder-binding" "EUDI_PID"

def denyWeakAlgorithms : Policy :=
  verifyPolicy .forbid "deny-weak-algorithms"
    (.or (.eq (.context "algorithm") (.str "RS256")) (.eq (.context "algorithm") (.str "RS384")))

def highAssuranceFreshness : Policy :=
  verifyPolicy .forbid "high-assurance-freshness"
    (.and
      (.or (.or (complianceCode "ICAO_DTC") (complianceCode "AAMVA_MDL"))
        (complianceCode "EUDI_PID"))
      (.gt (.context "credential_age_seconds") (.num 86400)))

def credentialVerificationPolicies : List Policy :=
  [permitValidCredentials, denyRevokedCredentials, denyUncheckedRequiredRevocation,
    denyExpiredCredentials, denyUntrustedIssuers, icaoDtcFormatRequirement, icaoDtcHolderBinding,
    aamvaMdlFormatRequirement, aamvaMdlHolderBinding, eudiPidFormatRequirement,
    eudiPidHolderBinding, denyWeakAlgorithms, highAssuranceFreshness]

/-- The policies of `with_defaults`, then those appended. -/
def withCredentialVerification : List Policy := gatewayPolicies ++ credentialVerificationPolicies

/-- The `CredentialContext` of the schema. -/
structure CredentialContext where
  credentialFormat : String
  complianceCode : String
  issuerId : String
  issuerTrustLevel : Int
  credentialAgeSeconds : Int
  revocationChecked : Bool
  revocationRequired : Bool
  isRevoked : Bool
  isExpired : Bool
  holderBindingPresent : Bool
  algorithm : String

def CredentialContext.record (c : CredentialContext) : List (String × Value) :=
  [("credential_format", .string c.credentialFormat),
    ("compliance_code", .string c.complianceCode),
    ("issuer_id", .string c.issuerId),
    ("issuer_trust_level", .long c.issuerTrustLevel),
    ("credential_age_seconds", .long c.credentialAgeSeconds),
    ("revocation_checked", .bool c.revocationChecked),
    ("revocation_required", .bool c.revocationRequired),
    ("is_revoked", .bool c.isRevoked),
    ("is_expired", .bool c.isExpired),
    ("holder_binding_present", .bool c.holderBindingPresent),
    ("algorithm", .string c.algorithm)]

section record

variable (c : CredentialContext)

@[simp]
theorem lookup_credentialFormat :
    c.record.lookup "credential_format" = some (.string c.credentialFormat) := by
  simp [CredentialContext.record]

@[simp]
theorem lookup_complianceCode :
    c.record.lookup "compliance_code" = some (.string c.complianceCode) := by
  simp [CredentialContext.record, List.lookup_cons]

@[simp]
theorem lookup_issuerTrustLevel :
    c.record.lookup "issuer_trust_level" = some (.long c.issuerTrustLevel) := by
  simp [CredentialContext.record, List.lookup_cons]

@[simp]
theorem lookup_credentialAgeSeconds :
    c.record.lookup "credential_age_seconds" = some (.long c.credentialAgeSeconds) := by
  simp [CredentialContext.record, List.lookup_cons]

@[simp]
theorem lookup_revocationChecked :
    c.record.lookup "revocation_checked" = some (.bool c.revocationChecked) := by
  simp [CredentialContext.record, List.lookup_cons]

@[simp]
theorem lookup_revocationRequired :
    c.record.lookup "revocation_required" = some (.bool c.revocationRequired) := by
  simp [CredentialContext.record, List.lookup_cons]

@[simp]
theorem lookup_isRevoked : c.record.lookup "is_revoked" = some (.bool c.isRevoked) := by
  simp [CredentialContext.record, List.lookup_cons]

@[simp]
theorem lookup_isExpired : c.record.lookup "is_expired" = some (.bool c.isExpired) := by
  simp [CredentialContext.record, List.lookup_cons]

@[simp]
theorem lookup_holderBindingPresent :
    c.record.lookup "holder_binding_present" = some (.bool c.holderBindingPresent) := by
  simp [CredentialContext.record, List.lookup_cons]

@[simp]
theorem lookup_algorithm : c.record.lookup "algorithm" = some (.string c.algorithm) := by
  simp [CredentialContext.record, List.lookup_cons]

end record

/-- A request to verify a credential. -/
def verifyRequest (principal resource : EntityUID) (c : CredentialContext) : Request where
  principal := principal
  action := verify
  resource := resource
  context := c.record

end Marty.Cedar.Policies
