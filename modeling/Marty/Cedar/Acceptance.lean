import Marty.Cedar.Policies

/-! Which credentials `CedarEngine.with_credential_verification` accepts. -/

namespace Marty.Cedar.Acceptance

open Lib.Cedar Policies

/-- An entity store for the schema, which declares no action groups. -/
structure Store where
  entities : Entities
  noActionGroups : ∀ id data, entities (action id) = some data → data.ancestors = []

variable {s : Store} {principal resource : EntityUID} {c : CredentialContext}

/-- A permit of the gateway applies to the principal. -/
def GatewayPermits (s : Store) (principal : EntityUID) : Prop :=
  principal.ty = user ∧ (s.entities.mem principal (role "owner") ∨
      s.entities.mem principal (role "admin") ∨ s.entities.mem principal (role "member")) ∨
    principal.ty = apiKey ∧
      s.entities.attr principal "scope_type" = .ok (.string "ORGANIZATION") ∧
      s.entities.attr principal "enabled" = .ok (.bool true)

/-- The principal is a disabled API key or a user who is not active. -/
def Barred (s : Store) (principal : EntityUID) : Prop :=
  principal.ty = apiKey ∧ s.entities.attr principal "enabled" = .ok (.bool false) ∨
    principal.ty = user ∧
      (s.entities.attr principal "status" = .ok (.string "SUSPENDED") ∨
        s.entities.attr principal "status" = .ok (.string "DEACTIVATED"))

/-- The rules for an accepted credential, trust in its issuer apart. -/
structure MeetsRules (c : CredentialContext) : Prop where
  notRevoked : c.isRevoked = false
  notExpired : c.isExpired = false
  statusChecked : c.revocationRequired = true → c.revocationChecked = true
  icaoDtc : c.complianceCode = "ICAO_DTC" →
    c.credentialFormat = "MDOC" ∧ c.holderBindingPresent = true
  aamvaMdl : c.complianceCode = "AAMVA_MDL" →
    c.credentialFormat = "MDOC" ∧ c.holderBindingPresent = true
  eudiPid : c.complianceCode = "EUDI_PID" →
    c.credentialFormat = "SD_JWT_VC" ∧ c.holderBindingPresent = true
  strongAlgorithm : c.algorithm ≠ "RS256" ∧ c.algorithm ≠ "RS384"
  fresh : c.complianceCode = "ICAO_DTC" ∨ c.complianceCode = "AAMVA_MDL" ∨
    c.complianceCode = "EUDI_PID" → c.credentialAgeSeconds ≤ 86400

theorem mem_action_iff {id id' : String} :
    s.entities.mem (action id) (action id') ↔ id = id' := by
  simp only [Entities.mem, Bool.or_eq_true, decide_eq_true_eq]
  constructor
  · rintro (h | h)
    · simpa [action] using h
    · cases hd : s.entities (action id) with
      | none => simp [hd] at h
      | some data => simp [hd, s.noActionGroups id data hd] at h
  · rintro rfl
    exact .inl rfl

theorem verifyPolicy_satisfied {effect : Effect} {id : String} {condition : Expr} :
    (verifyPolicy effect id condition).satisfied (verifyRequest principal resource c) s.entities ↔
      Yields (verifyRequest principal resource c) s.entities condition true := by
  simp [Policy.satisfied_iff, verifyPolicy, verifyRequest]

theorem rolePolicy_satisfied {id roleId : String} {actions : Scope} :
    (rolePolicy id actions roleId).satisfied (verifyRequest principal resource c) s.entities ↔
      principal.ty = user ∧ actions.holds s.entities verify ∧
        s.entities.mem principal (role roleId) := by
  simp [Policy.satisfied_iff, rolePolicy, verifyRequest, evaluate, Request.var, and_assoc]

theorem memberActions_holds :
    (Scope.mem (memberActions.map action)).holds s.entities verify = true := by
  simp [verify, memberActions, mem_action_iff]

theorem viewerActions_holds :
    ¬ (Scope.mem (viewerActions.map action)).holds s.entities verify = true := by
  simp [verify, viewerActions, mem_action_iff]

theorem orgApikeyFullAccess_satisfied :
    orgApikeyFullAccess.satisfied (verifyRequest principal resource c) s.entities ↔
      principal.ty = apiKey ∧
        s.entities.attr principal "scope_type" = .ok (.string "ORGANIZATION") ∧
        s.entities.attr principal "enabled" = .ok (.bool true) := by
  simp [Policy.satisfied_iff, orgApikeyFullAccess, verifyRequest, evaluate, Request.var, Expr.str]

/-- The base rule of the verification policies. -/
def ValidTrusted (c : CredentialContext) : Prop :=
  (c.revocationRequired = true → c.revocationChecked = true ∧ c.isRevoked = false) ∧
    c.isExpired = false ∧ 50 ≤ c.issuerTrustLevel

theorem permitValidCredentials_satisfied :
    permitValidCredentials.satisfied (verifyRequest principal resource c) s.entities ↔
      ValidTrusted c := by
  rw [permitValidCredentials, verifyPolicy_satisfied]
  cases h : c.revocationRequired <;>
    simp [verifyRequest, Expr.ge, Expr.num, evaluate, ValidTrusted, h, and_assoc]

theorem permits_iff :
    (∃ p ∈ withCredentialVerification.filter (·.effect = .permit),
      p.satisfied (verifyRequest principal resource c) s.entities = true) ↔
      GatewayPermits s principal ∨ ValidTrusted c := by
  have hfilter : withCredentialVerification.filter (·.effect = .permit) =
      [ownerFullAccess, adminFullAccess, memberStandardAccess, viewerReadOnly,
        orgApikeyFullAccess, permitValidCredentials] := rfl
  rw [hfilter]
  simp only [List.mem_cons, List.not_mem_nil, or_false, exists_eq_or_imp, exists_eq_left,
    ownerFullAccess, adminFullAccess, memberStandardAccess, viewerReadOnly, rolePolicy_satisfied,
    orgApikeyFullAccess_satisfied, permitValidCredentials_satisfied, memberActions_holds,
    viewerActions_holds, Scope.holds_any, true_and, false_and, and_false, false_or,
    Bool.false_eq_true, GatewayPermits, and_or_left, or_assoc]

theorem denyDisabledApikeys_satisfied :
    denyDisabledApikeys.satisfied (verifyRequest principal resource c) s.entities ↔
      principal.ty = apiKey ∧ s.entities.attr principal "enabled" = .ok (.bool false) := by
  simp [Policy.satisfied_iff, denyDisabledApikeys, verifyRequest, Request.var]

theorem denySuspendedUsers_satisfied :
    denySuspendedUsers.satisfied (verifyRequest principal resource c) s.entities ↔
      principal.ty = user ∧
        (s.entities.attr principal "status" = .ok (.string "SUSPENDED") ∨
          s.entities.attr principal "status" = .ok (.string "DEACTIVATED")) := by
  simp only [Policy.satisfied_iff, denySuspendedUsers, verifyRequest, Scope.holds_is,
    Scope.holds_any, and_true, yields_or_true, yields_eq, evaluate, Request.var, Expr.str]
  refine and_congr_right fun _ => ?_
  constructor
  · rintro (⟨v, w, hv, hw, heq⟩ | ⟨-, v, w, hv, hw, heq⟩)
    · cases hw
      exact .inl (by rwa [of_decide_eq_true heq] at hv)
    · cases hw
      exact .inr (by rwa [of_decide_eq_true heq] at hv)
  · rintro (h | h)
    · exact .inl ⟨_, _, h, rfl, by simp⟩
    · exact .inr ⟨⟨_, _, h, rfl, by decide⟩, _, _, h, rfl, by simp⟩

theorem formatRequirement_satisfied {id code format : String} :
    (formatRequirement id code format).satisfied (verifyRequest principal resource c) s.entities ↔
      c.complianceCode = code ∧ c.credentialFormat ≠ format := by
  rw [formatRequirement, verifyPolicy_satisfied]
  simp [complianceCode, verifyRequest, evaluate, Expr.str, Expr.ne]

theorem holderBinding_satisfied {id code : String} :
    (holderBinding id code).satisfied (verifyRequest principal resource c) s.entities ↔
      c.complianceCode = code ∧ c.holderBindingPresent = false := by
  rw [holderBinding, verifyPolicy_satisfied]
  simp [complianceCode, verifyRequest, evaluate, Expr.str]

theorem denyWeakAlgorithms_satisfied :
    denyWeakAlgorithms.satisfied (verifyRequest principal resource c) s.entities ↔
      c.algorithm = "RS256" ∨ c.algorithm = "RS384" := by
  rw [denyWeakAlgorithms, verifyPolicy_satisfied]
  by_cases h : c.algorithm = "RS256" <;> simp [verifyRequest, evaluate, Expr.str, h]

theorem highAssuranceFreshness_satisfied :
    highAssuranceFreshness.satisfied (verifyRequest principal resource c) s.entities ↔
      (c.complianceCode = "ICAO_DTC" ∨ c.complianceCode = "AAMVA_MDL" ∨
        c.complianceCode = "EUDI_PID") ∧ 86400 < c.credentialAgeSeconds := by
  rw [highAssuranceFreshness, verifyPolicy_satisfied]
  by_cases hi : c.complianceCode = "ICAO_DTC" <;> by_cases ha : c.complianceCode = "AAMVA_MDL" <;>
    simp [complianceCode, verifyRequest, evaluate, Expr.str, Expr.gt, Expr.num, hi, ha]

theorem denyRevokedCredentials_satisfied :
    denyRevokedCredentials.satisfied (verifyRequest principal resource c) s.entities ↔
      c.isRevoked = true := by
  rw [denyRevokedCredentials, verifyPolicy_satisfied]
  simp [verifyRequest]

theorem denyUncheckedRequiredRevocation_satisfied :
    denyUncheckedRequiredRevocation.satisfied (verifyRequest principal resource c) s.entities ↔
      c.revocationRequired = true ∧ c.revocationChecked = false := by
  rw [denyUncheckedRequiredRevocation, verifyPolicy_satisfied]
  simp [verifyRequest]

theorem denyExpiredCredentials_satisfied :
    denyExpiredCredentials.satisfied (verifyRequest principal resource c) s.entities ↔
      c.isExpired = true := by
  rw [denyExpiredCredentials, verifyPolicy_satisfied]
  simp [verifyRequest]

theorem denyUntrustedIssuers_satisfied :
    denyUntrustedIssuers.satisfied (verifyRequest principal resource c) s.entities ↔
      c.issuerTrustLevel < 10 := by
  rw [denyUntrustedIssuers, verifyPolicy_satisfied]
  simp [verifyRequest, evaluate, Expr.num]

theorem not_forbidden_iff :
    (¬ ∃ p ∈ withCredentialVerification.filter (·.effect = .forbid),
      p.satisfied (verifyRequest principal resource c) s.entities = true) ↔
      ¬ Barred s principal ∧ 10 ≤ c.issuerTrustLevel ∧ MeetsRules c := by
  have hfilter : withCredentialVerification.filter (·.effect = .forbid) =
      [denyDisabledApikeys, denySuspendedUsers, denyRevokedCredentials,
        denyUncheckedRequiredRevocation, denyExpiredCredentials, denyUntrustedIssuers,
        icaoDtcFormatRequirement, icaoDtcHolderBinding, aamvaMdlFormatRequirement,
        aamvaMdlHolderBinding, eudiPidFormatRequirement, eudiPidHolderBinding,
        denyWeakAlgorithms, highAssuranceFreshness] := rfl
  rw [hfilter]
  simp only [List.mem_cons, List.not_mem_nil, or_false, exists_eq_or_imp, exists_eq_left,
    denyDisabledApikeys_satisfied, denySuspendedUsers_satisfied, denyRevokedCredentials_satisfied,
    denyUncheckedRequiredRevocation_satisfied, denyExpiredCredentials_satisfied,
    denyUntrustedIssuers_satisfied, icaoDtcFormatRequirement, icaoDtcHolderBinding,
    aamvaMdlFormatRequirement, aamvaMdlHolderBinding, eudiPidFormatRequirement,
    eudiPidHolderBinding, formatRequirement_satisfied, holderBinding_satisfied,
    denyWeakAlgorithms_satisfied, highAssuranceFreshness_satisfied, not_or]
  constructor
  · rintro ⟨hkey, huser, hrevoked, hunchecked, hexpired, htrust, hif, hih, haf, hah, hef, heh,
      halgorithm, hage⟩
    refine ⟨fun h => h.elim hkey huser, Int.not_lt.mp htrust, ?_⟩
    constructor
    case notRevoked => simpa using hrevoked
    case notExpired => simpa using hexpired
    case statusChecked => simpa using hunchecked
    case icaoDtc => exact fun h => ⟨by simpa [h] using hif, by simpa [h] using hih⟩
    case aamvaMdl => exact fun h => ⟨by simpa [h] using haf, by simpa [h] using hah⟩
    case eudiPid => exact fun h => ⟨by simpa [h] using hef, by simpa [h] using heh⟩
    case strongAlgorithm => exact halgorithm
    case fresh => exact fun h => Int.not_lt.mp fun hlt => hage ⟨h, hlt⟩
  · rintro ⟨hbarred, htrust, hrules⟩
    refine ⟨fun h => hbarred (.inl h), fun h => hbarred (.inr h), by simp [hrules.notRevoked],
      fun h => by simp [hrules.statusChecked h.1] at h, by simp [hrules.notExpired],
      Int.not_lt.mpr htrust, fun h => h.2 (hrules.icaoDtc h.1).1,
      fun h => by simp [hrules.icaoDtc h.1] at h, fun h => h.2 (hrules.aamvaMdl h.1).1,
      fun h => by simp [hrules.aamvaMdl h.1] at h, fun h => h.2 (hrules.eudiPid h.1).1,
      fun h => by simp [hrules.eudiPid h.1] at h, hrules.strongAlgorithm,
      fun h => Int.not_lt.mpr (hrules.fresh h.1) h.2⟩

/-- What the policy set accepts: a principal the gateway permits needs no trusted issuer. -/
theorem isAuthorized_verify_iff :
    isAuthorized (verifyRequest principal resource c) s.entities withCredentialVerification = true ↔
      (GatewayPermits s principal ∨ ValidTrusted c) ∧ ¬ Barred s principal ∧
        10 ≤ c.issuerTrustLevel ∧ MeetsRules c := by
  rw [isAuthorized_iff, permits_iff, not_forbidden_iff]

/-- Every accepted credential meets the rules and has an issuer of trust level fifty or more,
unless the level is between ten and fifty, the gateway permits the principal on its own, and
nothing else stands against the request. -/
theorem verify_sound_iff (s : Store) (principal resource : EntityUID) (c : CredentialContext) :
    (isAuthorized (verifyRequest principal resource c) s.entities withCredentialVerification =
          true →
        50 ≤ c.issuerTrustLevel ∧ MeetsRules c) ↔
      (10 ≤ c.issuerTrustLevel → c.issuerTrustLevel < 50 → GatewayPermits s principal →
        Barred s principal ∨ ¬ MeetsRules c) := by
  rw [isAuthorized_verify_iff]
  constructor
  · intro h hlow hhigh hgateway
    by_contra hno
    rw [not_or, not_not] at hno
    have := (h ⟨.inl hgateway, hno.1, hlow, hno.2⟩).1
    omega
  · rintro h ⟨hgateway | ⟨-, -, htrust⟩, hbarred, hlow, hrules⟩
    · refine ⟨?_, hrules⟩
      by_contra hhigh
      exact (h hlow (by omega) hgateway).elim hbarred fun hno => hno hrules
    · exact ⟨htrust, hrules⟩

/-- A member of the organization, by its role alone. -/
def memberStore : Store where
  entities uid :=
    if uid = ⟨user, "alice"⟩ then
      some { attrs := [("email", .string "alice@example.org"), ("status", .string "ACTIVE")]
             ancestors := [role "member"] }
    else none
  noActionGroups := by simp [action, user]

def lowTrust : CredentialContext where
  credentialFormat := "SD_JWT_VC"
  complianceCode := "UNSPECIFIED"
  issuerId := "https://issuer.example"
  issuerTrustLevel := 10
  credentialAgeSeconds := 60
  revocationChecked := false
  revocationRequired := false
  isRevoked := false
  isExpired := false
  holderBindingPresent := true
  algorithm := "ES256"

/-- A member has a credential accepted from an issuer of trust level ten. -/
theorem member_accepts_lowTrust :
    isAuthorized
        (verifyRequest ⟨user, "alice"⟩ ⟨"MIP::Credential", "presented-credential"⟩ lowTrust)
        memberStore.entities withCredentialVerification = true ∧
      ¬ 50 ≤ lowTrust.issuerTrustLevel := by
  decide

end Marty.Cedar.Acceptance
