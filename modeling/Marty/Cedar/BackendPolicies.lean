import Marty.Cedar.Engine

/-! `backend_policies.cedar`, policy by policy, and what `PolicyEngine.evaluate` allows under it. -/

namespace Marty.Cedar.BackendPolicies

open Lib Lib.Cedar Lib.CedarText Policies PolicyEngine Engine
open CedarStore (Parent ancestors parentsOf store)

def documentSignerActions : List String :=
  ["document:sign", "document:verify", "certificate:validate"]

def inspectionOfficerActions : List String :=
  ["document:inspect", "document:verify", "passport:verify", "mdl:verify"]

def trustManagerActions : List String :=
  ["trust:manage", "trust:query", "certificate:issue", "certificate:revoke"]

def serviceAccountActions : List String := ["service:health", "service:metrics"]

def administratorActions : List String :=
  ["document:create", "document:read", "document:update", "document:sign", "document:verify",
    "document:revoke", "applicant:read", "applicant:update", "applicant:vet", "application:read",
    "application:create", "application:update", "application:approve", "application:reject",
    "vetting:create", "vetting:read", "vetting:update", "biometric:enroll", "biometric:verify",
    "kyc:review", "kyc:approve", "kyc:reject"]

def applicantActions : List String :=
  ["application:create", "application:read", "application:update", "document:read", "kyc:submit",
    "profile:read", "profile:update"]

def roleDocumentSigner : Policy :=
  rolePolicy "role-document-signer" (.mem (documentSignerActions.map action)) "document_signer"

def roleInspectionOfficer : Policy :=
  rolePolicy "role-inspection-officer" (.mem (inspectionOfficerActions.map action))
    "inspection_officer"

def roleTrustManager : Policy :=
  rolePolicy "role-trust-manager" (.mem (trustManagerActions.map action)) "trust_manager"

def serviceAccount : String := "MIP::ServiceAccount"

def roleServiceAccount : Policy where
  id := "role-service-account"
  effect := .permit
  principal := .is serviceAccount
  action := .mem (serviceAccountActions.map action)
  condition := .lit (.bool true)

def roleAdministrator : Policy :=
  rolePolicy "role-administrator" (.mem (administratorActions.map action)) "administrator"

def roleApplicant : Policy :=
  rolePolicy "role-applicant" (.mem (applicantActions.map action)) "applicant"

/-- The first and the last policy are written as those of the gateway. -/
def backendPolicies : List Policy :=
  [adminFullAccess, roleDocumentSigner, roleInspectionOfficer, roleTrustManager,
    roleServiceAccount, roleAdministrator, roleApplicant, denySuspendedUsers]

/-- The roles with actions of their own. -/
def roleActions : List (String × List String) :=
  [("document_signer", documentSignerActions), ("inspection_officer", inspectionOfficerActions),
    ("trust_manager", trustManagerActions), ("administrator", administratorActions),
    ("applicant", applicantActions)]

/-- One of the roles is allowed the action. -/
def Permits (roles : List String) (a : EntityUID) : Prop :=
  "admin" ∈ roles ∨ ∃ entry ∈ roleActions, (∃ id ∈ entry.2, a = action id) ∧ entry.1 ∈ roles

/-- `context.attributes.get("status", "ACTIVE")` -/
def status (context : AuthorizationContext) : Json :=
  (context.attributes.lookup "status").getD (.str "ACTIVE")

/-- What the policies ask of a user for an action. -/
structure Allowed (bare : Char → Bool) (lower : String → String) (context : AuthorizationContext)
    (a : EntityUID) : Prop where
  identity : ∃ identity, context.identity = some identity ∧ ∀ c ∈ identity.toList, Plain bare c
  permitted : Permits (context.roles.map lower) a
  notSuspended : status context ≠ .str "SUSPENDED"
  notDeactivated : status context ≠ .str "DEACTIVATED"

/-! The entities as they are read. -/

def roleEntity (lower : String → String) (r : String) : CedarStore.Entity where
  uid := role (lower r)
  attrs := [("is_system_role", .bool true)]

def userEntity (lower : String → String) (identity : String) (email status : Value)
    (roles : List String) : CedarStore.Entity where
  uid := ⟨user, identity⟩
  attrs := [("email", email), ("status", status)]
  parents := roles.map fun r => role (lower r)

def resourceEntity (context : AuthorizationContext) : CedarStore.Entity where
  uid := ⟨"MIP::ServiceResource", context.resourceId⟩

def entities (lower : String → String) (context : AuthorizationContext) (identity : String)
    (email status : Value) : List CedarStore.Entity :=
  context.roles.map (roleEntity lower) ++
    [userEntity lower identity email status context.roles, resourceEntity context]

variable {cedarpy : Cedarpy} {lower : String → String} {context : AuthorizationContext}
  {identity : String} {email st : Value} {es : List CedarStore.Entity} {a : EntityUID}

theorem readEntity_role (r : String) :
    readEntity { uid := roleUid lower r, attrs := [("is_system_role", .bool true)] } =
      some (roleEntity lower r) := rfl

/-- The entities are read where the two attributes of the user can be. -/
theorem readEntities_eq_some :
    (buildEntities lower context).mapM readEntity = some es ↔
      ∃ identity email st, context.identity = some identity ∧
        value ((context.attributes.lookup "email").getD (.str "")) = some email ∧
        value (status context) = some st ∧ es = entities lower context identity email st := by
  have hroles : (context.roles.map fun r =>
      ({ uid := roleUid lower r, attrs := [("is_system_role", .bool true)] } :
        PolicyEngine.Entity)).mapM readEntity = some (context.roles.map (roleEntity lower)) :=
    mapM_map_eq_some fun r _ => readEntity_role r
  have hparents : (context.roles.map (roleUid lower)).mapM readJsonUid =
      some (context.roles.map fun r => role (lower r)) := mapM_map_eq_some fun r _ => rfl
  rw [buildEntities, List.mapM_append, hroles]
  cases hidentity : context.identity with
  | none => simp [readEntity, readJsonUid]
  | some identity =>
    cases hemail : value ((context.attributes.lookup "email").getD (.str "")) with
    | none => simp [readEntity, readJsonUid, readAttr, hemail]
    | some email =>
      rw [status]
      cases hstatus : value ((context.attributes.lookup "status").getD (.str "ACTIVE")) with
      | none => simp [readEntity, readJsonUid, readAttr, hemail, hstatus]
      | some st =>
        simp [readEntity, readJsonUid, readAttr, hemail, hstatus, hparents, entities, userEntity,
          resourceEntity, user, eq_comm]

/-! The roles of a user are its parents, and nothing lies above them. -/

theorem user_notMem {id : String} (h : id ≠ identity) :
    ∀ e ∈ entities lower context identity email st, e.uid ≠ ⟨user, id⟩ := by
  intro e he
  rcases List.mem_append.mp he with he | he
  · obtain ⟨r, -, rfl⟩ := List.mem_map.mp he
    simp [roleEntity, role, user]
  · simp only [List.mem_cons, List.not_mem_nil, or_false] at he
    rcases he with rfl | rfl
    · simpa [userEntity] using Ne.symm h
    · simp [resourceEntity, user]

theorem parent_notAction : ∀ e ∈ entities lower context identity email st, ∀ parent ∈ e.parents,
    parent.ty ≠ "MIP::Action" := by
  intro e he
  rcases List.mem_append.mp he with he | he
  · obtain ⟨r, -, rfl⟩ := List.mem_map.mp he
    exact List.forall_mem_nil _
  · simp only [List.mem_cons, List.not_mem_nil, or_false] at he
    rcases he with rfl | rfl
    · simp [userEntity, role]
    · exact List.forall_mem_nil _

theorem find_user : (entities lower context identity email st).find? (·.uid = ⟨user, identity⟩) =
    some (userEntity lower identity email st context.roles) := by
  have hroles : (context.roles.map (roleEntity lower)).find?
      (·.uid = (⟨user, identity⟩ : EntityUID)) = none := by
    simp [roleEntity, role, user]
  rw [entities, List.find?_append, hroles, Option.none_or]
  exact List.find?_cons_of_pos (by simp [userEntity])

theorem mem_role_iff {r : String} :
    (store (entities lower context identity email st)).mem ⟨user, identity⟩ (role r) = true ↔
      r ∈ context.roles.map lower := by
  constructor
  · intro h
    rcases CedarStore.mem_cases h with heq | ⟨e, he, hparent⟩
    · simp [role, user] at heq
    · rcases List.mem_append.mp he with he | he
      · obtain ⟨r', -, rfl⟩ := List.mem_map.mp he
        cases hparent
      · simp only [List.mem_cons, List.not_mem_nil, or_false] at he
        rcases he with rfl | rfl
        · simpa [userEntity, role] using hparent
        · cases hparent
  · intro h
    obtain ⟨r', hr', rfl⟩ := List.mem_map.mp h
    rw [CedarStore.mem_store find_user]
    refine .inr (.single ?_)
    rw [Parent, parentsOf, find_user]
    exact List.mem_map_of_mem hr'

theorem attr_status {v : Value} :
    (store (entities lower context identity email st)).attr ⟨user, identity⟩ "status" = .ok v ↔
      st = v := by
  rw [CedarStore.attr_store find_user]
  simp [userEntity, List.lookup_cons]

section decision

variable {req : Lib.Cedar.Request}

theorem roleServiceAccount_satisfied {store : Entities} (h : req.principal.ty = user) :
    ¬ roleServiceAccount.satisfied req store = true := by
  rw [Policy.satisfied_iff]
  rintro ⟨⟨hprincipal, -⟩, -⟩
  rw [roleServiceAccount, Scope.holds_is, h] at hprincipal
  exact absurd hprincipal (by decide)

theorem permits_iff (hprincipal : req.principal.ty = user) :
    (∃ p ∈ backendPolicies.filter (·.effect = .permit),
      p.satisfied req (store (entities lower context identity email st)) = true) ↔
      (store (entities lower context identity email st)).mem req.principal (role "admin") = true ∨
        ∃ entry ∈ roleActions, (∃ id ∈ entry.2, req.action = action id) ∧
          (store (entities lower context identity email st)).mem req.principal (role entry.1) =
            true := by
  have hfilter : backendPolicies.filter (·.effect = .permit) =
      [adminFullAccess, roleDocumentSigner, roleInspectionOfficer, roleTrustManager,
        roleServiceAccount, roleAdministrator, roleApplicant] := rfl
  have hactions : ∀ ids : List String, (Scope.mem (ids.map action)).holds
      (store (entities lower context identity email st)) req.action = true ↔
        ∃ id ∈ ids, req.action = action id := fun ids => holds_actions parent_notAction
  rw [hfilter]
  simp only [roleActions, List.mem_cons, List.not_mem_nil, or_false, exists_eq_or_imp,
    exists_eq_left, adminFullAccess, roleDocumentSigner, roleInspectionOfficer, roleTrustManager,
    roleAdministrator, roleApplicant, rolePolicy_satisfied, roleServiceAccount_satisfied hprincipal,
    hprincipal, hactions, Scope.holds_any, true_and, Bool.false_eq_true, false_or]

theorem value_eq_string {j : Json} {text : String} :
    value j = some (.string text) ↔ j = .str text := by
  cases j with
  | int n =>
    rw [value]
    split <;> simp
  | null | bool | float | str | arr | obj => simp [value]

/-- The decision about the user whose entities they are. -/
theorem isAuthorized_user_iff (hprincipal : req.principal = ⟨user, identity⟩)
    (hst : value (status context) = some st) :
    isAuthorized req (store (entities lower context identity email st)) backendPolicies = true ↔
      Permits (context.roles.map lower) req.action ∧ status context ≠ .str "SUSPENDED" ∧
        status context ≠ .str "DEACTIVATED" := by
  have hfilter : backendPolicies.filter (·.effect = .forbid) = [denySuspendedUsers] := rfl
  have hty : req.principal.ty = user := by rw [hprincipal]
  have hvalue : ∀ text, status context = .str text ↔ st = .string text := by
    intro text
    rw [← value_eq_string, hst, Option.some.injEq]
  rw [isAuthorized_iff, permits_iff hty, hfilter]
  simp only [List.mem_singleton, exists_eq_left, denySuspendedUsers_satisfied, hprincipal,
    mem_role_iff, attr_status, true_and, not_or, Permits, ne_eq, hvalue]

/-- Nothing is allowed to a user whose entity is not there. -/
theorem not_isAuthorized_other (hty : req.principal.ty = user)
    (hid : req.principal.id ≠ identity) :
    ¬ isAuthorized req (store (entities lower context identity email st)) backendPolicies =
      true := by
  rw [isAuthorized_iff, permits_iff hty]
  have hnotMem : ∀ e ∈ entities lower context identity email st, e.uid ≠ req.principal := by
    have huid : req.principal = ⟨user, req.principal.id⟩ := by rw [← hty]
    rw [huid]
    exact user_notMem hid
  have hrole : ∀ r, (store (entities lower context identity email st)).mem req.principal (role r) ≠
      true := by
    intro r hmem
    rw [CedarStore.mem_of_notMem hnotMem] at hmem
    rw [hmem] at hty
    exact absurd hty (by simp [role, user])
  rintro ⟨hadmin | ⟨entry, -, -, hmem⟩, -⟩
  · exact hrole _ hadmin
  · exact hrole _ hmem

end decision

theorem request_principal {now : Int} {r : PolicyEngine.Request}
    (h : request context now = some r) :
    ∃ identity, context.identity = some identity ∧
      r.principal = "MIP::User" ++ "::\"" ++ identity ++ "\"" := by
  unfold request at h
  split at h
  case h_1 identity action hidentity haction =>
    cases h
    exact ⟨identity, (Text.truthy_eq_some.mp hidentity).1, rfl⟩
  case h_2 => cases h

/-- What the engine allows: a user whose name needs no escapes, by its roles alone, as long as its
status is neither of the two that are barred. -/
theorem evaluate_iff (cedarpy : Cedarpy) (lower : String → String) (context : AuthorizationContext)
    (now : Int) :
    PolicyEngine.evaluate lower (cedarpy.isAuthorizedJson (policySet backendPolicies)) context now =
        some true ↔
      ∃ r es req, request context now = some r ∧
        (buildEntities lower context).mapM readEntity = some es ∧ Reads cedarpy r es req ∧
        Allowed cedarpy.bare lower context req.action := by
  unfold PolicyEngine.evaluate
  cases hrequest : request context now with
  | none => simp
  | some r =>
    obtain ⟨identity, hidentity, hprincipal⟩ := request_principal hrequest
    simp only [Cedarpy.isAuthorizedJson, Option.bind_eq_bind, Option.bind_eq_some_iff,
      isAuthorized_eq_true_iff, policySet, Option.some.injEq]
    constructor
    · rintro ⟨es, hes, req, hreads, hallowed⟩
      obtain ⟨identity', email, st, hidentity', -, hst, rfl⟩ := readEntities_eq_some.mp hes
      obtain rfl := Option.some.inj (hidentity.symm.trans hidentity')
      have hread := hreads.principal
      rw [hprincipal] at hread
      have hty := readUid_user hread
      by_cases hid : req.principal.id = identity
      · have huid : req.principal = ⟨user, identity⟩ := by rw [← hty, ← hid]
        obtain ⟨hpermits, hsuspended, hdeactivated⟩ :=
          (isAuthorized_user_iff huid hst).mp hallowed
        rw [huid] at hread
        exact ⟨r, _, req, rfl, hes, hreads,
          ⟨identity, hidentity, (readUid_eq_iff (by decide) (by decide)).mp hread⟩, hpermits,
          hsuspended, hdeactivated⟩
      · exact absurd hallowed (not_isAuthorized_other hty hid)
    · rintro ⟨r', es, req, rfl, hes, hreads, hallowed⟩
      obtain ⟨identity', email, st, hidentity', -, hst, rfl⟩ := readEntities_eq_some.mp hes
      obtain rfl := Option.some.inj (hidentity.symm.trans hidentity')
      obtain ⟨identity', hidentity', hplain⟩ := hallowed.identity
      obtain rfl := Option.some.inj (hidentity.symm.trans hidentity')
      have hread := hreads.principal
      rw [hprincipal, (readUid_eq_iff (by decide) (by decide)).mpr hplain] at hread
      exact ⟨_, hes, req, hreads, (isAuthorized_user_iff (Option.some.inj hread).symm hst).mpr
        ⟨hallowed.permitted, hallowed.notSuspended, hallowed.notDeactivated⟩⟩

end Marty.Cedar.BackendPolicies
