import Marty.Cedar.Engine

/-! `cedar_entities.py`: the entities for a session user and for an API key fit the schema, and what
`CedarEngine.with_defaults` allows the two. -/

namespace Marty.Cedar.CallerEntities

open Lib Lib.Cedar Lib.CedarText Policies Engine
open CedarStore (Attr EntityType Parent WellFormed parentsOf store)

def organization (id : String) : EntityUID := ⟨"MIP::Organization", id⟩

def deploymentProfile (id : String) : EntityUID := ⟨"MIP::DeploymentProfile", id⟩

/-- The entity types of `mip.cedarschema` that stand for callers and groups. -/
def mipSchema : List EntityType :=
  [{ name := "MIP::User"
     memberOf := ["MIP::Organization", "MIP::Role"]
     attrs := [{ name := "email", type := .string }, { name := "status", type := .string },
       { name := "user_id", type := .string, required := false }] },
   { name := "MIP::ApiKey"
     memberOf := ["MIP::Organization", "MIP::DeploymentProfile"]
     attrs := [{ name := "scope_type", type := .string }, { name := "enabled", type := .bool }] },
   { name := "MIP::ServiceAccount"
     memberOf := ["MIP::Organization"]
     attrs := [{ name := "service_name", type := .string }] },
   { name := "MIP::Organization" },
   { name := "MIP::Role"
     memberOf := ["MIP::Organization"]
     attrs := [{ name := "is_system_role", type := .bool }] },
   { name := "MIP::DeploymentProfile", memberOf := ["MIP::Organization"] }]

structure SessionUser where
  userId : String
  email : Option String
  status : String
  orgId : String
  role : String

structure ApiKey where
  apiKeyId : String
  orgId : String
  scopeType : String
  enabled : Bool
  deploymentProfileId : Option String := none

/-- `lower` and `upper` are `str.lower` and `str.upper`. -/
def buildUserEntities (lower upper : String → String) (u : SessionUser) :
    List CedarStore.Entity :=
  [{ uid := ⟨user, u.userId⟩
     attrs := [("email", .string ((Text.truthy u.email).getD "")),
       ("status", .string (upper u.status)), ("user_id", .string u.userId)]
     parents := [organization u.orgId, role (lower u.role)] },
   { uid := organization u.orgId },
   { uid := role (lower u.role)
     attrs := [("is_system_role", .bool true)]
     parents := [organization u.orgId] }]

def buildApikeyEntities (upper : String → String) (k : ApiKey) : List CedarStore.Entity :=
  [{ uid := ⟨apiKey, k.apiKeyId⟩
     attrs := [("scope_type", .string (upper k.scopeType)), ("enabled", .bool k.enabled)]
     parents := organization k.orgId ::
       ((Text.truthy k.deploymentProfileId).map deploymentProfile).toList },
   { uid := organization k.orgId }] ++
    ((Text.truthy k.deploymentProfileId).map fun profile =>
      { uid := deploymentProfile profile, parents := [organization k.orgId] }).toList

/-- Whoever a request is made for. -/
inductive Caller
  | session (u : SessionUser)
  | apikey (k : ApiKey)

namespace Caller

def uid : Caller → EntityUID
  | .session u => ⟨user, u.userId⟩
  | .apikey k => ⟨apiKey, k.apiKeyId⟩

def entities (lower upper : String → String) : Caller → List CedarStore.Entity
  | .session u => buildUserEntities lower upper u
  | .apikey k => buildApikeyEntities upper k

/-- What the policies ask of the caller for an action. -/
def Allowed (lower upper : String → String) (a : EntityUID) : Caller → Prop
  | .session u =>
    (lower u.role ∈ ["owner", "admin"] ∨
      (lower u.role = "member" ∧ ∃ id ∈ memberActions, a = action id) ∨
      (lower u.role = "viewer" ∧ ∃ id ∈ viewerActions, a = action id)) ∧
      upper u.status ∉ ["SUSPENDED", "DEACTIVATED"]
  | .apikey k => upper k.scopeType = "ORGANIZATION" ∧ k.enabled = true

variable {lower upper : String → String} {a : EntityUID}

theorem user_wellFormed (u : SessionUser) :
    WellFormed mipSchema (buildUserEntities lower upper u) where
  distinct := by simp [buildUserEntities, organization, role, user]
  typed := by
    intro e he
    simp only [buildUserEntities, List.mem_cons, List.not_mem_nil, or_false] at he
    rcases he with rfl | rfl | rfl
    · exact ⟨_, List.mem_cons_self, rfl, rfl⟩
    · exact ⟨{ name := "MIP::Organization" }, by simp [mipSchema], rfl, rfl⟩
    · refine ⟨mipSchema[4], List.getElem_mem _, rfl, rfl⟩

theorem apikey_wellFormed (k : ApiKey) : WellFormed mipSchema (buildApikeyEntities upper k) where
  distinct := by
    cases h : Text.truthy k.deploymentProfileId <;>
      simp [buildApikeyEntities, h, organization, deploymentProfile, apiKey]
  typed := by
    intro e he
    unfold buildApikeyEntities at he
    cases h : Text.truthy k.deploymentProfileId with
    | none =>
      simp only [h, Option.map_none, Option.toList_none, List.append_nil, List.mem_cons,
        List.not_mem_nil, or_false] at he
      rcases he with rfl | rfl
      · exact ⟨mipSchema[1], List.getElem_mem _, rfl, rfl⟩
      · exact ⟨mipSchema[3], List.getElem_mem _, rfl, rfl⟩
    | some profile =>
      simp only [h, Option.map_some, Option.toList_some, List.mem_append, List.mem_cons,
        List.not_mem_nil, or_false] at he
      rcases he with (rfl | rfl) | rfl
      · exact ⟨mipSchema[1], List.getElem_mem _, rfl, rfl⟩
      · exact ⟨mipSchema[3], List.getElem_mem _, rfl, rfl⟩
      · exact ⟨mipSchema[5], List.getElem_mem _, rfl, rfl⟩

end Caller

section decision

variable {lower upper : String → String} {u : SessionUser} {k : ApiKey} {req : Lib.Cedar.Request}

theorem mem_role_iff {r : String} :
    (store (buildUserEntities lower upper u)).mem ⟨user, u.userId⟩ (role r) = true ↔
      lower u.role = r := by
  constructor
  · intro h
    rcases CedarStore.mem_cases h with heq | ⟨e, he, hparent⟩
    · simp [role, user] at heq
    · simp only [buildUserEntities, List.mem_cons, List.not_mem_nil, or_false] at he
      rcases he with rfl | rfl | rfl
      · simpa [role, organization, eq_comm] using hparent
      · cases hparent
      · simp [role, organization] at hparent
  · rintro rfl
    rw [buildUserEntities, CedarStore.mem_store (List.find?_cons_of_pos (by simp))]
    exact .inr (.single (by simp [Parent, parentsOf]))

theorem attr_status {v : Value} :
    (store (buildUserEntities lower upper u)).attr ⟨user, u.userId⟩ "status" = .ok v ↔
      .string (upper u.status) = v := by
  rw [buildUserEntities, CedarStore.attr_store (List.find?_cons_of_pos (by simp))]
  simp [List.lookup_cons]

theorem attr_apikey {name : String} {v : Value} :
    (store (buildApikeyEntities upper k)).attr ⟨apiKey, k.apiKeyId⟩ name = .ok v ↔
      [("scope_type", .string (upper k.scopeType)), ("enabled", .bool k.enabled)].lookup name =
        some v := by
  rw [buildApikeyEntities, List.cons_append,
    CedarStore.attr_store (List.find?_cons_of_pos (by simp))]

/-- Of the types of the callers the lists have one entity. -/
theorem eq_uid_of_mem {c : Caller} {e : CedarStore.Entity} (he : e ∈ c.entities lower upper)
    (hty : e.uid.ty = user ∨ e.uid.ty = apiKey) : e.uid = c.uid := by
  cases c with
  | session u =>
    simp only [Caller.entities, buildUserEntities, List.mem_cons, List.not_mem_nil, or_false] at he
    rcases he with rfl | rfl | rfl
    · rfl
    · exact absurd hty (by simp [organization, user, apiKey])
    · exact absurd hty (by simp [role, user, apiKey])
  | apikey k =>
    simp only [Caller.entities, buildApikeyEntities, List.mem_append, List.mem_cons,
      List.not_mem_nil, or_false, Option.mem_toList, Option.map_eq_some_iff] at he
    rcases he with (rfl | rfl) | ⟨profile, -, rfl⟩
    · rfl
    · exact absurd hty (by simp [organization, user, apiKey])
    · exact absurd hty (by simp [deploymentProfile, user, apiKey])

theorem parent_notAction {c : Caller} : ∀ e ∈ c.entities lower upper, ∀ parent ∈ e.parents,
    parent.ty ≠ "MIP::Action" := by
  cases c with
  | session u =>
    simp [Caller.entities, buildUserEntities, organization, role]
  | apikey k =>
    cases h : Text.truthy k.deploymentProfileId <;>
      simp [Caller.entities, buildApikeyEntities, h, organization, deploymentProfile]

/-- A permit is for a user or for an API key. -/
theorem permits_iff {entities : Entities} :
    (∃ p ∈ gatewayPolicies.filter (·.effect = .permit), p.satisfied req entities = true) ↔
      req.principal.ty = user ∧ (entities.mem req.principal (role "owner") ∨
        entities.mem req.principal (role "admin") ∨
        ((Scope.mem (memberActions.map action)).holds entities req.action = true ∧
          entities.mem req.principal (role "member")) ∨
        ((Scope.mem (viewerActions.map action)).holds entities req.action = true ∧
          entities.mem req.principal (role "viewer"))) ∨
      req.principal.ty = apiKey ∧
        entities.attr req.principal "scope_type" = .ok (.string "ORGANIZATION") ∧
        entities.attr req.principal "enabled" = .ok (.bool true) := by
  have hfilter : gatewayPolicies.filter (·.effect = .permit) =
      [ownerFullAccess, adminFullAccess, memberStandardAccess, viewerReadOnly,
        orgApikeyFullAccess] := rfl
  rw [hfilter]
  simp only [List.mem_cons, List.not_mem_nil, or_false, exists_eq_or_imp, exists_eq_left,
    ownerFullAccess, adminFullAccess, memberStandardAccess, viewerReadOnly, rolePolicy_satisfied,
    orgApikeyFullAccess_satisfied, Scope.holds_any, true_and, and_or_left, or_assoc]

theorem forbids_iff {entities : Entities} :
    (∃ p ∈ gatewayPolicies.filter (·.effect = .forbid), p.satisfied req entities = true) ↔
      req.principal.ty = apiKey ∧ entities.attr req.principal "enabled" = .ok (.bool false) ∨
      req.principal.ty = user ∧
        (entities.attr req.principal "status" = .ok (.string "SUSPENDED") ∨
          entities.attr req.principal "status" = .ok (.string "DEACTIVATED")) := by
  have hfilter : gatewayPolicies.filter (·.effect = .forbid) =
      [denyDisabledApikeys, denySuspendedUsers] := rfl
  rw [hfilter]
  simp only [List.mem_cons, List.not_mem_nil, or_false, exists_eq_or_imp, exists_eq_left,
    denyDisabledApikeys_satisfied, denySuspendedUsers_satisfied]

/-- The decision about the caller itself. -/
theorem isAuthorized_uid_iff {c : Caller} (h : req.principal = c.uid) :
    isAuthorized req (store (c.entities lower upper)) gatewayPolicies = true ↔
      c.Allowed lower upper req.action := by
  have hactions : ∀ ids : List String, (Scope.mem (ids.map action)).holds
      (store (c.entities lower upper)) req.action = true ↔ ∃ id ∈ ids, req.action = action id :=
    fun ids => holds_actions parent_notAction
  rw [isAuthorized_iff, permits_iff, forbids_iff, hactions, hactions]
  cases c with
  | session u =>
    have htypes : user ≠ apiKey := by decide
    simp only [h, Caller.uid, Caller.entities, Caller.Allowed, mem_role_iff, attr_status, htypes,
      true_and, false_and, or_false, false_or, Value.string.injEq, List.mem_cons, List.not_mem_nil,
      or_assoc]
    simp only [and_comm]
  | apikey k =>
    have htypes : apiKey ≠ user := by decide
    have hscope : [("scope_type", Value.string (upper k.scopeType)),
        ("enabled", .bool k.enabled)].lookup "scope_type" =
        some (.string (upper k.scopeType)) := rfl
    have henabled : [("scope_type", Value.string (upper k.scopeType)),
        ("enabled", .bool k.enabled)].lookup "enabled" = some (.bool k.enabled) := rfl
    simp only [h, Caller.uid, Caller.entities, Caller.Allowed, attr_apikey, hscope, henabled,
      htypes, true_and, false_and, or_false, false_or, Option.some.injEq, Value.string.injEq,
      Value.bool.injEq]
    cases k.enabled <;> simp

/-- Nothing is allowed to anyone else. -/
theorem not_isAuthorized_other {c : Caller} (h : req.principal ≠ c.uid) :
    ¬ isAuthorized req (store (c.entities lower upper)) gatewayPolicies = true := by
  rw [isAuthorized_iff, permits_iff]
  have hnotMem : req.principal.ty = user ∨ req.principal.ty = apiKey →
      ∀ e ∈ c.entities lower upper, e.uid ≠ req.principal := by
    intro hty e he heq
    exact h (heq ▸ eq_uid_of_mem he (heq ▸ hty))
  rintro ⟨⟨hty, hroles⟩ | ⟨hty, hscope, -⟩, -⟩
  · have hrole : ∀ r, ¬ (store (c.entities lower upper)).mem req.principal (role r) = true := by
      intro r hmem
      rw [CedarStore.mem_of_notMem (hnotMem (.inl hty))] at hmem
      rw [hmem] at hty
      exact absurd hty (by simp [role, user])
    rcases hroles with hmem | hmem | ⟨-, hmem⟩ | ⟨-, hmem⟩ <;> exact hrole _ hmem
  · rw [CedarStore.attr_of_notMem (hnotMem (.inr hty))] at hscope
    cases hscope

end decision

theorem Caller.wellFormed (lower upper : String → String) (caller : Caller) :
    WellFormed mipSchema (caller.entities lower upper) := by
  cases caller with
  | session u => exact user_wellFormed u
  | apikey k => exact apikey_wellFormed k

/-- The entities of a caller fit the schema, and the default policies allow it what its role or its
scope does: neither the resource nor the organization of either plays a part, and a principal other
than the caller is allowed nothing. -/
theorem caller_allowed_iff (cedarpy : Cedarpy) (lower upper : String → String) (caller : Caller)
    (r : PolicyEngine.Request) :
    WellFormed mipSchema (caller.entities lower upper) ∧
      ((CedarEngine.withDefaults cedarpy).allowed r (caller.entities lower upper) = true ↔
        ∃ req, Reads cedarpy r (caller.entities lower upper) req ∧ req.principal = caller.uid ∧
          caller.Allowed lower upper req.action) := by
  refine ⟨caller.wellFormed lower upper, ?_⟩
  rw [CedarEngine.allowed_iff]
  refine exists_congr fun req => and_congr_right fun _ => ?_
  rw [CedarEngine.withDefaults, CedarHas.isAuthorized_ofPolicy]
  by_cases h : req.principal = caller.uid
  · rw [isAuthorized_uid_iff h, and_iff_right h]
  · simp only [not_isAuthorized_other h, h, false_and, Bool.false_eq_true]

end Marty.Cedar.CallerEntities
