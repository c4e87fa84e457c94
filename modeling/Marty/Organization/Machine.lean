import Marty.Organization.Authorization

/-! The boundary of machine principals: a request with an API key passes the organization and
permission checks on the gateway's own headers, and on nothing else. -/

namespace Marty.Organization.Machine

open Lib.Text Authorization

variable {request : Request} {apiKeyId organizationId resource action : String}

theorem orElse_none (b : Option String) : orElse none b = b := by simp [orElse]

theorem orElse_self (b : Option String) : orElse b b = b := by
  cases h : truthy b with
  | none => simp [orElse, h]
  | some s =>
    obtain ⟨rfl, -⟩ := truthy_eq_some.mp h
    rw [orElse, h, Option.some_or]

/-- An argument from the headers and one recovered from the headers are the same. -/
theorem requireOrgMembership_injected :
    requireOrgMembership organizationId request request.injected =
      requireOrgMembership organizationId request request.direct := by
  simp only [requireOrgMembership, Request.injected, Request.direct, orElse_none, orElse_self]

/-- What the gateway has to have bound for a request of this API key. -/
structure Bound (headers : Headers) (apiKeyId organizationId resource action : String) : Prop where
  user : headers.get "X-User-Id" = some ("api_key:" ++ apiKeyId)
  organization : headers.get "X-Organization-ID" = some organizationId
  permission : (headers.get "X-Required-Permission").map strip = some (resource ++ ":" ++ action)

theorem key_ne_empty (a b : String) : a ++ ":" ++ b ≠ "" := by
  intro h
  have := congrArg String.length h
  simp at this

/-- The two checks of a machine principal, with the client left alone. -/
theorem requireApiKeyBinding_outcome (request : Request)
    (apiKeyId organizationId resource action xUserId : String)
    (xOrganizationId xRequiredPermission : Option String) :
    ∃ result, Check.outcome (requireApiKeyBinding organizationId xUserId apiKeyId xOrganizationId
        xRequiredPermission >>= requirePermission resource action request) = (result, []) ∧
      ((∃ ctx, result = .ok ctx) ↔
        xUserId = "api_key:" ++ apiKeyId ∧ truthy xOrganizationId = some organizationId ∧
          strip (xRequiredPermission.getD "") = resource ++ ":" ++ action) := by
  unfold requireApiKeyBinding
  split
  case isTrue huser => exact ⟨.error _, rfl, by simp [huser]⟩
  case isFalse huser =>
    rw [not_not] at huser
    split
    case isTrue horg => exact ⟨.error _, rfl, by simp [horg]⟩
    case isFalse horg =>
      rw [not_not] at horg
      dsimp only
      split
      case isTrue hempty =>
        refine ⟨.error _, rfl, ?_⟩
        simp [hempty, (key_ne_empty resource action).symm]
      case isFalse hperm =>
        by_cases hkey : strip (xRequiredPermission.getD "") = resource ++ ":" ++ action
        · refine ⟨.ok ⟨xUserId, organizationId, none, .apiKey,
            some [resource ++ ":" ++ action]⟩, ?_, by simp [huser, horg, hkey]⟩
          simp only [pure_bind, requirePermission, hkey, List.mem_singleton, not_true, if_false]
          rfl
        · refine ⟨.error ⟨403, "Missing required permission: " ++ (resource ++ ":" ++ action)⟩, ?_,
            by simp [hkey]⟩
          have hkey : resource ++ ":" ++ action ∉ [strip (xRequiredPermission.getD "")] := by
            simpa [eq_comm] using hkey
          simp only [pure_bind, requirePermission, hkey, not_false_eq_true, if_true]
          rfl

theorem strip_getD {header : Option String} {key : String} (hkey : key ≠ "") :
    strip (header.getD "") = key ↔ header.map strip = some key := by
  cases header with
  | none =>
    have hempty : strip "" = "" := by decide
    simp [hempty, hkey.symm]
  | some value => simp

theorem authorize_machine (organizationId resource action : String)
    (hkey : request.headers.get "X-Api-Key-Id" = some apiKeyId)
    (hne : apiKeyId ≠ "") :
    ∃ result, (authorize organizationId resource action request request.direct).outcome =
        (result, []) ∧
      ((∃ ctx, result = .ok ctx) ↔ organizationId ≠ "" ∧
        Bound request.headers apiKeyId organizationId resource action) := by
  have htruthy : truthy (some apiKeyId) = some apiKeyId := truthy_eq_some.mpr ⟨rfl, hne⟩
  simp only [authorize, requireOrgMembership, Request.direct, orElse_none, hkey, htruthy]
  cases huser : truthy (request.headers.get "X-User-Id") with
  | none =>
    refine ⟨.error _, rfl, ?_⟩
    constructor
    · rintro ⟨ctx, ⟨⟩⟩
    · rintro ⟨-, hbound⟩
      have hx : ("api_key:" ++ apiKeyId : String) ≠ "" := by
        intro h
        have := congrArg String.length h
        simp at this
      rw [hbound.user, truthy_eq_some.mpr ⟨rfl, hx⟩] at huser
      cases huser
  | some xUserId =>
    obtain ⟨hheader, -⟩ := truthy_eq_some.mp huser
    obtain ⟨result, houtcome, hiff⟩ := requireApiKeyBinding_outcome request apiKeyId organizationId
      resource action xUserId (request.headers.get "X-Organization-ID")
      (request.headers.get "X-Required-Permission")
    refine ⟨result, houtcome, hiff.trans ?_⟩
    rw [truthy_eq_some, strip_getD (key_ne_empty resource action)]
    constructor
    · rintro ⟨rfl, ⟨horg, hempty⟩, hperm⟩
      exact ⟨hempty, hheader, horg, hperm⟩
    · rintro ⟨hempty, hbound⟩
      have hsame := hheader.symm.trans hbound.user
      exact ⟨Option.some.inj hsame, ⟨hbound.organization, hempty⟩, hbound.permission⟩

/-- A request with an API key passes exactly when the gateway has bound the key, a non-empty
organization and the permission; the organization client is never called; and it makes no
difference whether the arguments were injected. -/
theorem machine_principal_bound (hkey : request.headers.get "X-Api-Key-Id" = some apiKeyId)
    (hne : apiKeyId ≠ "") :
    (∀ args ∈ [request.injected, request.direct],
      ((∃ ctx, (authorize organizationId resource action request args).outcome.1 = .ok ctx) ↔
        organizationId ≠ "" ∧ Bound request.headers apiKeyId organizationId resource action) ∧
      (authorize organizationId resource action request args).outcome.2 = []) ∧
    (authorize organizationId resource action request request.injected).outcome =
      (authorize organizationId resource action request request.direct).outcome := by
  have hsame : authorize organizationId resource action request request.injected =
      authorize organizationId resource action request request.direct := by
    simp only [authorize, requireOrgMembership_injected]
  obtain ⟨result, houtcome, hiff⟩ := authorize_machine organizationId resource action
    hkey hne
  refine ⟨?_, by rw [hsame]⟩
  intro args hargs
  have hargs : authorize organizationId resource action request args =
      authorize organizationId resource action request request.direct := by
    rcases List.mem_pair.mp hargs with rfl | rfl
    · exact hsame
    · rfl
  rw [hargs, houtcome]
  exact ⟨hiff, rfl⟩

/-- The headers of a request with the key `key-b`, as the gateway binds them. -/
def keyRequest (organizationId permission : String) : Request where
  headers := [("x-api-key-id", "key-b"), ("x-user-id", "api_key:key-b"),
    ("x-organization-id", organizationId), ("x-required-permission", permission)]

theorem machine_principal_bound_view :
    ∃ ctx, (authorize "org-b" "credential-template" "view"
      (keyRequest "org-b" " credential-template:view ")
      (keyRequest "org-b" " credential-template:view ").direct).outcome.1 = .ok ctx := by
  have hkey : (keyRequest "org-b" " credential-template:view ").headers.get "X-Api-Key-Id" =
      some "key-b" := by decide
  refine ((machine_principal_bound hkey (by decide)).1 _ (by simp)).1.mpr ⟨by decide, ?_⟩
  exact ⟨by decide, by decide, by decide⟩

/-- An empty organization is refused although all three headers agree with the request. -/
theorem empty_organization_refused :
    Bound (keyRequest "" "credential-template:view").headers "key-b" "" "credential-template"
      "view" ∧
    ∃ exc, (authorize "" "credential-template" "view" (keyRequest "" "credential-template:view")
      (keyRequest "" "credential-template:view").direct).outcome.1 = .error exc :=
  ⟨⟨by decide, by decide, by decide⟩, _, rfl⟩

end Marty.Organization.Machine
