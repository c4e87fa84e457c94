import Marty.Gateway.Middleware

/-! The organization checks that the services share: `require_org_membership` and the
dependency that `require_permission` makes.  A check raises an `HTTPException` or returns, and
the calls it makes on the organization client are kept in a log. -/

namespace Marty.Organization.Authorization

open Lib.Text Gateway.Middleware

/-- The headers of a request with their names in lower case, as the server hands them over. -/
abbrev Headers := List (String × String)

def Headers.get (headers : Headers) (name : String) : Option String := headers.lookup (lower name)

inductive Source
  | session | apiKey
  deriving DecidableEq

structure OrganizationContext where
  userId : String
  organizationId : String
  membership : Option OrganizationMembership := none
  source : Source := .session
  permissions : Option (List String) := none

inductive ClientCall
  | getMembership (userId organizationId : String)
  | readPermissions (cacheKey : String)
  | writePermissions (cacheKey : String) (permissions : List String)
  deriving DecidableEq

/-- `org_client`: what its calls answer.  `readPermissions` is `none` on a miss, on an error and
without Redis. -/
structure OrganizationClient where
  getMembership : String → String → Except HTTPException (Option OrganizationMembership)
  readPermissions : String → Option (List String) := fun _ => none
  hasRedis : Bool := false

abbrev Check := ExceptT HTTPException (StateM (List ClientCall))

def Check.call (c : ClientCall) : Check Unit := modify fun log => log ++ [c]

def Check.outcome {α : Type} (check : Check α) : Except HTTPException α × List ClientCall :=
  StateT.run (ExceptT.run check) []

/-- The request as the checks see it; there is no client when `app.state` has none. -/
structure Request where
  headers : Headers
  orgClient : Option OrganizationClient := none

def getOrganizationClient (request : Request) : Check OrganizationClient :=
  match request.orgClient with
  | none => throw ⟨500, "Organization client not configured"⟩
  | some client => pure client

def getMembership (client : OrganizationClient) (userId organizationId : String) :
    Check (Option OrganizationMembership) := do
  Check.call (.getMembership userId organizationId)
  liftExcept (client.getMembership userId organizationId)
where
  liftExcept {α : Type} : Except HTTPException α → Check α
    | .ok a => pure a
    | .error exc => throw exc

/-- `a or b` on optional strings, as a value. -/
def orElse (a b : Option String) : Option String := (truthy a).or b

/-- The arguments that FastAPI takes from the headers. -/
structure Arguments where
  xUserId : Option String
  xOrganizationId : Option String := none
  xApiKeyId : Option String := none
  xRequiredPermission : Option String := none

/-- The branch of a machine principal. -/
def requireApiKeyBinding (organizationId xUserId apiKeyId : String)
    (xOrganizationId xRequiredPermission : Option String) : Check OrganizationContext :=
  if xUserId ≠ "api_key:" ++ apiKeyId then
    throw ⟨403, "API key identity context is inconsistent"⟩
  else if truthy xOrganizationId ≠ some organizationId then
    throw ⟨403, "API key does not have access to this organization"⟩
  else
    let requiredPermission := strip (xRequiredPermission.getD "")
    if requiredPermission = "" then
      throw ⟨403, "API key request is missing an authorized permission"⟩
    else
      pure
        { userId := xUserId
          organizationId := organizationId
          source := .apiKey
          permissions := some [requiredPermission] }

def requireMembership (request : Request) (organizationId xUserId : String) :
    Check OrganizationContext := do
  let orgClient ← getOrganizationClient request
  match ← getMembership orgClient xUserId organizationId with
  | none => throw ⟨403, "Not a member of this organization"⟩
  | some membership =>
    if !membership.isActive then
      throw ⟨403, "Organization membership is " ++ membership.status⟩
    else
      pure
        { userId := xUserId
          organizationId := organizationId
          membership := some membership
          permissions := some membership.permissions.elems }

def requireOrgMembership (organizationId : String) (request : Request) (args : Arguments) :
    Check OrganizationContext :=
  match truthy args.xUserId with
  | none => throw ⟨401, "Authentication required - missing user context"⟩
  | some xUserId =>
    let xOrganizationId := orElse args.xOrganizationId (request.headers.get "X-Organization-ID")
    let xApiKeyId := orElse args.xApiKeyId (request.headers.get "X-Api-Key-Id")
    let xRequiredPermission :=
      orElse args.xRequiredPermission (request.headers.get "X-Required-Permission")
    match truthy xApiKeyId with
    | some apiKeyId =>
      requireApiKeyBinding organizationId xUserId apiKeyId xOrganizationId xRequiredPermission
    | none => requireMembership request organizationId xUserId

def loadMemberPermissions (request : Request) (userId organizationId : String) :
    Check (List String) := do
  let orgClient ← getOrganizationClient request
  let cacheKey := "member_permissions:" ++ userId ++ ":" ++ organizationId
  if orgClient.hasRedis then Check.call (.readPermissions cacheKey)
  match if orgClient.hasRedis then orgClient.readPermissions cacheKey else none with
  | some cached => pure cached
  | none =>
    match ← getMembership orgClient userId organizationId with
    | none => pure []
    | some membership =>
      let perms := membership.permissions.elems
      if orgClient.hasRedis ∧ perms ≠ [] then
        Check.call (.writePermissions cacheKey (sorted perms))
      pure perms

/-- The dependency that `require_permission(resource, action)` makes. -/
def requirePermission (resource action : String) (request : Request) (ctx : OrganizationContext) :
    Check OrganizationContext := do
  let permissions ← match ctx.permissions with
    | some permissions => pure permissions
    | none => loadMemberPermissions request ctx.userId ctx.organizationId
  let requiredKey := resource ++ ":" ++ action
  if requiredKey ∉ permissions then
    throw ⟨403, "Missing required permission: " ++ requiredKey⟩
  else pure { ctx with permissions := some permissions }

/-- Both checks in a row. -/
def authorize (organizationId resource action : String) (request : Request) (args : Arguments) :
    Check OrganizationContext := do
  let ctx ← requireOrgMembership organizationId request args
  requirePermission resource action request ctx

/-- The arguments of a dependency that FastAPI has injected. -/
def Request.injected (request : Request) : Arguments where
  xUserId := request.headers.get "X-User-Id"
  xOrganizationId := request.headers.get "X-Organization-ID"
  xApiKeyId := request.headers.get "X-Api-Key-Id"
  xRequiredPermission := request.headers.get "X-Required-Permission"

/-- The arguments of a call from a route body, which passes on the user only. -/
def Request.direct (request : Request) : Arguments where
  xUserId := request.headers.get "X-User-Id"

end Marty.Organization.Authorization
