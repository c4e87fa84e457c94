import Mathlib.Data.List.Dedup
import Mathlib.Data.List.Sort
import Marty.Gateway.Actions
import Marty.Lib.Json

/-! `CedarAuthMiddleware`: which organization a request is checked against, and whether it
is forwarded.  The services the middleware calls are functions of the application state;
what they answer is left open. -/

namespace Marty.Gateway.Middleware

open Lib Lib.Regex Lib.Text Actions

/-- A `set[str]`: its elements in some order, without repetition. -/
structure StrSet where
  elems : List String
  nodup : elems.Nodup

def StrSet.ofList (l : List String) : StrSet := ⟨l.dedup, l.nodup_dedup⟩

def sorted (l : List String) : List String := l.insertionSort (· ≤ ·)

structure OrganizationRoleSummary where
  id : String
  name : String
  displayName : Option String := none

structure OrganizationMembership where
  userId : String
  organizationId : String
  status : String
  roles : List OrganizationRoleSummary := []
  permissions : StrSet := StrSet.ofList []
  hasOrgConsoleAccess : Bool := false
  isOwner : Bool := false

def OrganizationMembership.isActive (m : OrganizationMembership) : Bool := m.status == "active"

def OrganizationMembership.roleNames (m : OrganizationMembership) : StrSet :=
  StrSet.ofList (m.roles.map (·.name))

def OrganizationMembership.hasPermission (m : OrganizationMembership) (permissionKey : String) :
    Bool := decide (permissionKey ∈ m.permissions.elems)

structure HTTPException where
  statusCode : Int
  detail : String
  deriving DecidableEq

/-- How a call to `org_client.get_membership` can fail. -/
inductive MembershipError
  | http (exc : HTTPException)
  | other

/-- The answer of the owner service; `json` is `none` when decoding the body raises. -/
structure HttpResponse where
  statusCode : Int
  json : Option Json

/-- The attributes of `request.state` that the middleware reads or writes. -/
structure RequestState where
  authSource : Option String := none
  userId : Option String := none
  userEmail : Option String := none
  userDomain : Option String := none
  organizationId : Option String := none
  sessionOrganizationId : Option String := none
  apiKeyId : Option String := none
  apiKeyOrganizationId : Option String := none
  apiKeyScopes : Option (List String) := none
  requiredPermission : Option String := none
  orgRoles : Option (List String) := none
  orgPermissions : Option (List String) := none
  orgResource : Option String := none
  deriving DecidableEq

/-- A request; `json` is `none` when reading or decoding the body raises. -/
structure Request where
  method : String
  path : String
  queryParams : List (String × String) := []
  headers : List (String × String) := []
  json : Option Json := none
  state : RequestState := {}

/-- The last value of a repeated query parameter wins. -/
def Request.queryParam (r : Request) (name : String) : Option String :=
  r.queryParams.reverse.lookup name

/-- `app.state` and the process environment.  A service is `none` when it is not configured;
`getServiceUrl` and `httpGet` answer `none` when they raise. -/
structure App where
  getServiceUrl : Option (String → Option (Option String)) := none
  httpGet : Option (String → List (String × String) → Option HttpResponse) := none
  getMembership :
    Option (String → String → Except MembershipError (Option OrganizationMembership)) := none
  environ : String → Option String := fun _ => none
  readFile : String → Option String := fun _ => none

/-- What `dispatch` does: it forwards the request with the state it leaves, or answers.
`checked` is the organization that was compared with that of the API key or passed to
`get_membership`; there is none when the request is forwarded or answered before the check. -/
inductive Outcome
  | callNext (checked : Option String) (state : RequestState)
  | respond (checked : Option String) (statusCode : Int) (detail : String) (state : RequestState)
  deriving DecidableEq

def Outcome.checked : Outcome → Option String
  | .callNext checked _ => checked
  | .respond checked _ _ _ => checked

def Outcome.forwarded : Outcome → Bool
  | .callNext _ _ => true
  | .respond _ _ _ _ => false

def skipPatterns : List Re := [
  .cat [.lit "/v1/flows/capabilities", .eos],
  .cat [.lit "/v1/issued-credentials/mine", .eos],
  .cat [.lit "/v1/organizations", .eos],
  .cat [.lit "/v1/organizations/mine", .eos],
  .lit "/v1/organizations/discover",
  .lit "/v1/organizations/join/",
  .cat [.lit "/v1/organizations/", seg, .lit "/join", .eos],
  .lit "/v1/organizations/invitations/",
  .cat [.lit "/v1/organizations/", seg, .lit "/revocation-profiles/", seg, .lit "/status-lists/",
    seg, .lit "/", seg, .eos],
  .cat [.lit "/v1/integrations/canvas/lti/jwks", .opt (.lit "/"), .eos],
  .cat [.lit "/v1/integrations/canvas/lti/config/", seg, .opt (.lit "/"), .eos],
  .cat [.lit "/v1/integrations/canvas/lti/platforms/", seg, .lit "/",
    .oneOf (.lit "login") [.lit "experience-login", .lit "launch", .lit "experience"],
    .opt (.lit "/"), .eos],
  .cat [.lit "/v1/integrations/canvas/oauth/callback", .opt (.lit "/"), .eos],
  .cat [.lit "/v1/integrations/canvas/lti/experience-sessions/",
    .oneOf (.lit "exchange") [.cat [.lit "current", .opt (.cat [.lit "/",
      .oneOf (.lit "bootstrap") [.lit "evidence-sync", .lit "deep-linking-response"]])]],
    .opt (.lit "/"), .eos],
  .lit "/health",
  .cat [.lit "/", .cls notNewline, .lit "well-known/"]]

def skipped (path : String) : Bool := skipPatterns.any (·.test path)

def resourceScopes : List (String × String × String) := [
  ("credential-template", "templates:read", "templates:write"),
  ("application-template", "applications:read", "applications:write"),
  ("application", "applications:read", "applications:write"),
  ("trust-profile", "trust:read", "trust:write"),
  ("trusted-issuer", "trust:read", "trust:write"),
  ("presentation-policy", "trust:read", "trust:write"),
  ("compliance-profile", "compliance:read", "compliance:write"),
  ("deployment-profile", "deployment:read", "deployment:write"),
  ("webhook", "webhooks:read", "webhooks:write"),
  ("notification", "notifications:read", "notifications:send"),
  ("team", "users:read", "users:invite"),
  ("role", "roles:read", "roles:write"),
  ("policy-set", "trust:read", "trust:admin"),
  ("organization", "users:read", "users:invite"),
  ("integration-connector", "integrations:read", "integrations:write")]

def apiKeyAllowed (requiredPermission : String) (scopes : List String) : Bool :=
  let has (scope : String) : Bool := decide (scope ∈ scopes)
  if has "admin:full" then true
  else
    let (resource, action) := partition ':' requiredPermission
    let readAction : Bool := decide (action ∈ ["view", "read", "list"])
    let writeAction : Bool :=
      decide (action ∈ ["create", "edit", "delete", "write", "activate", "archive", "validate"])
    if resource = "flow-instance" then has "flows:execute" || has "flows:write"
    else if resource = "flow-definition" then
      if readAction then has "flows:read" || has "flows:write" || has "flows:execute"
      else has "flows:write"
    else if resource = "api-key" then false
    else if resource = "verification" then has "flows:execute" || has "credentials:read"
    else if resource = "issued-credential" then
      if action ∈ ["issue", "create"] then has "credentials:issue"
      else if action ∈ ["revoke", "delete"] then has "credentials:revoke"
      else has "credentials:read" || has "credentials:issue"
    else if resource = "issuance" then
      if action = "initiate" then has "credentials:issue"
      else if action = "revoke" then has "credentials:revoke"
      else has "credentials:read" || has "credentials:issue"
    else
      match resourceScopes.lookup resource with
      | none => false
      | some (readScope, writeScope) =>
        if readAction then has readScope || has writeScope
        else if writeAction then has writeScope
        else false

def readSecretValue (app : App) (name : String) : String :=
  match truthy (app.environ name) with
  | some direct => direct
  | none =>
    match truthy (app.environ (name ++ "_FILE")) with
    | none => ""
    | some filePath => ((app.readFile filePath).map strip).getD ""

def header (name : String) (value : Option String) : List (String × String) :=
  ((truthy value).map fun v => (name, v)).toList

/-- The scopes header is set whenever the key has a scope, even if their text is empty. -/
def scopesHeader : Option (List String) → List (String × String)
  | some (scope :: scopes) => [("X-Api-Key-Scopes", ",".intercalate (scope :: scopes))]
  | _ => []

def forwardHeaders (app : App) (request : Request) (serviceName : String) :
    List (String × String) :=
  let state := request.state
  let secret :=
    if serviceName = "issuance" then some (readSecretValue app "ISSUANCE_API_KEY")
    else if serviceName = "trust-profiles" then
      some (readSecretValue app "SIGNING_KEYS_INTERNAL_API_KEY")
    else none
  header "X-User-Id" state.userId ++ header "X-User-Email" state.userEmail ++
    header "X-User-Domain" state.userDomain ++ header "X-Organization-ID" state.organizationId ++
    header "X-Api-Key-Id" state.apiKeyId ++ scopesHeader state.apiKeyScopes ++
    header "Authorization" (request.headers.lookup "authorization") ++ header "X-API-Key" secret

def extractBodyOrgId (request : Request) : Option String :=
  if upper request.method ∈ ["POST", "PUT", "PATCH", "DELETE"] then
    let contentType :=
      lower (strip (partition ';' ((request.headers.lookup "content-type").getD "")).1)
    if contentType ∈ ["application/json", "application/scim+json"] then
      request.json.bind fun payload => truthy (payload.getStr? "organization_id")
    else none
  else none

def unavailable : HTTPException := ⟨503, "Resource owner lookup unavailable"⟩

def lookupFailed : HTTPException := ⟨502, "Resource owner lookup failed"⟩

/-- What the answer of the owner service says about the owner. -/
def ownerOfResponse (response : HttpResponse) : Except HTTPException String :=
  if response.statusCode = 404 then .error ⟨404, "Resource not found"⟩
  else if response.statusCode = 403 then .error ⟨403, "Resource access denied"⟩
  else if response.statusCode ≥ 400 then .error lookupFailed
  else
    match response.json with
    | none => .error lookupFailed
    | some payload =>
      let normalizedOrgId := ((payload.getStr? "organization_id").map strip).getD ""
      if normalizedOrgId = "" then .error lookupFailed else .ok normalizedOrgId

def lookupResourceOrgId (app : App) (request : Request) (requiredPermission : String) :
    Except HTTPException (Option String) :=
  match resolveResourceLookup request.path with
  | none => .ok none
  | some (serviceName, lookupPath) =>
    match app.getServiceUrl, app.httpGet with
    | some getServiceUrl, some httpGet =>
      match truthy ((getServiceUrl serviceName).getD none) with
      | none => .error unavailable
      | some serviceUrl =>
        let headers := forwardHeaders app request serviceName ++
          [("X-Required-Permission", requiredPermission)]
        match httpGet (serviceUrl ++ lookupPath) headers with
        | none => .error unavailable
        | some response => (ownerOfResponse response).map some
    | _, _ => .error unavailable

def resolveRequestOrgId (app : App) (request : Request) (requiredPermission : String) :
    Except HTTPException (Option String) :=
  match truthy (extractOrgId request.path) with
  | some orgId => .ok (some orgId)
  | none => do
    match truthy (← lookupResourceOrgId app request requiredPermission) with
    | some orgId => return some orgId
    | none =>
      return firstTruthy [request.queryParam "organization_id", extractBodyOrgId request,
        request.state.organizationId, request.state.sessionOrganizationId,
        request.state.apiKeyOrganizationId]

/-- The state a forwarded request leaves with. -/
def authorizedState (state : RequestState) (orgId requiredPermission resourceName : String)
    (roles permissions : List String) : RequestState :=
  { state with
    organizationId := some orgId
    requiredPermission := some requiredPermission
    orgRoles := some roles
    orgPermissions := some permissions
    orgResource := some resourceName }

def authorizeApiKey (state : RequestState) (orgId requiredPermission resourceName : String) :
    Outcome :=
  if state.apiKeyOrganizationId ≠ some orgId then
    .respond (some orgId) 403 "API key does not have access to this organization" state
  else
    let apiKeyScopes := state.apiKeyScopes.getD []
    if apiKeyAllowed requiredPermission apiKeyScopes then
      .callNext (some orgId)
        (authorizedState state orgId requiredPermission resourceName ["api_key"]
          (sorted apiKeyScopes))
    else
      .respond (some orgId) 403 ("API key missing required permission: " ++ requiredPermission)
        state

def membershipAllows (membership : OrganizationMembership) (requiredPermission : String) : Bool :=
  if requiredPermission = "organization:transfer-ownership" then membership.isOwner
  else membership.hasPermission requiredPermission

def authorizeMember (app : App) (state : RequestState)
    (orgId requiredPermission resourceName : String) : Outcome :=
  match truthy state.userId with
  | none => .respond none 401 "Authentication required" state
  | some userId =>
    match app.getMembership with
    | none => .respond none 500 "Organization client not configured" state
    | some getMembership =>
      match getMembership userId orgId with
      | .error (.http exc) => .respond (some orgId) exc.statusCode exc.detail state
      | .error .other => .respond (some orgId) 500 "Internal server error" state
      | .ok none => .respond (some orgId) 403 "Not a member of this organization" state
      | .ok (some membership) =>
        if membership.isActive then
          if membershipAllows membership requiredPermission then
            .callNext (some orgId)
              (authorizedState state orgId requiredPermission resourceName
                (sorted membership.roleNames.elems) (sorted membership.permissions.elems))
          else .respond (some orgId) 403 "Action not authorized" state
        else
          .respond (some orgId) 403 ("Organization membership is " ++ membership.status) state

def authorize (app : App) (state : RequestState) (orgId requiredPermission resourceName : String) :
    Outcome :=
  if state.authSource = some "api_key" then
    authorizeApiKey state orgId requiredPermission resourceName
  else authorizeMember app state orgId requiredPermission resourceName

def dispatch (app : App) (request : Request) : Outcome :=
  if skipped request.path then .callNext none request.state
  else
    match resolveActionAndResource request.method request.path with
    | none => .callNext none request.state
    | some (requiredPermission, resourceName) =>
      match resolveRequestOrgId app request requiredPermission with
      | .error exc => .respond none exc.statusCode exc.detail request.state
      | .ok orgId =>
        match truthy orgId with
        | none => .callNext none request.state
        | some orgId => authorize app request.state orgId requiredPermission resourceName

end Marty.Gateway.Middleware
