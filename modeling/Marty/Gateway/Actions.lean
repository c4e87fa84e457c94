import Marty.Lib.Regex
import Marty.Lib.Text

/-! The route tables of `cedar_actions`: which permission a method and a path need, which
organization a path names, and which service owns the resource a path names. -/

namespace Marty.Gateway.Actions

open Lib.Regex

def notSlash (c : Char) : Bool := c != '/'

def notNewline (c : Char) : Bool := c != '\n'

def uuidChar (c : Char) : Bool :=
  ('a' ≤ c && c ≤ 'f') || ('0' ≤ c && c ≤ '9') || c == '-'

/-- The segment pattern `[^/]+`. -/
def seg : Re := .many1 notSlash

/-- `(?:/[^/]+)?` -/
def optSeg : Re := .opt (.cat [.lit "/", seg])

/-- `(?:/|$)` -/
def slashOrEnd : Re := .alt (.lit "/") .eos

def uuidRe : Re := .group 1 (.times uuidChar 36)

def orgPathRe : Re := .cat [.lit "/v1/organizations/", uuidRe, slashOrEnd]

def topLevelResourceRe : Re :=
  .cat [.lit "/v1/", .group 1 seg, .lit "/", .group 2 seg, slashOrEnd]

def flowResourceRe : Re :=
  .cat [.lit "/v1/flows/", .group 1 (.oneOf (.lit "definitions") [.lit "instances"]), .lit "/",
    .group 2 seg, slashOrEnd]

def canvasPlatformResourceRe : Re :=
  .cat [.lit "/v1/integrations/canvas/platforms/", .group 1 seg, slashOrEnd]

def canvasBindingResourceRe : Re :=
  .cat [.lit "/v1/integrations/canvas/program-bindings/", .group 1 seg, slashOrEnd]

/-- An entry of `RESOURCE_LOOKUP_MAP`: the owning service, the lookup path and the segments
that are actions and not identifiers. -/
structure ResourceLookup where
  serviceName : String
  lookupTemplate : String → String
  reservedSegments : List String

def resourceLookupMap : List (String × ResourceLookup) := [
  ("credential-templates",
    ⟨"credential-templates", ("/v1/credential-templates/" ++ ·), []⟩),
  ("trust-profiles",
    ⟨"trust-profiles", ("/internal/v1/resource-owners/trust-profiles/" ++ ·), []⟩),
  ("issuer-entities",
    ⟨"trust-profiles", ("/internal/v1/resource-owners/issuer-entities/" ++ ·), []⟩),
  ("compliance-profiles",
    ⟨"compliance-profiles", ("/v1/compliance-profiles/" ++ ·), []⟩),
  ("presentation-policies",
    ⟨"presentation-policies", ("/v1/presentation-policies/" ++ ·), ["evaluate"]⟩),
  ("deployment-profiles",
    ⟨"deployment-profiles", ("/v1/deployment-profiles/" ++ ·), []⟩),
  ("revocation-profiles",
    ⟨"revocation-profiles", ("/v1/revocation-profiles/" ++ ·), []⟩),
  ("flows",
    ⟨"flows", ("/v1/flows/" ++ ·),
      ["capabilities", "definitions", "instances", "siop", "verify", "webhooks"]⟩),
  ("application-templates",
    ⟨"issuance", ("/internal/v1/resource-owners/application-templates/" ++ ·),
      ["validate-artifacts"]⟩),
  ("issued-credentials",
    ⟨"issuance", ("/internal/v1/resource-owners/issued-credentials/" ++ ·), ["mine"]⟩),
  ("issuance",
    ⟨"issuance", ("/internal/v1/resource-owners/issuance-transactions/" ++ ·),
      ["offers", "token", "credential", "nonce", "notification", "deferred-credential",
        "authorize", "par", "didcomm", "initiate", "transactions", "delivery-records",
        "oid4vci-clients", "organizations"]⟩),
  ("policy-sets",
    ⟨"organizations", ("/v1/policy-sets/" ++ ·), ["validate"]⟩)]

/-- An entry of `SPECIAL_ROUTE_RULES`. -/
structure RouteRule where
  pattern : Re
  methodMap : List (String × String)
  resourceName : String

def viewMethods (permission : String) : List (String × String) :=
  [("GET", permission), ("HEAD", permission), ("OPTIONS", permission)]

def canvasRules : List RouteRule := [
  ⟨.cat [.lit "/v1/integrations/canvas/platforms/", seg, .lit "/",
      .oneOf (.lit "registration-config") [.lit "readiness"], .eos],
    [("GET", "integration-connector:view")], "integration-connector"⟩,
  ⟨.cat [.lit "/v1/integrations/canvas/platforms/", seg, .lit "/scope-discovery", .eos],
    [("POST", "integration-connector:view")], "integration-connector"⟩,
  ⟨.cat [.lit "/v1/integrations/canvas/platforms/", seg, .lit "/",
      .oneOf (.lit "sandbox-probe")
        [.lit "jwks-refresh", .lit "oauth/start", .lit "oauth/authorizations"], .eos],
    [("POST", "integration-connector:edit")], "integration-connector"⟩,
  ⟨.cat [.lit "/v1/integrations/canvas/platforms/", seg, .lit "/lti-installation", .eos],
    [("PUT", "integration-connector:edit")], "integration-connector"⟩,
  ⟨.cat [.lit "/v1/integrations/canvas/program-bindings/", seg, .lit "/",
      .oneOf (.lit "validate") [.lit "activate", .lit "deactivate"], .eos],
    [("POST", "integration-connector:edit")], "integration-connector"⟩,
  ⟨.cat [.lit "/v1/integrations/canvas/applications/", seg, .lit "/",
      .oneOf (.lit "approve") [.lit "canvas-sync"], .eos],
    [("POST", "integration-connector:edit")], "integration-connector"⟩,
  ⟨.cat [.lit "/v1/integrations/canvas/canvas-sync-jobs/", seg, .lit "/",
      .oneOf (.lit "retry") [.lit "resolve"], .eos],
    [("POST", "integration-connector:edit")], "integration-connector"⟩,
  ⟨.cat [.lit "/v1/integrations/canvas/evidence-policy-reviews/", seg, .lit "/resolve", .eos],
    [("POST", "integration-connector:edit")], "integration-connector"⟩,
  ⟨.cat [.lit "/v1/integrations/canvas/platforms/", seg, .lit "/oauth", .eos],
    [("DELETE", "integration-connector:edit")], "integration-connector"⟩,
  ⟨.cat [.lit "/v1/integrations/canvas/canvas-credentials/validate", .eos],
    [("POST", "integration-connector:view")], "integration-connector"⟩]

def credentialRules : List RouteRule := [
  ⟨.cat [.lit "/v1/credential-templates/", seg, .lit "/activate", .eos],
    [("POST", "credential-template:activate")], "credential-template"⟩,
  ⟨.cat [.lit "/v1/credential-templates/", seg, .lit "/deprecate", .eos],
    [("POST", "credential-template:deprecate")], "credential-template"⟩,
  ⟨.cat [.lit "/v1/credential-templates/", seg, .lit "/new-version", .eos],
    [("POST", "credential-template:version")], "credential-template"⟩,
  ⟨.cat [.lit "/v1/revocation-profiles/", seg, .lit "/activate", .eos],
    [("POST", "revocation-profile:activate")], "revocation-profile"⟩,
  ⟨.cat [.lit "/v1/issued-credentials/", seg, .lit "/",
      .group 1 (.oneOf (.lit "revoke") [.lit "suspend", .lit "reinstate"]), .eos],
    [("POST", "issuance:revoke")], "issued-credential"⟩,
  ⟨.cat [.lit "/v1/issued-credentials/", seg, .lit "/renew", .eos],
    [("POST", "issuance:initiate")], "issued-credential"⟩,
  ⟨.cat [.lit "/v1/issued-credentials", optSeg, .eos],
    viewMethods "issuance:view", "issued-credential"⟩,
  ⟨.cat [.lit "/v1/issuance/didcomm/deliver", .eos],
    [("POST", "issuance:initiate")], "issuance"⟩,
  ⟨.cat [.lit "/v1/issuance/", seg, .lit "/revocation-status", .eos],
    viewMethods "issuance:view", "issuance"⟩,
  ⟨.cat [.lit "/v1/issuance/", seg, .lit "/revoke", .eos],
    [("POST", "issuance:revoke")], "issued-credential"⟩,
  ⟨.cat [.lit "/v1/issuance", optSeg, .eos],
    ("POST", "issuance:initiate") :: viewMethods "issuance:view", "issuance"⟩]

def applicantRules : List RouteRule := [
  ⟨.cat [.lit "/v1/organizations/", seg, .lit "/dashboard/applicant-stats", .eos],
    [("GET", "application:review")], "application"⟩,
  ⟨.cat [.lit "/v1/organizations/", seg, .lit "/applicants", optSeg, .lit "/issue", .eos],
    [("POST", "issuance:initiate")], "application"⟩,
  ⟨.cat [.lit "/v1/organizations/", seg, .lit "/applicants/", seg, .lit "/approve", .eos],
    [("POST", "application:approve")], "application"⟩,
  ⟨.cat [.lit "/v1/organizations/", seg, .lit "/applicants/", seg, .lit "/reject", .eos],
    [("POST", "application:reject")], "application"⟩,
  ⟨.cat [.lit "/v1/organizations/", seg, .lit "/applicants",
      .opt (.cat [.lit "/", .many notNewline]), .eos],
    [("POST", "application:review"), ("PATCH", "application:review"),
      ("DELETE", "application:review")] ++ viewMethods "application:review", "application"⟩]

def flowRules : List RouteRule := [
  ⟨.cat [.lit "/v1/flows/verify", .eos],
    [("POST", "verification:execute")], "verification"⟩,
  ⟨.cat [.lit "/v1/flows/definitions/", seg, .lit "/activate", .eos],
    [("POST", "flow-definition:activate")], "flow-definition"⟩,
  ⟨.cat [.lit "/v1/flows/instances", optSeg, .opt (.lit "/advance"), .eos],
    ("POST", "flow-instance:start") :: viewMethods "flow-instance:view", "flow-instance"⟩,
  ⟨.cat [.lit "/v1/flows/definitions", optSeg, .opt (.lit "/activate"), .eos],
    [("GET", "flow-definition:view"), ("POST", "flow-definition:create"),
      ("PUT", "flow-definition:edit"), ("PATCH", "flow-definition:edit"),
      ("DELETE", "flow-definition:delete")], "flow-definition"⟩]

/-- The method maps of the role and team routes share one shape. -/
def crudMethods (get post put delete : String) : List (String × String) :=
  [("GET", get), ("POST", post), ("PUT", put), ("PATCH", put), ("DELETE", delete)]

def roleMethods : List (String × String) :=
  crudMethods "role:view" "role:create" "role:edit" "role:delete"

def teamMethods : List (String × String) :=
  crudMethods "team:view" "team:invite" "team:manage" "team:manage"

/-- `^/v1/organizations/{uuid}` followed by the given patterns and `$`. -/
def orgRoute (rest : List Re) : Re :=
  .cat (.lit "/v1/organizations/" :: uuidRe :: (rest ++ [.eos]))

/-- `^/v1(?:/organizations/{uuid})?` followed by the given patterns and `$`. -/
def optOrgRoute (rest : List Re) : Re :=
  .cat (.lit "/v1" :: .opt (.cat [.lit "/organizations/", uuidRe]) :: (rest ++ [.eos]))

def organizationRules : List RouteRule := [
  ⟨orgRoute [.lit "/transfer-ownership"],
    [("POST", "organization:transfer-ownership")], "organization"⟩,
  ⟨orgRoute [.lit "/members/me/permissions"], [("GET", "organization:view")], "organization"⟩,
  ⟨orgRoute [.lit "/members/", seg, .lit "/roles", optSeg],
    [("PUT", "role:assign"), ("POST", "role:assign"), ("DELETE", "role:assign")], "role"⟩,
  ⟨orgRoute [.lit "/roles", optSeg], roleMethods, "role"⟩,
  ⟨orgRoute [.lit "/permissions"], [("GET", "role:view")], "role"⟩,
  ⟨orgRoute [.lit "/members", optSeg], teamMethods, "team"⟩,
  ⟨orgRoute [.lit "/api-keys", optSeg],
    crudMethods "api-key:view" "api-key:create" "api-key:edit" "api-key:revoke", "api-key"⟩,
  ⟨optOrgRoute [.lit "/policy-sets/", seg, .lit "/activate"],
    [("POST", "policy-set:activate")], "policy-set"⟩,
  ⟨optOrgRoute [.lit "/policy-sets/", seg, .lit "/archive"],
    [("POST", "policy-set:archive")], "policy-set"⟩,
  ⟨optOrgRoute [.lit "/policy-sets/validate"], [("POST", "policy-set:validate")], "policy-set"⟩,
  ⟨optOrgRoute [.lit "/policy-sets/", seg, .lit "/validate"],
    [("POST", "policy-set:validate")], "policy-set"⟩,
  ⟨orgRoute [.lit "/lifecycle"], [("GET", "organization:view")], "organization"⟩,
  ⟨orgRoute [.lit "/audit-events/export"], [("GET", "audit:export")], "audit"⟩,
  ⟨orgRoute [.lit "/audit-events", optSeg], [("GET", "audit:view")], "audit"⟩,
  ⟨orgRoute [.lit "/scim/v2/Users", optSeg], teamMethods, "team"⟩,
  ⟨orgRoute [.lit "/scim/v2/Groups", optSeg], roleMethods, "role"⟩,
  ⟨orgRoute [.lit "/scim/v2/",
      .group 2 (.oneOf (.lit "ServiceProviderConfig") [.lit "Schemas", .lit "ResourceTypes"])],
    [("GET", "organization:view")], "organization"⟩]

def specialRouteRules : List RouteRule :=
  canvasRules ++ credentialRules ++ applicantRules ++ flowRules ++ organizationRules

def genericResourceMap : List (String × String × String) := [
  ("credential-templates", "credential-template", "credential-template"),
  ("trust-profiles", "trust-profile", "trust-profile"),
  ("issuer-entities", "trusted-issuer", "issuer-entity"),
  ("compliance-profiles", "compliance-profile", "compliance-profile"),
  ("presentation-policies", "presentation-policy", "presentation-policy"),
  ("revocation-profiles", "revocation-profile", "revocation-profile"),
  ("deployment-profiles", "deployment-profile", "deployment-profile"),
  ("flows", "flow-definition", "flow-definition"),
  ("flow-instances", "flow-instance", "flow-instance"),
  ("application-templates", "application-template", "application-template"),
  ("verification", "verification", "verification"),
  ("integrations", "integration-connector", "integration-connector"),
  ("policy-sets", "policy-set", "policy-set")]

def resolveGenericOrgPermission (method segment : String) : Option (String × String) :=
  match genericResourceMap.lookup segment with
  | none => none
  | some (permissionResource, resourceName) =>
    let normalizedMethod := Lib.Text.upper method
    if normalizedMethod ∈ ["GET", "HEAD", "OPTIONS"] then
      some (permissionResource ++ ":view", resourceName)
    else if normalizedMethod = "POST" then
      if permissionResource = "verification" then
        some (permissionResource ++ ":execute", resourceName)
      else if permissionResource = "flow-instance" then
        some (permissionResource ++ ":start", resourceName)
      else some (permissionResource ++ ":create", resourceName)
    else if normalizedMethod ∈ ["PUT", "PATCH"] then
      if permissionResource = "verification" then
        some (permissionResource ++ ":execute", resourceName)
      else some (permissionResource ++ ":edit", resourceName)
    else if normalizedMethod = "DELETE" then
      some (permissionResource ++ ":delete", resourceName)
    else none

/-- The permission of the first special rule that matches the path: once a rule matches,
a method outside its map resolves to nothing. -/
def resolveSpecial (method path : String) : List RouteRule → Option (Option (String × String))
  | [] => none
  | rule :: rules =>
    if rule.pattern.test path then
      some ((Lib.Text.truthy (rule.methodMap.lookup (Lib.Text.upper method))).map
        fun permissionKey => (permissionKey, rule.resourceName))
    else resolveSpecial method path rules

def orgMatchRe : Re :=
  .cat [.lit "/v1/organizations/", uuidRe, .lit "/", .group 2 seg]

def topLevelMatchRe : Re := .cat [.lit "/v1/", .group 1 seg, slashOrEnd]

def resolveActionAndResource (method path : String) : Option (String × String) :=
  match resolveSpecial method path specialRouteRules with
  | some resolved => resolved
  | none =>
    match orgMatchRe.matchStart path with
    | some orgMatch => resolveGenericOrgPermission method (orgMatch.group 2)
    | none =>
      match topLevelMatchRe.matchStart path with
      | some topLevelMatch => resolveGenericOrgPermission method (topLevelMatch.group 1)
      | none => none

def extractOrgId (path : String) : Option String :=
  match orgPathRe.matchStart path with
  | none => none
  | some _ =>
    ((Re.cat [.lit "/v1/organizations/", uuidRe]).matchStart path).map (·.group 1)

def resolveResourceLookup (path : String) : Option (String × String) :=
  match canvasPlatformResourceRe.matchStart path with
  | some m => some ("issuance", "/v1/integrations/canvas/platforms/" ++ m.group 1)
  | none =>
  match canvasBindingResourceRe.matchStart path with
  | some m => some ("issuance", "/v1/integrations/canvas/program-bindings/" ++ m.group 1)
  | none =>
  match flowResourceRe.matchStart path with
  | some m => some ("flows", "/v1/flows/" ++ m.group 1 ++ "/" ++ m.group 2)
  | none =>
  match topLevelResourceRe.matchStart path with
  | none => none
  | some m =>
    match resourceLookupMap.lookup (m.group 1) with
    | none => none
    | some lookup =>
      if m.group 2 ∈ lookup.reservedSegments then none
      else some (lookup.serviceName, lookup.lookupTemplate (m.group 2))

end Marty.Gateway.Actions
