import Marty.Gateway.Paths
import Marty.Lib.Dict
import Marty.Lib.Route

/-! The special routes as sketches, and the fallback on the resource that a path names. -/

namespace Marty.Gateway.Routes

open Lib Lib.Regex Lib.Text Lib.Route Actions Paths

/-- `/v1/organizations/{uuid}` -/
def org : List Piece := [.one (.lit "/v1/organizations/"), .one (.fixed 1)]

/-- `/v1(?:/organizations/{uuid})?` -/
def optOrg : List Piece := [.one (.lit "/v1"), .opts [.lit "/organizations/", .fixed 1]]

def optSegment : Piece := .opts [.lit "/", .seg]

def below (text : String) (rest : List Piece) : List Piece := .one (.lit text) :: .one .seg :: rest

def platforms : String := "/v1/integrations/canvas/platforms/"

def applicants : List Piece :=
  below "/v1/organizations/" [.one (.lit "/applicants"), .opts [.lit "/", .rest]]

def canvasRoutes : List (List Piece) := [
  below platforms [.one (.lit "/"), .oneOf "registration-config" ["readiness"]],
  below platforms [.one (.lit "/scope-discovery")],
  below platforms [.one (.lit "/"),
    .oneOf "sandbox-probe" ["jwks-refresh", "oauth/start", "oauth/authorizations"]],
  below platforms [.one (.lit "/lti-installation")],
  below "/v1/integrations/canvas/program-bindings/" [.one (.lit "/"),
    .oneOf "validate" ["activate", "deactivate"]],
  below "/v1/integrations/canvas/applications/" [.one (.lit "/"),
    .oneOf "approve" ["canvas-sync"]],
  below "/v1/integrations/canvas/canvas-sync-jobs/" [.one (.lit "/"), .oneOf "retry" ["resolve"]],
  below "/v1/integrations/canvas/evidence-policy-reviews/" [.one (.lit "/resolve")],
  below platforms [.one (.lit "/oauth")],
  [.one (.lit "/v1/integrations/canvas/canvas-credentials/validate")]]

def credentialRoutes : List (List Piece) := [
  below "/v1/credential-templates/" [.one (.lit "/activate")],
  below "/v1/credential-templates/" [.one (.lit "/deprecate")],
  below "/v1/credential-templates/" [.one (.lit "/new-version")],
  below "/v1/revocation-profiles/" [.one (.lit "/activate")],
  below "/v1/issued-credentials/" [.one (.lit "/"), .group 1 "revoke" ["suspend", "reinstate"]],
  below "/v1/issued-credentials/" [.one (.lit "/renew")],
  [.one (.lit "/v1/issued-credentials"), optSegment],
  [.one (.lit "/v1/issuance/didcomm/deliver")],
  below "/v1/issuance/" [.one (.lit "/revocation-status")],
  below "/v1/issuance/" [.one (.lit "/revoke")],
  [.one (.lit "/v1/issuance"), optSegment]]

def applicantRoutes : List (List Piece) := [
  below "/v1/organizations/" [.one (.lit "/dashboard/applicant-stats")],
  below "/v1/organizations/" [.one (.lit "/applicants"), optSegment, .one (.lit "/issue")],
  below "/v1/organizations/" [.one (.lit "/applicants/"), .one .seg, .one (.lit "/approve")],
  below "/v1/organizations/" [.one (.lit "/applicants/"), .one .seg, .one (.lit "/reject")],
  applicants]

def flowRoutes : List (List Piece) := [
  [.one (.lit "/v1/flows/verify")],
  below "/v1/flows/definitions/" [.one (.lit "/activate")],
  [.one (.lit "/v1/flows/instances"), optSegment, .opt (.lit "/advance")],
  [.one (.lit "/v1/flows/definitions"), optSegment, .opt (.lit "/activate")]]

def organizationRoutes : List (List Piece) := [
  org ++ [.one (.lit "/transfer-ownership")],
  org ++ [.one (.lit "/members/me/permissions")],
  org ++ [.one (.lit "/members/"), .one .seg, .one (.lit "/roles"), optSegment],
  org ++ [.one (.lit "/roles"), optSegment],
  org ++ [.one (.lit "/permissions")],
  org ++ [.one (.lit "/members"), optSegment],
  org ++ [.one (.lit "/api-keys"), optSegment],
  optOrg ++ [.one (.lit "/policy-sets/"), .one .seg, .one (.lit "/activate")],
  optOrg ++ [.one (.lit "/policy-sets/"), .one .seg, .one (.lit "/archive")],
  optOrg ++ [.one (.lit "/policy-sets/validate")],
  optOrg ++ [.one (.lit "/policy-sets/"), .one .seg, .one (.lit "/validate")],
  org ++ [.one (.lit "/lifecycle")],
  org ++ [.one (.lit "/audit-events/export")],
  org ++ [.one (.lit "/audit-events"), optSegment],
  org ++ [.one (.lit "/scim/v2/Users"), optSegment],
  org ++ [.one (.lit "/scim/v2/Groups"), optSegment],
  org ++ [.one (.lit "/scim/v2/"), .group 2 "ServiceProviderConfig" ["Schemas", "ResourceTypes"]]]

/-- The patterns of `SPECIAL_ROUTE_RULES`, in their order. -/
def routes : List (List Piece) :=
  canvasRoutes ++ credentialRoutes ++ applicantRoutes ++ flowRoutes ++ organizationRoutes

theorem pattern_eq : specialRouteRules.map (·.pattern) = routes.map (routeRe uuidChar 36) := rfl

/-- The rules with their routes. -/
def table : List (List Piece × RouteRule) := routes.zip specialRouteRules

theorem exists_mem_zip {α β γ : Type} {f : α → γ} {g : β → γ} {as : List α} {bs : List β} {b : β}
    (h : bs.map g = as.map f) (hb : b ∈ bs) : ∃ a, (a, b) ∈ as.zip bs ∧ g b = f a := by
  induction bs generalizing as with
  | nil => cases hb
  | cons b' bs ih =>
    cases as with
    | nil => cases h
    | cons a as =>
      obtain ⟨hhead, htail⟩ := List.cons.inj h
      rcases List.mem_cons.mp hb with rfl | hb
      · exact ⟨a, List.mem_cons_self, hhead⟩
      · obtain ⟨a', ha', heq⟩ := ih htail hb
        exact ⟨a', List.mem_cons_of_mem _ ha', heq⟩

theorem exists_mem_table {rule : RouteRule} (h : rule ∈ specialRouteRules) :
    ∃ route, (route, rule) ∈ table ∧ rule.pattern = routeRe uuidChar 36 route :=
  exists_mem_zip pattern_eq h

theorem exists_route {rule : RouteRule} {path : String} (h : rule ∈ specialRouteRules)
    (htest : rule.pattern.test path = true) :
    ∃ route, (route, rule) ∈ table ∧ (routeRe uuidChar 36 route).test path = true := by
  obtain ⟨route, hroute, hpattern⟩ := exists_mem_table h
  exact ⟨route, hroute, hpattern ▸ htest⟩

/-! The first rule that matches. -/

/-- The permission that a rule gives to a method. -/
def permission (method : String) (rule : RouteRule) : Option (String × String) :=
  (truthy (rule.methodMap.lookup (upper method))).map fun permissionKey =>
    (permissionKey, rule.resourceName)

def FirstMatch (path : String) (rule : RouteRule) : Prop :=
  specialRouteRules.find? (·.pattern.test path) = some rule

theorem FirstMatch.mem {path : String} {rule : RouteRule} (h : FirstMatch path rule) :
    rule ∈ specialRouteRules :=
  List.mem_of_find?_eq_some h

theorem FirstMatch.test {path : String} {rule : RouteRule} (h : FirstMatch path rule) :
    rule.pattern.test path = true :=
  (List.find?_eq_some_iff_append.mp h).1

theorem resolveSpecial_eq (method path : String) (rules : List RouteRule) :
    resolveSpecial method path rules =
      (rules.find? (·.pattern.test path)).map (permission method) := by
  induction rules with
  | nil => rfl
  | cons rule rules ih =>
    rw [resolveSpecial, List.find?_cons]
    cases rule.pattern.test path with
    | true => rfl
    | false => exact ih

/-- What is resolved for a path that no special rule matches. -/
def fallback (method path : String) : Option (String × String) :=
  match orgMatchRe.matchStart path with
  | some orgMatch => resolveGenericOrgPermission method (orgMatch.group 2)
  | none =>
    match topLevelMatchRe.matchStart path with
    | some topLevelMatch => resolveGenericOrgPermission method (topLevelMatch.group 1)
    | none => none

theorem resolve_of_firstMatch {method path : String} {rule : RouteRule}
    (h : FirstMatch path rule) : resolveActionAndResource method path = permission method rule := by
  rw [resolveActionAndResource, resolveSpecial_eq, h]
  rfl

theorem resolve_of_not_match {method path : String}
    (h : specialRouteRules.find? (·.pattern.test path) = none) :
    resolveActionAndResource method path = fallback method path := by
  rw [resolveActionAndResource, resolveSpecial_eq, h]
  rfl

/-! The resource that a path names. -/

/-- `/v1/organizations/{uuid}/{key}` -/
def OrgKey (path key : List Char) : Prop :=
  ∃ x u, IsUuid x ∧ IsSegment key ∧ EndsSegment u ∧
    path = "/v1/organizations/".toList ++ (x ++ '/' :: (key ++ u))

/-- `/v1/{key}` -/
def TopKey (path key : List Char) : Prop :=
  ∃ u, IsSegment key ∧ EndsSegment u ∧ path = "/v1/".toList ++ (key ++ u)

theorem exists_segment (s : List Char) :
    ∃ x u, s = x ++ u ∧ (∀ c ∈ x, notSlash c = true) ∧ EndsSegment u := by
  induction s with
  | nil => exact ⟨[], [], rfl, by simp, endsSegment_nil⟩
  | cons c s ih =>
    by_cases hc : notSlash c = true
    · obtain ⟨x, u, rfl, hx, hu⟩ := ih
      exact ⟨c :: x, u, rfl, by simpa [hc] using hx, hu⟩
    · exact ⟨[], c :: s, rfl, by simp, by simpa [EndsSegment] using hc⟩

theorem orgMatch_of_orgKey {path : String} {key : List Char} (h : OrgKey path.toList key) :
    ∃ m, orgMatchRe.matchStart path = some m ∧ m.group 2 = String.ofList key := by
  obtain ⟨x, u, hx, hkey, hu, hp⟩ := h
  have hfirst := (Re.First.lit "/v1/organizations/" (x ++ '/' :: (key ++ u))).catCons
    ((first_uuidRe hx).catCons ((Re.First.lit "/" (key ++ u)).catCons
      (((first_seg hkey hu).group 2).catCons (.catNil _))))
  rw [← hp] at hfirst
  exact ⟨_, hfirst.matchStart, by simp [Match.append, Match.group, List.lookup_cons]⟩

theorem exists_orgKey {path : String} (h : orgMatchRe.matchStart path ≠ none) :
    ∃ key, OrgKey path.toList key := by
  rw [Ne, Re.matchStart_eq_none] at h
  push Not at h
  obtain ⟨_, u, hpath, _, _, rfl, h₁, x, _, rfl, hx, _, _, rfl, h₂, key, _, rfl, hkey, rfl⟩ := h
  rw [Re.consumes_lit] at h₁ h₂
  obtain ⟨y, v, rfl, hy, hv⟩ := exists_segment u
  have hkey : IsSegment key := consumes_seg.mp hkey
  refine ⟨key ++ y, x, v, Re.consumes_times.mp hx, ⟨by simp [hkey.1], ?_⟩, hv, ?_⟩
  · intro c hc
    exact (List.mem_append.mp hc).elim (hkey.2 c) (hy c)
  · simp [hpath, h₁, h₂]

theorem topLevelMatch_of_topKey {path : String} {key : List Char} (h : TopKey path.toList key) :
    ∃ m, topLevelMatchRe.matchStart path = some m ∧ m.group 1 = String.ofList key := by
  obtain ⟨u, hkey, hu, hp⟩ := h
  obtain ⟨m, hm, hgroups⟩ := first_slashOrEnd hu
  have hfirst := (Re.First.lit "/v1/" (key ++ u)).catCons
    (((first_seg hkey hu).group 1).catCons (hm.catCons (.catNil _)))
  rw [← hp] at hfirst
  exact ⟨_, hfirst.matchStart, by simp [Match.append, Match.group]⟩

theorem exists_topKey {path : String} (h : topLevelMatchRe.matchStart path ≠ none) :
    ∃ key, TopKey path.toList key := by
  rw [Ne, Re.matchStart_eq_none] at h
  push Not at h
  obtain ⟨_, u, hpath, _, _, rfl, h₁, key, _, rfl, hkey, y, _, rfl, hy, rfl⟩ := h
  rw [Re.consumes_lit] at h₁
  have hkey : IsSegment key := consumes_seg.mp hkey
  rcases consumes_slashOrEnd hy with hy | hy
  · exact ⟨key, y ++ u, hkey, by simpa using hy, by simp [hpath, h₁]⟩
  · -- A newline at the end belongs to the key.
    have hnewline : y ++ u = ['\n'] := by simpa using hy
    refine ⟨key ++ ['\n'], [], ⟨by simp, ?_⟩, endsSegment_nil, by simp [hpath, h₁, hnewline]⟩
    intro c hc
    rcases List.mem_append.mp hc with hc | hc
    · exact hkey.2 c hc
    · obtain rfl := List.mem_singleton.mp hc
      decide

theorem fallback_of_orgKey {path : String} {key : List Char} (method : String)
    (h : OrgKey path.toList key) :
    fallback method path = resolveGenericOrgPermission method (String.ofList key) := by
  obtain ⟨m, hm, hgroup⟩ := orgMatch_of_orgKey h
  simp only [fallback, hm, hgroup]

theorem fallback_of_topKey {path : String} {key : List Char} (method : String)
    (hno : ∀ key, ¬ OrgKey path.toList key) (h : TopKey path.toList key) :
    fallback method path = resolveGenericOrgPermission method (String.ofList key) := by
  have horg : orgMatchRe.matchStart path = none := by
    by_contra hmatch
    obtain ⟨key, hkey⟩ := exists_orgKey hmatch
    exact hno key hkey
  obtain ⟨m, hm, hgroup⟩ := topLevelMatch_of_topKey h
  simp only [fallback, horg, hm, hgroup]

theorem fallback_of_noKey {path : String} (method : String)
    (hno : ∀ key, ¬ OrgKey path.toList key) (hno' : ∀ key, ¬ TopKey path.toList key) :
    fallback method path = none := by
  have horg : orgMatchRe.matchStart path = none := by
    by_contra hmatch
    obtain ⟨key, hkey⟩ := exists_orgKey hmatch
    exact hno key hkey
  have htop : topLevelMatchRe.matchStart path = none := by
    by_contra hmatch
    obtain ⟨key, hkey⟩ := exists_topKey hmatch
    exact hno' key hkey
  rw [fallback, horg, htop]

/-! Sketches and keys. -/

/-- The key of all paths that fit the sketch, where it has a slash after the key. -/
def keyOf : Sketch → Option (List Char)
  | .slash (.lit []) (.slash (.lit v) (.slash (.lit key) rest)) =>
    if v ≠ "v1".toList ∨ key = [] then none
    else if key ≠ "organizations".toList then some key
    else
      match rest with
      | .slash .fixed (.slash (.lit key) _) => if key = [] then none else some key
      | _ => none
  | _ => none

theorem noSlash_iff {s : List Char} : NoSlash s ↔ ∀ c ∈ s, notSlash c = true := by
  simp [NoSlash, notSlash]

theorem fallback_of_keyOf {path : String} {k : Sketch} {key : List Char} (method : String)
    (hkey : keyOf k = some key) (h : k.Fits uuidChar 36 path.toList) :
    fallback method path = resolveGenericOrgPermission method (String.ofList key) := by
  unfold keyOf at hkey
  split at hkey
  case h_2 => cases hkey
  case h_1 v first rest =>
    split at hkey
    case isTrue => cases hkey
    case isFalse hne =>
      obtain ⟨rfl, hfirst⟩ : v = "v1".toList ∧ first ≠ [] := by simpa using hne
      obtain ⟨_, _, hpath, -, rfl, _, _, rfl, -, rfl, first, u, rfl, hslash, rfl, hrest⟩ := h
      have hsegment : IsSegment first := ⟨hfirst, noSlash_iff.mp hslash⟩
      have hpath : path.toList = "/v1/".toList ++ (first ++ '/' :: u) := hpath
      split at hkey
      case isTrue horganizations =>
        obtain rfl := Option.some.inj hkey
        refine fallback_of_topKey method (fun key horg => ?_)
          ⟨'/' :: u, hsegment, endsSegment_slash u, hpath⟩
        obtain ⟨x, w, -, -, -, heq⟩ := horg
        have heq : "/v1/".toList ++ (first ++ '/' :: u) =
            "/v1/".toList ++ ("organizations".toList ++ '/' :: (x ++ '/' :: (key ++ w))) := by
          rw [← hpath, heq]
          simp
        exact horganizations (topLevel_unique hsegment.2 (by decide) heq)
      case isFalse horganizations =>
        obtain rfl : first = "organizations".toList := by simpa using horganizations
        split at hkey
        case h_2 => cases hkey
        case h_1 second _ =>
          split at hkey
          case isTrue => cases hkey
          case isFalse hsecond =>
            obtain rfl := Option.some.inj hkey
            obtain ⟨x, _, rfl, -, hx, _, w, rfl, hslash', rfl, -⟩ := hrest
            refine fallback_of_orgKey method ⟨x, '/' :: w, hx,
              ⟨hsecond, noSlash_iff.mp hslash'⟩, endsSegment_slash w, ?_⟩
            rw [hpath]
            simp

/-- The sketches of the paths with a key. -/
def shapes (key : String) : List Sketch :=
  let here : List Sketch := [.last (.lit key.toList), .slash (.lit key.toList) .anything]
  let root (k : Sketch) : Sketch := .slash (.lit []) (.slash (.lit "v1".toList) k)
  here.map root ++
    here.map fun k => root (.slash (.lit "organizations".toList) (.slash .fixed k))

theorem mem_of_generic {method key : String}
    (h : resolveGenericOrgPermission method key ≠ none) : key ∈ genericResourceMap.map (·.1) := by
  rw [resolveGenericOrgPermission] at h
  cases hlookup : genericResourceMap.lookup key with
  | none => simp [hlookup] at h
  | some entry => exact List.mem_map.mpr ⟨_, Dict.mem_of_lookup hlookup, rfl⟩

/-- A key and what follows it fit one of two sketches. -/
theorem key_fits {key u : List Char} (hkey : IsSegment key) (hu : EndsSegment u) :
    ∃ k ∈ [Sketch.last (.lit key), .slash (.lit key) .anything],
      k.Fits uuidChar 36 (key ++ u) := by
  have hslash : NoSlash key := noSlash_iff.mpr hkey.2
  rcases hu.cases with rfl | ⟨v, rfl⟩
  · refine ⟨_, List.mem_cons_self, ?_⟩
    rw [List.append_nil]
    exact ⟨hslash, key, [], (List.append_nil key).symm, .inl rfl, rfl⟩
  · exact ⟨_, List.mem_cons_of_mem _ List.mem_cons_self, key, v, rfl, hslash, rfl, trivial⟩

theorem exists_shape {method path : String} (h : fallback method path ≠ none) :
    ∃ key ∈ genericResourceMap.map (·.1), ∃ k ∈ shapes key, k.Fits uuidChar 36 path.toList := by
  by_cases horg : ∃ key, OrgKey path.toList key
  · obtain ⟨key, hkey⟩ := horg
    rw [fallback_of_orgKey method hkey] at h
    refine ⟨_, mem_of_generic h, ?_⟩
    obtain ⟨x, u, hx, hsegment, hu, hpath⟩ := hkey
    obtain ⟨k, hk, hfits⟩ := key_fits hsegment hu
    have hx' : NoSlash x := noSlash_iff.mpr fun c hc => notSlash_of_uuidChar (hx.2 c hc)
    refine ⟨_, List.mem_append_right _ (List.mem_map_of_mem (by simpa using hk)), ?_⟩
    rw [hpath]
    exact ⟨[], _, rfl, by simp [NoSlash], rfl, "v1".toList, _, rfl, by simp [NoSlash], rfl,
      "organizations".toList, _, rfl, by simp [NoSlash], rfl, x, _, rfl, hx', hx, hfits⟩
  · by_cases htop : ∃ key, TopKey path.toList key
    · obtain ⟨key, hkey⟩ := htop
      rw [fallback_of_topKey method (fun key hkey => horg ⟨key, hkey⟩) hkey] at h
      refine ⟨_, mem_of_generic h, ?_⟩
      obtain ⟨u, hsegment, hu, hpath⟩ := hkey
      obtain ⟨k, hk, hfits⟩ := key_fits hsegment hu
      refine ⟨_, List.mem_append_left _ (List.mem_map_of_mem (by simpa using hk)), ?_⟩
      rw [hpath]
      exact ⟨[], _, rfl, by simp [NoSlash], rfl, "v1".toList, _, rfl, by simp [NoSlash], rfl, hfits⟩
    · exact absurd (fallback_of_noKey method (fun key hkey => horg ⟨key, hkey⟩)
        fun key hkey => htop ⟨key, hkey⟩) h

/-- A route that meets no path with a key has no fallback. -/
theorem fallback_of_apart {method path : String} {route : List Piece}
    (happart : ∀ key ∈ genericResourceMap.map (·.1), ∀ k ∈ sketches route, ∀ k' ∈ shapes key,
      k.meets uuidChar 36 k' = false)
    (htest : (routeRe uuidChar 36 route).test path = true) : fallback method path = none := by
  by_contra hne
  obtain ⟨key, hkey, k', hk', hfits'⟩ := exists_shape hne
  obtain ⟨k, hk, hfits⟩ := exists_fits (by decide) htest
  have hmeets := Sketch.meets_of_fits hfits hfits'
  cases hmeets.symm.trans (happart key hkey k hk k' hk')

def methods : List String := ["GET", "HEAD", "OPTIONS", "POST", "PUT", "PATCH", "DELETE"]

/-- The resources of the fallback. -/
def genericNames : List String := genericResourceMap.map (·.2.2)

/-- The rule for all paths below the applicants of an organization. -/
def applicantsRule : RouteRule := applicantRules.get ⟨4, by decide⟩

/-! Facts of the tables. -/

theorem upper_of_mem {method : String} (h : method ∈ methods) : upper method = method := by
  revert method
  decide +kernel

theorem methodMap_spec : ∀ rule ∈ specialRouteRules, ∀ entry ∈ rule.methodMap,
    entry.1 ∈ methods ∧ entry.2 ≠ "" := by
  decide +kernel

theorem applicantsRule_spec : ∀ e ∈ table, e.1 = applicants →
    e.2.methodMap = applicantsRule.methodMap ∧ e.2.resourceName = applicantsRule.resourceName := by
  decide +kernel

/-- What a special rule grants of the permissions that the fallback would grant too. -/
def genericGrants : List (String × String) := [
  ("GET", "integration-connector:view"), ("PUT", "integration-connector:edit"),
  ("GET", "flow-definition:view"), ("POST", "flow-definition:create"),
  ("PUT", "flow-definition:edit"), ("PATCH", "flow-definition:edit"),
  ("DELETE", "flow-definition:delete")]

theorem genericGrants_spec : ∀ rule ∈ specialRouteRules, ∀ entry ∈ rule.methodMap,
    entry ∈ genericGrants → rule.resourceName ∈ genericNames := by
  decide +kernel

/-- A special rule among the others, and against the fallback. -/
@[mk_iff]
structure RouteSpec (route : List Piece) (rule : RouteRule) : Prop where
  solid : route ≠ applicants → (sketches route).all (Sketch.solid 36) = true
  besideApplicants : meet uuidChar 36 route applicants = true → ∀ m ∈ methods,
    ((rule.methodMap.lookup m).map (·, rule.resourceName) =
        (applicantsRule.methodMap.lookup m).map (·, applicantsRule.resourceName) ↔
      rule.methodMap = applicantsRule.methodMap ∨ m ∉ applicantsRule.methodMap.map (·.1))
  /-- A rule outside the generic resources shares a path with another rule only where that has no
  further method, or is the rule for the applicants. -/
  apart : rule.resourceName ∉ genericNames → ∀ e ∈ table, e.1 ≠ applicants →
    (∃ m ∈ methods, rule.methodMap.lookup m = none ∧ e.2.methodMap.lookup m ≠ none) →
      meet uuidChar 36 route e.1 = false
  apartShapes : rule.resourceName ∉ genericNames →
    ∀ key ∈ genericResourceMap.map (·.1), ∀ k ∈ sketches route, ∀ k' ∈ shapes key,
      k.meets uuidChar 36 k' = false
  generic : rule.resourceName ∈ genericNames → ∀ k ∈ sketches route, ∃ key ∈ keyOf k,
    ∀ m ∈ methods, resolveGenericOrgPermission m (String.ofList key) ≠ none ∧
      ∀ p ∈ rule.methodMap.lookup m,
        (resolveGenericOrgPermission m (String.ofList key) = some (p, rule.resourceName) ↔
          (m, p) ∈ genericGrants)

set_option synthInstance.maxSize 1024 in
instance (route : List Piece) (rule : RouteRule) : Decidable (RouteSpec route rule) :=
  decidable_of_iff' _ (routeSpec_iff route rule)

theorem route_spec : ∀ e ∈ table, RouteSpec e.1 e.2 := by
  decide +kernel

end Marty.Gateway.Routes
