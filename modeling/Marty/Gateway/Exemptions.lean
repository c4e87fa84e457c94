import Marty.Gateway.Middleware
import Marty.Gateway.Routes

/-! What gets around the permission check: the paths of the skip list, and the scopes of an API
key. -/

namespace Marty.Gateway.Exemptions

open Lib Lib.Regex Lib.Text Lib.Route Actions Paths Routes Middleware

variable {method path : String} {x u w : List Char}

/-! The skip list. -/

/-- A path below the organization with the given id. -/
def Below (path : String) (x u : List Char) : Prop :=
  IsUuid x ∧ path.toList = "/v1/organizations/".toList ++ (x ++ '/' :: u)

/-- What names a status list of a revocation profile, below its organization. -/
def IsStatusList (u : List Char) : Prop :=
  ∃ a b c, IsSegment a ∧ IsSegment b ∧ IsSegment c ∧
    u = "revocation-profiles/".toList ++ (a ++ ("/status-lists/".toList ++ (b ++ '/' :: c)))

def joinRoute : List Piece := below "/v1/organizations/" [.one (.lit "/join")]

def statusListRoute : List Piece :=
  below "/v1/organizations/" [.one (.lit "/revocation-profiles/"), .one .seg,
    .one (.lit "/status-lists/"), .one .seg, .one (.lit "/"), .one .seg]

/-- No path below an organization begins with the text: it leaves the prefix of the organizations,
or goes on with what no id has. -/
def foreign (w : String) : Bool :=
  let prefix' := "/v1/organizations/".toList
  decide (w.toList.length ≤ prefix'.length + 36) && !w.toList.isPrefixOf prefix' &&
    !(prefix'.isPrefixOf w.toList && (w.toList.drop prefix'.length).all uuidChar)

theorem not_prefix_of_foreign {w : String} (hw : foreign w = true) (hbelow : Below path x u) :
    ¬ w.toList <+: path.toList := by
  obtain ⟨hx, hpath⟩ := hbelow
  simp only [foreign, Bool.and_eq_true, decide_eq_true_eq, Bool.not_eq_true', Bool.eq_false_iff,
    Ne, List.isPrefixOf_iff_prefix, not_and, List.all_eq_true] at hw
  obtain ⟨⟨hlength, hprefix⟩, hid⟩ := hw
  rw [hpath]
  intro h
  rcases List.prefix_or_prefix_of_prefix h (List.prefix_append _ _) with h' | ⟨v, hv⟩
  · exact hprefix h'
  · rw [← hv] at h hid hlength
    rw [List.length_append] at hlength
    rw [List.drop_left] at hid
    have hvx : v <+: x := List.prefix_of_prefix_length_le ((List.prefix_append_right_inj _).mp h)
      (List.prefix_append _ _) (by have := hx.1; omega)
    exact hid (List.prefix_append _ _) fun c hc => hx.2 c (hvx.subset hc)

/-- The patterns of the skip list, as a path below an organization meets them. -/
inductive Skip : Re → Prop
  | lit {w : String} : foreign w = true → Skip (.lit w)
  | cat {w : String} {rs : List Re} : foreign w = true → Skip (.cat (.lit w :: rs))
  | root : Skip (.cat [.lit "/v1/organizations", .eos])
  | join : Skip (routeRe uuidChar 36 joinRoute)
  | statusList : Skip (routeRe uuidChar 36 statusListRoute)
  | wellKnown : Skip (.cat [.lit "/", .cls notNewline, .lit "well-known/"])

theorem skipPatterns_skip : ∀ r ∈ skipPatterns, Skip r := by
  simp only [skipPatterns, List.forall_mem_cons]
  refine ⟨.cat ?_, .cat ?_, .root, .cat ?_, .lit ?_, .lit ?_, .join, .lit ?_, .statusList, .cat ?_,
    .cat ?_, .cat ?_, .cat ?_, .cat ?_, .lit ?_, .wellKnown, fun r hr => nomatch hr⟩
  all_goals decide +kernel

/-- A route that meets no special rule and no resource of the fallback is not resolved. -/
theorem resolve_eq_none {route : List Piece}
    (hspecial : ∀ route' ∈ routes, meet uuidChar 36 route route' = false)
    (hgeneric : ∀ key ∈ genericResourceMap.map (·.1), ∀ k ∈ sketches route, ∀ k' ∈ shapes key,
      k.meets uuidChar 36 k' = false)
    (htest : (routeRe uuidChar 36 route).test path = true) :
    resolveActionAndResource method path = none := by
  cases hfind : specialRouteRules.find? (·.pattern.test path) with
  | some rule =>
    have hfirst : FirstMatch path rule := hfind
    obtain ⟨route', hroute, htest'⟩ := exists_route hfirst.mem hfirst.test
    have hmeet := meet_of_test (by decide) htest htest'
    cases hmeet.symm.trans (hspecial route' (List.of_mem_zip hroute).1)
  | none =>
    rw [resolve_of_not_match hfind]
    exact fallback_of_apart hgeneric htest

theorem joinRoute_spec :
    (∀ route ∈ routes, meet uuidChar 36 joinRoute route = false) ∧
    ∀ key ∈ genericResourceMap.map (·.1), ∀ k ∈ sketches joinRoute, ∀ k' ∈ shapes key,
      k.meets uuidChar 36 k' = false := by
  decide +kernel

theorem resolve_join (htest : (routeRe uuidChar 36 joinRoute).test path = true) :
    resolveActionAndResource method path = none :=
  resolve_eq_none joinRoute_spec.1 joinRoute_spec.2 htest

theorem isSegment_iff {s : List Char} : IsSegment s ↔ s ≠ [] ∧ NoSlash s :=
  and_congr_right fun _ => noSlash_iff.symm

theorem noSlash_of_uuid (hx : IsUuid x) : ∀ c ∈ x, notSlash c = true :=
  fun c hc => notSlash_of_uuidChar (hx.2 c hc)

theorem statusList_test (hbelow : Below path x u) :
    (routeRe uuidChar 36 statusListRoute).test path = true ↔ IsStatusList u := by
  obtain ⟨hx, hpath⟩ := hbelow
  have hways : ways statusListRoute = [[.lit "/v1/organizations/", .seg,
      .lit "/revocation-profiles/", .seg, .lit "/status-lists/", .seg, .lit "/", .seg]] := rfl
  rw [test_iff, hways]
  constructor
  · rintro ⟨tokens, htokens, t, v, hpath', ht, hv⟩
    obtain rfl := List.mem_singleton.mp htokens
    obtain ⟨_, _, rfl, rfl, y, _, rfl, hy, _, _, rfl, rfl, a, _, rfl, ha, _, _, rfl, rfl,
      b, _, rfl, hb, _, _, rfl, rfl, c, _, rfl, hc, rfl⟩ := ht
    have heq : x ++ '/' :: u = y ++ '/' :: ("revocation-profiles/".toList ++
        (a ++ ("/status-lists/".toList ++ (b ++ '/' :: (c ++ v))))) := by
      simpa [hpath] using hpath'
    obtain ⟨-, hu⟩ := segment_unique (noSlash_of_uuid hx) (noSlash_iff.mp hy.2)
      (endsSegment_slash _) (endsSegment_slash _) heq
    -- A newline at the end belongs to the last segment.
    exact ⟨a, b, c ++ v, isSegment_iff.mpr ha, isSegment_iff.mpr hb,
      isSegment_iff.mpr ⟨by simp [hc.1], hc.2.append (noSlash_atEnd hv)⟩, (List.cons.inj hu).2⟩
  · rintro ⟨a, b, c, ha, hb, hc, rfl⟩
    have hx' : x ≠ [] ∧ NoSlash x := by
      refine ⟨?_, noSlash_iff.mpr (noSlash_of_uuid hx)⟩
      rintro rfl
      exact absurd hx.1 (by decide)
    refine ⟨_, List.mem_singleton_self _, _, [], hpath.trans (List.append_nil _).symm, ?_, .inl rfl⟩
    exact ⟨_, _, rfl, rfl, x, _, rfl, hx', "/revocation-profiles/".toList, _, rfl, rfl,
      a, _, rfl, isSegment_iff.mp ha, _, _, rfl, rfl, b, _, rfl, isSegment_iff.mp hb,
      ['/'], c, rfl, rfl, c, [], (List.append_nil c).symm, isSegment_iff.mp hc, rfl⟩

theorem skipped_of_isStatusList (hbelow : Below path x u) (h : IsStatusList u) :
    skipped path = true :=
  List.any_eq_true.mpr ⟨routeRe uuidChar 36 statusListRoute,
    List.mem_iff_getElem.mpr ⟨8, by decide, rfl⟩, (statusList_test hbelow).mpr h⟩

/-- Of what is resolved below an organization, the skip list exempts the status lists only. -/
theorem skipped_iff (hbelow : Below path x u) (h : resolveActionAndResource method path ≠ none) :
    skipped path = true ↔ IsStatusList u := by
  constructor
  · intro hskipped
    obtain ⟨r, hr, htest⟩ := List.any_eq_true.mp hskipped
    obtain ⟨t, v, hpath, hconsumes⟩ := test_iff_consumes.mp htest
    cases skipPatterns_skip r hr with
    | lit hforeign =>
      refine absurd ?_ (not_prefix_of_foreign hforeign hbelow)
      rw [hpath, Re.consumes_lit.mp hconsumes]
      exact List.prefix_append _ v
    | cat hforeign =>
      obtain ⟨_, s, rfl, hlit, -⟩ := hconsumes
      refine absurd ?_ (not_prefix_of_foreign hforeign hbelow)
      rw [hpath, Re.consumes_lit.mp hlit, List.append_assoc]
      exact List.prefix_append _ (s ++ v)
    | root =>
      obtain ⟨_, _, rfl, hlit, _, _, rfl, ⟨rfl, hv⟩, rfl⟩ := hconsumes
      rw [Re.consumes_lit.mp hlit, hbelow.2] at hpath
      have hend : '/' :: (x ++ '/' :: u) = v := by simpa using hpath
      exact absurd (noSlash_atEnd hv '/' (by simp [← hend])) (by simp)
    | join => exact absurd (resolve_join htest) h
    | statusList => exact (statusList_test hbelow).mp htest
    | wellKnown =>
      obtain ⟨_, _, rfl, hlit, _, _, rfl, ⟨c, -, rfl⟩, _, _, rfl, hlit', rfl⟩ := hconsumes
      rw [Re.consumes_lit.mp hlit, Re.consumes_lit.mp hlit', hbelow.2] at hpath
      simp at hpath
  · exact skipped_of_isStatusList hbelow

def statusListPath : String :=
  "/v1/organizations/11111111-1111-1111-1111-111111111111" ++
    "/revocation-profiles/p/status-lists/l/s"

theorem statusListPath_below : Below statusListPath
    "11111111-1111-1111-1111-111111111111".toList
    "revocation-profiles/p/status-lists/l/s".toList :=
  ⟨by decide, by decide⟩

theorem statusListPath_isStatusList :
    IsStatusList "revocation-profiles/p/status-lists/l/s".toList :=
  ⟨['p'], ['l'], ['s'], by decide, by decide, by decide, rfl⟩

theorem statusListPath_resolve : resolveActionAndResource "POST" statusListPath =
    some ("revocation-profile:create", "revocation-profile") := by
  decide +kernel

/-- A status list of a profile is exempt from the check also where it would be changed. -/
theorem statusList_changed :
    (∃ x u, Below statusListPath x u) ∧
      resolveActionAndResource "POST" statusListPath =
        some ("revocation-profile:create", "revocation-profile") ∧
      skipped statusListPath = true :=
  ⟨⟨_, _, statusListPath_below⟩, statusListPath_resolve,
    skipped_of_isStatusList statusListPath_below statusListPath_isStatusList⟩

theorem statusList_exempt : skipped statusListPath = true :=
  (skipped_iff statusListPath_below (statusListPath_resolve ▸ Option.some_ne_none _)).mpr
    statusListPath_isStatusList

/-! The scopes of an API key. -/

/-- The scopes of which one is enough for the permission. -/
def scopesFor (permission : String) : List String :=
  let (resource, action) := partition ':' permission
  let read : Bool := decide (action ∈ ["view", "read", "list"])
  let write : Bool :=
    decide (action ∈ ["create", "edit", "delete", "write", "activate", "archive", "validate"])
  "admin:full" ::
    if resource = "flow-instance" then ["flows:execute", "flows:write"]
    else if resource = "flow-definition" then
      if read then ["flows:read", "flows:write", "flows:execute"] else ["flows:write"]
    else if resource = "api-key" then []
    else if resource = "verification" then ["flows:execute", "credentials:read"]
    else if resource = "issued-credential" then
      if action ∈ ["issue", "create"] then ["credentials:issue"]
      else if action ∈ ["revoke", "delete"] then ["credentials:revoke"]
      else ["credentials:read", "credentials:issue"]
    else if resource = "issuance" then
      if action = "initiate" then ["credentials:issue"]
      else if action = "revoke" then ["credentials:revoke"]
      else ["credentials:read", "credentials:issue"]
    else
      match resourceScopes.lookup resource with
      | none => []
      | some (readScope, writeScope) =>
        if read then [readScope, writeScope] else if write then [writeScope] else []

/-- The answer is yes when one scope of the list is given. -/
def Covers (scopes : List String) (answer : Bool) (list : List String) : Prop :=
  answer = true ↔ ∃ scope ∈ list, scope ∈ scopes

theorem Covers.ite {c : Prop} [Decidable c] {scopes l l' : List String} {b b' : Bool}
    (h : Covers scopes b l) (h' : Covers scopes b' l') :
    Covers scopes (if c then b else b') (if c then l else l') := by
  split
  · exact h
  · exact h'

theorem Covers.orElse {scopes l : List String} {b : Bool} (scope : String) (h : Covers scopes b l) :
    Covers scopes (if decide (scope ∈ scopes) = true then true else b) (scope :: l) := by
  rw [Covers, List.exists_mem_cons_iff]
  split
  case isTrue hmem => exact iff_of_true rfl (.inl (of_decide_eq_true hmem))
  case isFalse hmem => exact h.trans (or_iff_right (by simpa using hmem)).symm

theorem apiKeyAllowed_covers {permission : String} {scopes : List String} :
    Covers scopes (apiKeyAllowed permission scopes) (scopesFor permission) := by
  simp only [apiKeyAllowed, scopesFor]
  apply Covers.orElse
  cases resourceScopes.lookup (partition ':' permission).1
  all_goals
    dsimp only
    repeat' apply Covers.ite
  all_goals simp [Covers, or_assoc]

theorem exists_of_fallback {result : String × String} (h : fallback method path = some result) :
    ∃ key ∈ genericResourceMap.map (·.1), resolveGenericOrgPermission method key = some result := by
  rw [fallback] at h
  split at h
  case h_1 => exact ⟨_, mem_of_generic (h ▸ Option.some_ne_none result), h⟩
  case h_2 =>
    split at h
    case h_1 => exact ⟨_, mem_of_generic (h ▸ Option.some_ne_none result), h⟩
    case h_2 => cases h

/-- What is resolved stands in a special rule, or comes from the table of the fallback. -/
theorem resolve_cases {result : String × String}
    (h : resolveActionAndResource method path = some result) :
    (∃ rule ∈ specialRouteRules, permission method rule = some result) ∨
      ∃ key ∈ genericResourceMap.map (·.1),
        resolveGenericOrgPermission method key = some result := by
  cases hfind : specialRouteRules.find? (·.pattern.test path) with
  | none =>
    rw [resolve_of_not_match hfind] at h
    exact .inr (exists_of_fallback h)
  | some rule =>
    have hfirst : FirstMatch path rule := hfind
    rw [resolve_of_firstMatch hfirst] at h
    exact .inl ⟨rule, hfirst.mem, h⟩

def changing : List String := ["PUT", "PATCH", "DELETE"]

/-- The permissions for which a scope to read is enough for a change. -/
def readable : List String := ["verification:execute", "verification:delete"]

/-- Of the scopes to read, only that of the credentials is enough, and only for these. -/
def ReadOnlySpec (permission : String) : Prop :=
  (∀ scope ∈ scopesFor permission, endsWith ":read" scope = true →
    scope = "credentials:read" ∧ permission ∈ readable) ∧
  (permission ∈ readable → "credentials:read" ∈ scopesFor permission)

instance {permission : String} : Decidable (ReadOnlySpec permission) :=
  inferInstanceAs (Decidable (_ ∧ _))

/-- The permissions for which the scope to write is not enough: their actions are in neither list of
actions. -/
def unwritable : List String :=
  ["credential-template:deprecate", "credential-template:version", "application:review",
    "application:approve", "application:reject", "role:assign", "team:invite", "team:manage",
    "organization:transfer-ownership"]

def WriteSpec (permission : String) : Prop :=
  ∀ entry ∈ resourceScopes.lookup (partition ':' permission).1,
    (entry.2 ∈ scopesFor permission ↔ permission ∉ unwritable)

instance {permission : String} : Decidable (WriteSpec permission) :=
  inferInstanceAs (Decidable (∀ _ ∈ _, _))

theorem special_scopes : ∀ method ∈ "POST" :: changing, ∀ rule ∈ specialRouteRules,
    ∀ result ∈ permission method rule,
      (method ∈ changing → ReadOnlySpec result.1) ∧ WriteSpec result.1 := by
  decide +kernel

theorem generic_scopes : ∀ method ∈ "POST" :: changing, ∀ key ∈ genericResourceMap.map (·.1),
    ∀ result ∈ resolveGenericOrgPermission method key,
      (method ∈ changing → ReadOnlySpec result.1) ∧ WriteSpec result.1 := by
  decide +kernel

theorem scopes_of_resolve {result : String × String} (hmethod : method ∈ "POST" :: changing)
    (h : resolveActionAndResource method path = some result) :
    (method ∈ changing → ReadOnlySpec result.1) ∧ WriteSpec result.1 := by
  rcases resolve_cases h with ⟨rule, hrule, hpermission⟩ | ⟨key, hkey, hpermission⟩
  · exact special_scopes method hmethod rule hrule result hpermission
  · exact generic_scopes method hmethod key hkey result hpermission

/-- A key with scopes to read only may change nothing but verifications. -/
theorem readOnly_iff {permission resource : String} {scopes : List String}
    (hscopes : ∀ scope ∈ scopes, endsWith ":read" scope = true) (hmethod : method ∈ changing)
    (h : resolveActionAndResource method path = some (permission, resource)) :
    apiKeyAllowed permission scopes = true ↔
      "credentials:read" ∈ scopes ∧ permission ∈ readable := by
  have hspec : ReadOnlySpec permission :=
    (scopes_of_resolve (List.mem_cons_of_mem "POST" hmethod) h).1 hmethod
  refine apiKeyAllowed_covers.trans ?_
  constructor
  · rintro ⟨scope, hfor, hmem⟩
    obtain ⟨rfl, hreadable⟩ := hspec.1 scope hfor (hscopes scope hmem)
    exact ⟨hmem, hreadable⟩
  · rintro ⟨hmem, hreadable⟩
    exact ⟨_, hspec.2 hreadable, hmem⟩

theorem trustPath_spec :
    resolveActionAndResource "PUT" "/v1/trust-profiles/p" =
        some ("trust-profile:edit", "trust-profile") ∧
      (∀ scope ∈ ["trust:read", "credentials:read"], endsWith ":read" scope = true) ∧
      resourceScopes.lookup (partition ':' "trust-profile:edit").1 =
        some ("trust:read", "trust:write") := by
  decide +kernel

theorem readOnly_trust :
    ¬ apiKeyAllowed "trust-profile:edit" ["trust:read", "credentials:read"] = true := by
  intro h
  obtain ⟨hresolve, hscopes, -⟩ := trustPath_spec
  exact absurd ((readOnly_iff hscopes (by decide) hresolve).mp h).2 (by decide)

/-- A key that may read credentials only may delete the verification. -/
theorem verification_deleted :
    resolveActionAndResource "DELETE" "/v1/verification" =
        some ("verification:delete", "verification") ∧
      endsWith ":read" "credentials:read" = true ∧
      apiKeyAllowed "verification:delete" ["credentials:read"] = true := by
  decide +kernel

/-! The scope to write of a resource. -/

/-- One scope is enough for every key that has it exactly when it is in the list. -/
theorem mem_scopesFor_iff {permission scope : String} :
    (∀ scopes, scope ∈ scopes → apiKeyAllowed permission scopes = true) ↔
      scope ∈ scopesFor permission := by
  constructor
  · intro h
    obtain ⟨scope', hfor, hmem⟩ := apiKeyAllowed_covers.mp (h [scope] List.mem_cons_self)
    exact List.mem_singleton.mp hmem ▸ hfor
  · intro hfor scopes hmem
    exact apiKeyAllowed_covers.mpr ⟨scope, hfor, hmem⟩

/-- A key with the scope to write of the resource may do what a mutation needs, but for the listed
permissions. -/
theorem writeScope_iff {permission resource readScope writeScope : String}
    (hmethod : method ∈ "POST" :: changing)
    (h : resolveActionAndResource method path = some (permission, resource))
    (hscopes : resourceScopes.lookup (partition ':' permission).1 = some (readScope, writeScope)) :
    (∀ scopes, writeScope ∈ scopes → apiKeyAllowed permission scopes = true) ↔
      permission ∉ unwritable := by
  have hspec : WriteSpec permission := (scopes_of_resolve hmethod h).2
  exact mem_scopesFor_iff.trans (hspec _ hscopes)

theorem writeScope_trust : apiKeyAllowed "trust-profile:edit" ["trust:write"] = true := by
  obtain ⟨hresolve, -, hscopes⟩ := trustPath_spec
  have hlisted : "trust-profile:edit" ∉ unwritable := by
    decide
  exact (writeScope_iff (by decide) hresolve hscopes).mpr hlisted _ List.mem_cons_self

/-- The scope to invite users does not let a key invite a member. -/
theorem invite_refused :
    let members := "/v1/organizations/11111111-1111-1111-1111-111111111111/members"
    resolveActionAndResource "POST" members = some ("team:invite", "team") ∧
      resourceScopes.lookup "team" = some ("users:read", "users:invite") ∧
      apiKeyAllowed "team:invite" ["users:invite"] = false := by
  decide +kernel

end Marty.Gateway.Exemptions
