import Marty.Gateway.Decision
import Marty.Gateway.Paths

/-! The organization a request is checked against: named by the path, answered by the owner
service, or taken from what the client and the session say. -/

namespace Marty.Gateway.Organization

open Lib.Regex Lib.Text Actions Middleware Decision Paths

theorem authorize_checked {app : App} {state : RequestState} {orgId permission resource c : String}
    (h : (authorize app state orgId permission resource).checked = some c) : c = orgId := by
  rcases authorize_cases app state orgId permission resource with ⟨s, hs, -⟩ | ⟨_, _, _, hs, hc, -⟩
  · rw [hs] at h
    exact (Option.some.inj h).symm
  · rw [hs] at h
    exact hc c h

theorem authorize_forwarded_checked {app : App} {state : RequestState}
    {orgId permission resource : String}
    (h : (authorize app state orgId permission resource).forwarded = true) :
    (authorize app state orgId permission resource).checked = some orgId := by
  rcases authorize_cases app state orgId permission resource with ⟨s, hs, -⟩ | ⟨_, _, _, hs, -⟩
  · rw [hs]; rfl
  · rw [hs] at h
    simp [Outcome.forwarded] at h

/-- The owner service answered with a status below 400 and a non-empty organization. -/
inductive OwnerAnswer (app : App) (request : Request) (permission : String) : String → Prop
  | intro {serviceName lookupPath serviceUrl raw : String}
      {getServiceUrl : String → Option (Option String)}
      {httpGet : String → List (String × String) → Option HttpResponse}
      {response : HttpResponse} {payload : Lib.Json} :
      resolveResourceLookup request.path = some (serviceName, lookupPath) →
      app.getServiceUrl = some getServiceUrl → app.httpGet = some httpGet →
      getServiceUrl serviceName = some (some serviceUrl) →
      httpGet (serviceUrl ++ lookupPath) (forwardHeaders app request serviceName ++
        [("X-Required-Permission", permission)]) = some response →
      response.statusCode < 400 → response.json = some payload →
      payload.getStr? "organization_id" = some raw → strip raw ≠ "" →
      OwnerAnswer app request permission (strip raw)

/-- The statuses with which a failed owner lookup is answered. -/
def lookupStatuses : List Int := [403, 404, 502, 503]

theorem ownerOfResponse_cases (response : HttpResponse) :
    (∃ payload raw, response.statusCode < 400 ∧ response.json = some payload ∧
      payload.getStr? "organization_id" = some raw ∧ strip raw ≠ "" ∧
      ownerOfResponse response = .ok (strip raw)) ∨
    (∃ exc, ownerOfResponse response = .error exc ∧ exc.statusCode ∈ lookupStatuses) := by
  unfold ownerOfResponse
  split
  · exact .inr ⟨_, rfl, by decide⟩
  · split
    · exact .inr ⟨_, rfl, by decide⟩
    · split
      · exact .inr ⟨_, rfl, by decide⟩
      · rename_i hlt
        split
        · exact .inr ⟨_, rfl, by decide⟩
        · rename_i payload hjson
          dsimp only
          split
          · exact .inr ⟨_, rfl, by decide⟩
          · rename_i hne
            cases hraw : payload.getStr? "organization_id" with
            | none => simp [hraw] at hne
            | some raw =>
              have hne : strip raw ≠ "" := by simpa [hraw] using hne
              exact .inl ⟨payload, raw, by omega, hjson, hraw, hne, by simp⟩

theorem lookupResourceOrgId_cases (app : App) {request : Request} (permission : String)
    (hlookup : resolveResourceLookup request.path ≠ none) :
    (∃ orgId, lookupResourceOrgId app request permission = .ok (some orgId) ∧
      OwnerAnswer app request permission orgId) ∨
    (∃ exc, lookupResourceOrgId app request permission = .error exc ∧
      exc.statusCode ∈ lookupStatuses) := by
  obtain ⟨⟨serviceName, lookupPath⟩, hl⟩ := Option.ne_none_iff_exists'.mp hlookup
  unfold lookupResourceOrgId
  rw [hl]
  dsimp only
  split
  · rename_i getServiceUrl httpGet hurl hget
    split
    · exact .inr ⟨_, rfl, by decide⟩
    · rename_i serviceUrl htruthy
      have hserviceUrl : getServiceUrl serviceName = some (some serviceUrl) := by
        have h := (truthy_eq_some.mp htruthy).1
        cases hg : getServiceUrl serviceName with
        | none => simp [hg] at h
        | some url => simpa [hg] using h
      split
      · exact .inr ⟨_, rfl, by decide⟩
      · rename_i response hresponse
        rcases ownerOfResponse_cases response with
          ⟨payload, raw, hlt, hjson, hraw, hne, hok⟩ | ⟨exc, herr, hstatus⟩
        · refine .inl ⟨strip raw, by rw [hok]; rfl, ?_⟩
          exact .intro hl hurl hget hserviceUrl hresponse hlt hjson hraw hne
        · exact .inr ⟨exc, by rw [herr]; rfl, hstatus⟩
  · exact .inr ⟨_, rfl, by decide⟩

theorem OwnerAnswer.ne_empty {app : App} {request : Request} {permission orgId : String}
    (h : OwnerAnswer app request permission orgId) : orgId ≠ "" := by
  cases h with | intro _ _ _ _ _ _ _ _ hne => exact hne

/-- The owner lookup fails closed: it yields the organization of the answer, or the request is
answered without being forwarded. -/
theorem dispatch_owner_lookup (app : App) {request : Request} {permission resource : String}
    (hskip : skipped request.path = false)
    (hperm : resolveActionAndResource request.method request.path = some (permission, resource))
    (horg : extractOrgId request.path = none)
    (hlookup : resolveResourceLookup request.path ≠ none) :
    (∃ orgId, OwnerAnswer app request permission orgId ∧
      dispatch app request = authorize app request.state orgId permission resource) ∨
    (∃ status detail, status ∈ lookupStatuses ∧
      dispatch app request = .respond none status detail request.state) := by
  rcases lookupResourceOrgId_cases app permission hlookup with
    ⟨orgId, hl, hanswer⟩ | ⟨exc, hl, hstatus⟩
  · refine .inl ⟨orgId, hanswer, dispatch_eq_authorize hskip hperm ?_⟩
    have ht : truthy (some orgId) = some orgId := truthy_eq_some.mpr ⟨rfl, hanswer.ne_empty⟩
    simp only [resolveRequestOrgId, horg, hl, truthy_none, bind, Except.bind, ht]
    rfl
  · refine .inr ⟨exc.statusCode, exc.detail, hstatus, ?_⟩
    simp only [dispatch, hskip, hperm, resolveRequestOrgId, horg, hl, truthy_none, bind,
      Except.bind, Bool.false_eq_true, if_false]

/-- An owner service that answers every lookup with the given organization. -/
def lookupApp (raw : String) : App where
  getServiceUrl := some fun _ => some (some "http://owner")
  httpGet := some fun _ _ => some ⟨200, some (.obj [("organization_id", .str raw)])⟩

def readPolicy : Request where
  method := "GET"
  path := "/v1/presentation-policies/policy-b"

theorem readPolicy_spec : skipped readPolicy.path = false ∧
    resolveActionAndResource readPolicy.method readPolicy.path =
      some ("presentation-policy:view", "presentation-policy") ∧
    extractOrgId readPolicy.path = none ∧ resolveResourceLookup readPolicy.path ≠ none := by
  decide +kernel

/-- A path that names no organization and has no owner lookup is checked against the
organization the client asks for in the query string. -/
theorem dispatch_query_organization (app : App) (request : Request)
    {permission resource orgId : String}
    (hskip : skipped request.path = false)
    (hperm : resolveActionAndResource request.method request.path = some (permission, resource))
    (horg : extractOrgId request.path = none) (hlookup : resolveResourceLookup request.path = none)
    (hquery : request.queryParam "organization_id" = some orgId) (hne : orgId ≠ "") :
    dispatch app request = authorize app request.state orgId permission resource := by
  apply dispatch_eq_authorize hskip hperm
  have ht : truthy (some orgId) = some orgId := truthy_eq_some.mpr ⟨rfl, hne⟩
  simp only [resolveRequestOrgId, horg, lookupResourceOrgId, hlookup, truthy_none, bind,
    Except.bind, firstTruthy, hquery, ht, Option.some_or]
  rfl

/-- A request of a signed-in user that names an organization in the query string. -/
def queryRequest (method path orgId : String) : Request where
  method := method
  path := path
  queryParams := [("organization_id", orgId)]
  state := { userId := some "alice" }

theorem queryRequest_forwarded (orgId : String) {method path permission resource : String}
    (hskip : skipped path = false)
    (hperm : resolveActionAndResource method path = some (permission, resource))
    (horg : extractOrgId path = none) (hlookup : resolveResourceLookup path = none)
    (hne : orgId ≠ "") :
    (dispatch (ownerApp permission) (queryRequest method path orgId)).forwarded = true ∧
    (dispatch (ownerApp permission) (queryRequest method path orgId)).checked =
      some orgId := by
  have hd := dispatch_query_organization (ownerApp permission) (queryRequest method path orgId)
    hskip hperm horg hlookup rfl hne
  have hf : (dispatch (ownerApp permission) (queryRequest method path orgId)).forwarded =
      true := by
    rw [hd]
    rcases authorize_cases (ownerApp permission)
      (queryRequest method path orgId).state orgId permission resource with
      ⟨s, hs, -⟩ | ⟨_, _, _, -, -, -, -, hno⟩
    · rw [hs]; rfl
    · refine absurd (ownerApp_may "alice" orgId ?_ rfl) (hno _)
      simp [queryRequest]
  refine ⟨hf, ?_⟩
  rw [hd] at hf ⊢
  exact authorize_forwarded_checked hf

/-! Paths below an organization. -/

/-- Every forwarded request with this method and path was checked against `orgId`. -/
def BoundTo (method path orgId : String) : Prop :=
  ∀ app request, request.method = method → request.path = path →
    (dispatch app request).forwarded = true → (dispatch app request).checked = some orgId

/-- The organization segment binds the check exactly when it has the shape the extractor
knows: the applicant routes accept any segment. -/
theorem organization_path_binds_iff {method path permission resource segment rest : String}
    (hpath : path = "/v1/organizations/" ++ segment ++ "/" ++ rest)
    (hseg : IsSegment segment.toList) (hskip : skipped path = false)
    (hperm : resolveActionAndResource method path = some (permission, resource)) :
    BoundTo method path segment ↔ IsUuid segment.toList := by
  have hp : path.toList =
      "/v1/organizations/".toList ++ (segment.toList ++ '/' :: rest.toList) := by
    simp [hpath]
  constructor
  · intro hbound
    by_contra hn
    have horg : extractOrgId path = none := extractOrgId_not_uuid hseg.2 hn hp
    have hp' : path.toList = "/v1/".toList ++
        ("organizations".toList ++ '/' :: (segment.toList ++ '/' :: rest.toList)) := by
      simp [hpath]
    have hlookup : resolveResourceLookup path = none := by
      have horganizations : IsSegment "organizations".toList := by decide
      refine resolveResourceLookup_table horganizations hseg (endsSegment_slash _) hp'
        (by decide) (fun kind _ h => ?_) (by decide)
      exact absurd (h.integrations horganizations.2 hp') (by decide)
    have hne : segment ++ "x" ≠ segment := by
      intro h
      simpa using congrArg String.length h
    have hq := queryRequest_forwarded (segment ++ "x") hskip hperm horg hlookup
      (by intro h; simpa using congrArg String.length h)
    have := hbound _ (queryRequest method path (segment ++ "x")) rfl rfl hq.1
    rw [hq.2] at this
    exact hne (Option.some.inj this)
  · rintro huuid app request rfl rfl hf
    have horg := extractOrgId_uuid huuid (endsSegment_slash _) hp
    rw [String.ofList_toList] at horg
    have hne : segment ≠ "" := by
      rintro rfl
      exact hseg.1 rfl
    have hres : resolveRequestOrgId app request permission = .ok (some segment) := by
      simp [resolveRequestOrgId, horg, truthy_eq_some.mpr ⟨rfl, hne⟩]
    rw [dispatch_eq_authorize hskip hperm hres] at hf ⊢
    exact authorize_forwarded_checked hf

theorem organization_path_binds_uuid :
    BoundTo listRoles.method listRoles.path "00000000-0000-0000-0000-000000000001" :=
  have hpath : listRoles.path =
      "/v1/organizations/" ++ "00000000-0000-0000-0000-000000000001" ++ "/" ++ "roles" := by decide
  (organization_path_binds_iff hpath (by decide) listRoles_spec.1
    listRoles_spec.2.1).mpr (by decide)

theorem acmeApplicants_spec : skipped "/v1/organizations/ACME/applicants" = false ∧
    resolveActionAndResource "GET" "/v1/organizations/ACME/applicants" =
      some ("application:review", "application") ∧
    extractOrgId "/v1/organizations/ACME/applicants" = none ∧
    resolveResourceLookup "/v1/organizations/ACME/applicants" = none := by
  decide +kernel

/-- The applicants of `ACME` are authorized against the organization of the query string. -/
theorem acme_applicants_checked_elsewhere :
    skipped "/v1/organizations/ACME/applicants" = false ∧
    resolveActionAndResource "GET" "/v1/organizations/ACME/applicants" =
      some ("application:review", "application") ∧
    (dispatch (ownerApp "application:review")
      (queryRequest "GET" "/v1/organizations/ACME/applicants" "org-b")).forwarded = true ∧
    (dispatch (ownerApp "application:review")
      (queryRequest "GET" "/v1/organizations/ACME/applicants" "org-b")).checked = some "org-b" := by
  obtain ⟨hskip, hperm, horg, hlookup⟩ := acmeApplicants_spec
  exact ⟨hskip, hperm, queryRequest_forwarded "org-b" hskip hperm horg hlookup (by decide)⟩

/-! Paths of a resource instance. -/

/-- The segments below which a path names a resource by its identifier. -/
def instanceSegments : List String :=
  genericResourceMap.map (·.1) ++ ["issuance", "issued-credentials"]

/-- Every request with this method and path is checked against the owner of the resource or
not forwarded. -/
def OwnerBound (method path permission resource : String) : Prop :=
  ∀ app request, request.method = method → request.path = path →
    (∃ orgId, OwnerAnswer app request permission orgId ∧
      dispatch app request = authorize app request.state orgId permission resource) ∨
    (dispatch app request).forwarded = false

/-- The resource kinds the lookup tables cover. -/
def HasOwnerLookup (segment path : String) : Prop :=
  segment ∈ resourceLookupMap.map (·.1) ∨ ∃ kind ∈ canvasKinds, NamesCanvas path.toList kind

theorem instanceSegments_spec :
    ∀ s ∈ instanceSegments, IsSegment s.toList ∧ s.toList ≠ "organizations".toList := by
  decide +kernel

theorem lookup_eq_none_iff {segment : String} :
    resourceLookupMap.lookup segment = none ↔ segment ∉ resourceLookupMap.map (·.1) := by
  rw [List.lookup_eq_none_iff]
  constructor
  · intro h hmem
    obtain ⟨entry, hentry, rfl⟩ := List.mem_map.mp hmem
    simpa using h entry hentry
  · intro h entry hentry
    have hne : segment ≠ entry.1 := fun he => h (he ▸ List.mem_map_of_mem hentry)
    simpa using hne

/-- An instance path is bound to the owner of the resource exactly when a lookup table covers
it; the others fall through to the organization the client names. -/
theorem instance_path_owner_bound_iff {method path permission resource segment id tail : String}
    (hpath : path = "/v1/" ++ segment ++ "/" ++ id ++ tail) (hsegment : segment ∈ instanceSegments)
    (hid : IsSegment id.toList) (htail : EndsSegment tail.toList)
    (hreserved : ∀ l, resourceLookupMap.lookup segment = some l → id ∉ l.reservedSegments)
    (hskip : skipped path = false)
    (hperm : resolveActionAndResource method path = some (permission, resource)) :
    OwnerBound method path permission resource ↔ HasOwnerLookup segment path := by
  obtain ⟨hseg, hne⟩ := instanceSegments_spec segment hsegment
  have hp : path.toList =
      "/v1/".toList ++ (segment.toList ++ '/' :: (id.toList ++ tail.toList)) := by
    simp [hpath]
  have horg : extractOrgId path = none := extractOrgId_other hseg.2 hne hp
  constructor
  · intro hbound
    by_contra hn
    simp only [HasOwnerLookup, not_or, not_exists, not_and] at hn
    obtain ⟨htable, hcanvas⟩ := hn
    have hlookup : resolveResourceLookup path = none := by
      refine resolveResourceLookup_table hseg hid htail hp ?_ hcanvas ?_
      · intro h
        obtain rfl : segment = "flows" := String.toList_injective h
        exact htable (by decide)
      · rw [String.ofList_toList]
        exact lookup_eq_none_iff.mpr htable
    have hq := queryRequest_forwarded "client" hskip hperm horg hlookup (by decide)
    rcases hbound _ (queryRequest method path "client") rfl rfl with ⟨o, ho, -⟩ | hf
    · cases ho with
      | intro hl =>
        rw [show (queryRequest method path "client").path = path from rfl, hlookup] at hl
        simp at hl
    · rw [hq.1] at hf
      simp at hf
  · intro hcovered
    have hlookup : resolveResourceLookup path ≠ none := by
      rcases hcovered with htable | ⟨kind, hk, hc⟩
      · cases hl : resourceLookupMap.lookup segment with
        | none => exact absurd htable (lookup_eq_none_iff.mp hl)
        | some l =>
          refine resolveResourceLookup_ne_none (l := l) hseg hid htail hp ?_ ?_
          · rw [String.ofList_toList]; exact hl
          · rw [String.ofList_toList]; exact hreserved l hl
      · exact resolveResourceLookup_canvas hk hc
    rintro app request rfl rfl
    rcases dispatch_owner_lookup app hskip hperm horg hlookup with h | ⟨_, _, -, h⟩
    · exact .inl h
    · exact .inr (by rw [h]; rfl)

theorem instance_path_owner_bound_policy :
    OwnerBound readPolicy.method readPolicy.path "presentation-policy:view"
      "presentation-policy" :=
  have hpath : readPolicy.path = "/v1/" ++ "presentation-policies" ++ "/" ++ "policy-b" ++ "" := by
    decide
  (instance_path_owner_bound_iff hpath (by decide) (by decide) endsSegment_nil (by
      intro l hl
      obtain rfl := Option.some.inj hl
      decide) readPolicy_spec.1 readPolicy_spec.2.1).mpr (.inl (by decide))

theorem flowInstance_spec : skipped "/v1/flow-instances/abc" = false ∧
    resolveActionAndResource "GET" "/v1/flow-instances/abc" =
      some ("flow-instance:view", "flow-instance") ∧
    extractOrgId "/v1/flow-instances/abc" = none ∧
    resolveResourceLookup "/v1/flow-instances/abc" = none := by
  decide +kernel

/-- A flow instance is authorized against the organization of the query string. -/
theorem flow_instance_checked_against_query :
    "flow-instances" ∈ instanceSegments ∧ skipped "/v1/flow-instances/abc" = false ∧
    resolveActionAndResource "GET" "/v1/flow-instances/abc" =
      some ("flow-instance:view", "flow-instance") ∧
    (dispatch (ownerApp "flow-instance:view")
      (queryRequest "GET" "/v1/flow-instances/abc" "org-b")).forwarded = true ∧
    (dispatch (ownerApp "flow-instance:view")
      (queryRequest "GET" "/v1/flow-instances/abc" "org-b")).checked =
      (queryRequest "GET" "/v1/flow-instances/abc" "org-b").queryParam "organization_id" := by
  obtain ⟨hskip, hperm, horg, hlookup⟩ := flowInstance_spec
  exact ⟨by decide, hskip, hperm, queryRequest_forwarded "org-b" hskip hperm horg hlookup
    (by decide)⟩

end Marty.Gateway.Organization
