import Marty.Gateway.Organization

/-! The organizations that a client supplies, in the query string and in the body, against the one
that its request is checked against. -/

namespace Marty.Gateway.ClientOrganization

open Lib Lib.Text Actions Middleware Decision Organization

variable {app : App} {request : Request} {orgId : String}

/-- All values of the query parameter. -/
def queryOrgIds (request : Request) : List String :=
  (request.queryParams.filter (·.1 = "organization_id")).map (·.2)

/-- What a body that is a JSON object has as its organization. -/
def bodyOrgId (request : Request) : Option Json := request.json.bind (·.get? "organization_id")

/-- The organization of the session or of the API key. -/
def stateOrgId (request : Request) : Option String :=
  firstTruthy [request.state.organizationId, request.state.sessionOrganizationId,
    request.state.apiKeyOrganizationId]

/-- The method and the content type for which the body is read. -/
def ReadsBody (request : Request) : Prop :=
  upper request.method ∈ ["POST", "PUT", "PATCH", "DELETE"] ∧
    lower (strip (partition ';' ((request.headers.lookup "content-type").getD "")).1) ∈
      ["application/json", "application/scim+json"]

instance : Decidable (ReadsBody request) := inferInstanceAs (Decidable (_ ∧ _))

/-- All that the client supplies is this organization. -/
def Supplies (request : Request) (orgId : String) : Prop :=
  (∀ v ∈ queryOrgIds request, v = orgId) ∧ ∀ v ∈ bodyOrgId request, v = .str orgId

/-- The organization of the path is this one; without one in the path, something is looked at that
has it. -/
def Consulted (request : Request) (orgId : String) : Prop :=
  match truthy (extractOrgId request.path) with
  | some pathOrgId => pathOrgId = orgId
  | none => queryOrgIds request ≠ [] ∨ ReadsBody request ∨ stateOrgId request = some orgId

/-- The client supplies nothing, or one organization, in a place that counts. -/
def OneOrganization (request : Request) : Prop :=
  (queryOrgIds request = [] ∧ bodyOrgId request = none) ∨
    ∃ orgId, orgId ≠ "" ∧ Supplies request orgId ∧ Consulted request orgId

/-- The last entry of a key is what the reversed list is looked up at. -/
theorem lookup_reverse (params : List (String × String)) (name : String) :
    params.reverse.lookup name = ((params.filter (·.1 = name)).map (·.2)).getLast? := by
  induction params using List.reverseRecOn with
  | nil => rfl
  | append_singleton params param ih =>
    obtain ⟨key, value⟩ := param
    rw [List.reverse_append, List.filter_append]
    by_cases hname : key = name
    · subst hname
      simp
    · have hbeq : (name == key) = false := by simpa using Ne.symm hname
      simp [List.lookup_cons, hname, hbeq, ih]

theorem queryParam_eq : request.queryParam "organization_id" = (queryOrgIds request).getLast? :=
  lookup_reverse request.queryParams "organization_id"

theorem extractBodyOrgId_eq : extractBodyOrgId request =
    if ReadsBody request then
      request.json.bind fun payload => truthy (payload.getStr? "organization_id")
    else none := by
  unfold extractBodyOrgId
  by_cases hmethod : upper request.method ∈ ["POST", "PUT", "PATCH", "DELETE"]
  · rw [if_pos hmethod]
    exact if_congr (and_iff_right hmethod).symm rfl rfl
  · rw [if_neg hmethod, if_neg fun h => hmethod h.1]

theorem extractBodyOrgId_eq_some {v : String} : extractBodyOrgId request = some v ↔
    ReadsBody request ∧ bodyOrgId request = some (.str v) ∧ v ≠ "" := by
  have asStr_iff (j : Json) : j.asStr = some v ↔ j = .str v := by
    cases j <;> simp [Json.asStr]
  rw [extractBodyOrgId_eq]
  by_cases hbody : ReadsBody request
  · rw [if_pos hbody]
    simp only [bodyOrgId, Json.getStr?, Option.bind_eq_some_iff, truthy_eq_some, asStr_iff,
      exists_eq_right, hbody, true_and]
    tauto
  · simp [hbody]

theorem firstTruthy_cons {s : Option String} {ss : List (Option String)} {t : String} :
    firstTruthy (s :: ss) = some t ↔
      truthy s = some t ∨ truthy s = none ∧ firstTruthy ss = some t := by
  simp only [firstTruthy, Option.or_eq_some_iff]

/-- What a request is resolved to when no owner is looked up. -/
theorem resolveRequestOrgId_of_no_owner {permission : String}
    (hlookup : truthy (extractOrgId request.path) ≠ none ∨
      resolveResourceLookup request.path = none)
    (horg : resolveRequestOrgId app request permission = .ok (some orgId)) :
    truthy (extractOrgId request.path) = some orgId ∨
      truthy (extractOrgId request.path) = none ∧
        firstTruthy [request.queryParam "organization_id", extractBodyOrgId request,
          request.state.organizationId, request.state.sessionOrganizationId,
          request.state.apiKeyOrganizationId] = some orgId := by
  unfold resolveRequestOrgId at horg
  split at horg
  · rename_i pathOrgId hpath
    cases horg
    exact .inl hpath
  · rename_i hpath
    have hnone := hlookup.resolve_left (absurd hpath)
    simp only [lookupResourceOrgId, hnone, bind, Except.bind, truthy_none] at horg
    exact .inr ⟨hpath, Except.ok.inj horg⟩

/-- A request that is forwarded after a check was resolved to the organization of the check. -/
theorem resolved_of_callNext {state : RequestState}
    (hforward : dispatch app request = .callNext (some orgId) state) :
    ∃ permission, resolveRequestOrgId app request permission = .ok (some orgId) := by
  unfold dispatch at hforward
  split at hforward
  · cases hforward
  · split at hforward
    · cases hforward
    · rename_i permission resource hperm
      split at hforward
      · cases hforward
      · rename_i org horg
        split at hforward
        · cases hforward
        · rename_i org' htruthy
          have hchecked := authorize_forwarded_checked (by rw [hforward]; rfl :
            (authorize app request.state org' permission resource).forwarded = true)
          rw [hforward] at hchecked
          obtain rfl := Option.some.inj hchecked
          exact ⟨permission, (truthy_eq_some.mp htruthy).1 ▸ horg⟩

theorem getLast?_eq_of_forall {l : List String} {v : String} (hne : l ≠ [])
    (h : ∀ w ∈ l, w = v) : l.getLast? = some v := by
  rw [List.getLast?_eq_some_getLast hne, h _ (List.getLast_mem hne)]

theorem firstTruthy_of_truthy {v : String} (hne : v ≠ "") (ss : List (Option String)) :
    firstTruthy (some v :: ss) = some v :=
  firstTruthy_cons.mpr (.inl (truthy_eq_some.mpr ⟨rfl, hne⟩))

/-- Without an organization in the path, what is supplied and looked at is what the first place
that has one yields. -/
theorem resolved_eq_of_consulted {v : String} (hne : v ≠ "") (hsupplies : Supplies request v)
    (hconsulted : queryOrgIds request ≠ [] ∨ ReadsBody request ∨ stateOrgId request = some v)
    (hsome : queryOrgIds request ≠ [] ∨ bodyOrgId request ≠ none) :
    firstTruthy [request.queryParam "organization_id", extractBodyOrgId request,
      request.state.organizationId, request.state.sessionOrganizationId,
      request.state.apiKeyOrganizationId] = some v := by
  by_cases hquery : queryOrgIds request = []
  · have hbody : bodyOrgId request = some (.str v) := by
      obtain ⟨json, hjson⟩ := Option.ne_none_iff_exists'.mp (hsome.resolve_left (absurd hquery))
      rw [hjson, hsupplies.2 json hjson]
    refine firstTruthy_cons.mpr (.inr ⟨by simp [queryParam_eq, hquery], ?_⟩)
    by_cases hreads : ReadsBody request
    · rw [extractBodyOrgId_eq_some.mpr ⟨hreads, hbody, hne⟩]
      exact firstTruthy_of_truthy hne _
    · refine firstTruthy_cons.mpr (.inr ⟨by simp [extractBodyOrgId_eq, hreads], ?_⟩)
      exact (hconsulted.resolve_left (absurd hquery)).resolve_left hreads
  · rw [queryParam_eq, getLast?_eq_of_forall hquery hsupplies.1]
    exact firstTruthy_of_truthy hne _

/-- What the client supplies is what is checked, exactly when it is one organization in a place
that counts: of the query string, the body and the session only the first is looked at. -/
theorem supplies_iff {state : RequestState}
    (hforward : dispatch app request = .callNext (some orgId) state)
    (hlookup : truthy (extractOrgId request.path) ≠ none ∨
      resolveResourceLookup request.path = none) :
    Supplies request orgId ↔ OneOrganization request := by
  obtain ⟨permission, horg⟩ := resolved_of_callNext hforward
  have hne := resolveRequestOrgId_ne_empty horg
  have hresolved := resolveRequestOrgId_of_no_owner hlookup horg
  constructor
  · intro hsupplies
    refine .inr ⟨orgId, hne, hsupplies, ?_⟩
    unfold Consulted
    rcases hresolved with hpath | ⟨hpath, hfirst⟩
    · rw [hpath]
    · rw [hpath]
      rcases firstTruthy_cons.mp hfirst with hquery | ⟨-, hfirst⟩
      · left
        intro hempty
        simp [queryParam_eq, hempty] at hquery
      · rcases firstTruthy_cons.mp hfirst with hbody | ⟨-, hstate⟩
        · exact .inr (.inl (extractBodyOrgId_eq_some.mp (truthy_eq_some.mp hbody).1).1)
        · exact .inr (.inr hstate)
  · rintro (⟨hquery, hbody⟩ | ⟨v, hv, hsupplies, hconsulted⟩)
    · simp [Supplies, hquery, hbody]
    · suffices hv : v = orgId ∨ queryOrgIds request = [] ∧ bodyOrgId request = none by
        rcases hv with rfl | ⟨hquery, hbody⟩
        · exact hsupplies
        · simp [Supplies, hquery, hbody]
      unfold Consulted at hconsulted
      rcases hresolved with hpath | ⟨hpath, hfirst⟩
      · rw [hpath] at hconsulted
        exact .inl hconsulted.symm
      · rw [hpath] at hconsulted
        by_cases hsome : queryOrgIds request ≠ [] ∨ bodyOrgId request ≠ none
        · rw [resolved_eq_of_consulted hv hsupplies hconsulted hsome] at hfirst
          exact .inl (Option.some.inj hfirst)
        · push Not at hsome
          exact .inr hsome

/-- A credential template made from the query string of one organization and the body of another. -/
def createTemplate (queryOrg bodyOrg : String) : Request where
  method := "POST"
  path := "/v1/credential-templates"
  queryParams := [("organization_id", queryOrg)]
  headers := [("content-type", "application/json")]
  json := some (.obj [("organization_id", .str bodyOrg)])
  state := { userId := some "alice" }

theorem createTemplate_lookup (queryOrg bodyOrg : String) :
    resolveResourceLookup (createTemplate queryOrg bodyOrg).path = none :=
  have h : resolveResourceLookup "/v1/credential-templates" = none := by decide +kernel
  h

theorem createTemplate_forwarded {queryOrg : String} (bodyOrg : String) (hne : queryOrg ≠ "") :
    ∃ state, dispatch (ownerApp "credential-template:create") (createTemplate queryOrg bodyOrg) =
      .callNext (some queryOrg) state := by
  have hskip : skipped "/v1/credential-templates" = false := by decide +kernel
  have hperm : resolveActionAndResource "POST" "/v1/credential-templates" =
      some ("credential-template:create", "credential-template") := by decide +kernel
  have horg : extractOrgId "/v1/credential-templates" = none := by decide +kernel
  have hd := dispatch_query_organization (ownerApp "credential-template:create")
    (createTemplate queryOrg bodyOrg) hskip hperm horg (createTemplate_lookup queryOrg bodyOrg)
    rfl hne
  rw [hd]
  rcases authorize_cases (ownerApp "credential-template:create")
    (createTemplate queryOrg bodyOrg).state queryOrg "credential-template:create"
    "credential-template" with ⟨state, hs, -⟩ | ⟨_, _, _, -, -, -, -, hno⟩
  · exact ⟨state, hs⟩
  · exact absurd (ownerApp_may "alice" queryOrg (by simp [createTemplate]) rfl) (hno _)

/-- A member of `org-a` has a template made in `org-b`: the body is not looked at. -/
theorem body_unchecked :
    (∃ state, dispatch (ownerApp "credential-template:create") (createTemplate "org-a" "org-b") =
      .callNext (some "org-a") state) ∧
    resolveResourceLookup (createTemplate "org-a" "org-b").path = none ∧
    bodyOrgId (createTemplate "org-a" "org-b") = some (.str "org-b") ∧
    ¬ Supplies (createTemplate "org-a" "org-b") "org-a" := by
  refine ⟨createTemplate_forwarded "org-b" (by decide), createTemplate_lookup _ _, rfl, ?_⟩
  intro h
  have hbody := h.2 (.str "org-b") rfl
  simp at hbody

theorem supplies_createTemplate : ∃ state,
    dispatch (ownerApp "credential-template:create") (createTemplate "org-a" "org-a") =
      .callNext (some "org-a") state ∧
    (Supplies (createTemplate "org-a" "org-a") "org-a" ↔
      OneOrganization (createTemplate "org-a" "org-a")) := by
  obtain ⟨state, h⟩ := createTemplate_forwarded "org-a" (show "org-a" ≠ "" by decide)
  exact ⟨state, h, supplies_iff h (.inr (createTemplate_lookup _ _))⟩

end Marty.Gateway.ClientOrganization
