import Marty.Gateway.Middleware

/-! The forwarding decision of `dispatch`: who may pass once the permission and the
organization are known, with which state, and what a refusal looks like. -/

namespace Marty.Gateway.Decision

open Lib.Text Actions Middleware

/-- An API key of the organization whose scopes cover the permission. -/
def ApiKeyMay (state : RequestState) (orgId requiredPermission : String) : Prop :=
  state.authSource = some "api_key" ∧ state.apiKeyOrganizationId = some orgId ∧
    apiKeyAllowed requiredPermission (state.apiKeyScopes.getD []) = true

/-- What `get_membership` answers for the user of the request. -/
def MembershipAnswer (app : App) (state : RequestState) (orgId : String)
    (answer : Except MembershipError (Option OrganizationMembership)) : Prop :=
  ∃ userId getMembership, truthy state.userId = some userId ∧
    app.getMembership = some getMembership ∧ getMembership userId orgId = answer

/-- A user whose active membership grants the permission; ownership is transferred by the
owner only. -/
def MemberMay (app : App) (state : RequestState) (orgId requiredPermission : String)
    (m : OrganizationMembership) : Prop :=
  state.authSource ≠ some "api_key" ∧ MembershipAnswer app state orgId (.ok (some m)) ∧
    m.isActive = true ∧
    (requiredPermission = "organization:transfer-ownership" → m.isOwner = true) ∧
    (requiredPermission ≠ "organization:transfer-ownership" →
      requiredPermission ∈ m.permissions.elems)

theorem membershipAllows_iff {m : OrganizationMembership} {p : String} :
    membershipAllows m p = true ↔
      (p = "organization:transfer-ownership" → m.isOwner = true) ∧
      (p ≠ "organization:transfer-ownership" → p ∈ m.permissions.elems) := by
  by_cases hp : p = "organization:transfer-ownership"
  · simp [membershipAllows, hp]
  · simp [membershipAllows, hp, OrganizationMembership.hasPermission]

/-- The state with which a principal passes. -/
inductive Passes (app : App) (state : RequestState) (orgId permission resource : String) :
    RequestState → Prop
  | apiKey : ApiKeyMay state orgId permission →
      Passes app state orgId permission resource
        (authorizedState state orgId permission resource ["api_key"]
          (sorted (state.apiKeyScopes.getD [])))
  | member {m : OrganizationMembership} : MemberMay app state orgId permission m →
      Passes app state orgId permission resource
        (authorizedState state orgId permission resource (sorted m.roleNames.elems)
          (sorted m.permissions.elems))

/-- The status of a refusal. -/
inductive Refuses (app : App) (state : RequestState) (orgId : String) : Int → Prop
  | unauthenticated : Refuses app state orgId 401
  | forbidden : Refuses app state orgId 403
  | internal : Refuses app state orgId 500
  | membership {exc : HTTPException} :
      MembershipAnswer app state orgId (.error (.http exc)) → Refuses app state orgId exc.statusCode

theorem authorizeApiKey_cases {state : RequestState} (app : App)
    (orgId permission resource : String) (hs : state.authSource = some "api_key") :
    (∃ state', authorizeApiKey state orgId permission resource = .callNext (some orgId) state' ∧
      Passes app state orgId permission resource state') ∨
    (∃ detail, authorizeApiKey state orgId permission resource =
      .respond (some orgId) 403 detail state ∧ ¬ ApiKeyMay state orgId permission) := by
  unfold authorizeApiKey
  split
  · rename_i hne
    exact .inr ⟨_, rfl, fun h => hne h.2.1⟩
  · rename_i heq
    dsimp only
    split
    · rename_i hallowed
      exact .inl ⟨_, rfl, .apiKey ⟨hs, by simpa using heq, hallowed⟩⟩
    · rename_i hdenied
      exact .inr ⟨_, rfl, fun h => hdenied h.2.2⟩

theorem MembershipAnswer.unique {app : App} {state : RequestState} {orgId : String}
    {a b : Except MembershipError (Option OrganizationMembership)}
    (ha : MembershipAnswer app state orgId a) (hb : MembershipAnswer app state orgId b) :
    a = b := by
  obtain ⟨u, get, hu, hget, rfl⟩ := ha
  obtain ⟨u', get', hu', hget', rfl⟩ := hb
  obtain rfl := Option.some.inj (hu.symm.trans hu')
  obtain rfl := Option.some.inj (hget.symm.trans hget')
  rfl

theorem authorizeMember_cases {app : App} {state : RequestState}
    (orgId permission resource : String) (hs : state.authSource ≠ some "api_key") :
    (∃ state', authorizeMember app state orgId permission resource =
      .callNext (some orgId) state' ∧ Passes app state orgId permission resource state') ∨
    (∃ checked status detail, authorizeMember app state orgId permission resource =
      .respond checked status detail state ∧ (∀ c ∈ checked, c = orgId) ∧
      Refuses app state orgId status ∧ ∀ m, ¬ MemberMay app state orgId permission m) := by
  unfold authorizeMember
  split
  · rename_i hu
    refine .inr ⟨_, _, _, rfl, by simp, .unauthenticated, ?_⟩
    rintro m ⟨-, ⟨u, get, hu', -⟩, -⟩
    rw [hu] at hu'
    simp at hu'
  · rename_i u hu
    split
    · rename_i hget
      refine .inr ⟨_, _, _, rfl, by simp, .internal, ?_⟩
      rintro m ⟨-, ⟨u, get, -, hget', -⟩, -⟩
      rw [hget] at hget'
      simp at hget'
    · rename_i get hget
      -- from here on the client has answered, so any other answer is excluded
      have answer : MembershipAnswer app state orgId (get u orgId) := ⟨u, get, hu, hget, rfl⟩
      have refuses {a} (ha : get u orgId = a)
          (hno : ∀ m, a = .ok (some m) →
            ¬ (m.isActive = true ∧ membershipAllows m permission = true)) :
          ∀ m, ¬ MemberMay app state orgId permission m := by
        rintro m ⟨-, hm, hact, hperm⟩
        exact hno m (ha ▸ answer.unique hm) ⟨hact, membershipAllows_iff.mpr hperm⟩
      split
      · rename_i exc ha
        exact .inr ⟨_, _, _, rfl, by simp, .membership (ha ▸ answer), refuses ha (by simp)⟩
      · rename_i ha
        exact .inr ⟨_, _, _, rfl, by simp, .internal, refuses ha (by simp)⟩
      · rename_i ha
        exact .inr ⟨_, _, _, rfl, by simp, .forbidden, refuses ha (by simp)⟩
      · rename_i m ha
        split
        · rename_i hact
          split
          · rename_i hallowed
            exact .inl ⟨_, rfl, .member ⟨hs, ha ▸ answer, hact, membershipAllows_iff.mp hallowed⟩⟩
          · rename_i hdenied
            exact .inr ⟨_, _, _, rfl, by simp, .forbidden,
              refuses ha (by rintro m' ⟨⟩ h; exact hdenied h.2)⟩
        · rename_i hact
          exact .inr ⟨_, _, _, rfl, by simp, .forbidden,
            refuses ha (by rintro m' ⟨⟩ h; exact hact h.1)⟩

/-- The check either lets a principal that may pass through or refuses one that may not. -/
theorem authorize_cases (app : App) (state : RequestState) (orgId permission resource : String) :
    (∃ state', authorize app state orgId permission resource = .callNext (some orgId) state' ∧
      Passes app state orgId permission resource state') ∨
    (∃ checked status detail, authorize app state orgId permission resource =
      .respond checked status detail state ∧ (∀ c ∈ checked, c = orgId) ∧
      Refuses app state orgId status ∧ ¬ ApiKeyMay state orgId permission ∧
      ∀ m, ¬ MemberMay app state orgId permission m) := by
  unfold authorize
  split
  · rename_i hs
    rcases authorizeApiKey_cases app orgId permission resource hs with h | ⟨detail, h, hno⟩
    · exact .inl h
    · exact .inr ⟨_, _, detail, h, by simp, .forbidden, hno, fun m hm => hm.1 hs⟩
  · rename_i hs
    rcases authorizeMember_cases orgId permission resource hs with h | ⟨c, s, d, h, hc, hr, hno⟩
    · exact .inl h
    · exact .inr ⟨c, s, d, h, hc, hr, fun hk => hs hk.1, hno⟩

/-- The organization that is resolved is never the empty string. -/
theorem resolveRequestOrgId_ne_empty {app : App} {request : Request} {permission orgId : String}
    (h : resolveRequestOrgId app request permission = .ok (some orgId)) : orgId ≠ "" := by
  unfold resolveRequestOrgId at h
  split at h
  · rename_i o ho
    cases h
    exact (truthy_eq_some.mp ho).2
  · cases hl : lookupResourceOrgId app request permission with
    | error exc => rw [hl] at h; cases h
    | ok owner =>
      rw [hl] at h
      simp only [bind, Except.bind] at h
      split at h
      · rename_i o ho
        cases h
        exact (truthy_eq_some.mp ho).2
      · exact firstTruthy_ne_empty (Except.ok.inj h)

theorem dispatch_eq_authorize {app : App} {request : Request} {permission resource orgId : String}
    (hskip : skipped request.path = false)
    (hperm : resolveActionAndResource request.method request.path = some (permission, resource))
    (horg : resolveRequestOrgId app request permission = .ok (some orgId)) :
    dispatch app request = authorize app request.state orgId permission resource := by
  have hne : truthy (some orgId) = some orgId :=
    truthy_eq_some.mpr ⟨rfl, resolveRequestOrgId_ne_empty horg⟩
  simp only [dispatch, hskip, hperm, horg, hne, Bool.false_eq_true, if_false]

/-- A request is forwarded exactly when its principal may do what it asks for, with the
authorized state; a refusal leaves the state as it was. -/
theorem dispatch_forwards_iff {app : App} {request : Request} {permission resource orgId : String}
    (hskip : skipped request.path = false)
    (hperm : resolveActionAndResource request.method request.path = some (permission, resource))
    (horg : resolveRequestOrgId app request permission = .ok (some orgId)) :
    ((dispatch app request).forwarded = true ↔
      ApiKeyMay request.state orgId permission ∨
        ∃ m, MemberMay app request.state orgId permission m) ∧
    (∀ checked state, dispatch app request = .callNext checked state →
      checked = some orgId ∧ Passes app request.state orgId permission resource state) ∧
    (∀ checked status detail state, dispatch app request = .respond checked status detail state →
      state = request.state ∧ Refuses app request.state orgId status) := by
  rw [dispatch_eq_authorize hskip hperm horg]
  rcases authorize_cases app request.state orgId permission resource with
    ⟨state', h, hpass⟩ | ⟨c, s, d, h, -, hrefuse, hkey, hmember⟩
  · rw [h]
    refine ⟨⟨fun _ => ?_, fun _ => rfl⟩, ?_, ?_⟩
    · cases hpass with
      | apiKey hk => exact .inl hk
      | member hm => exact .inr ⟨_, hm⟩
    · rintro checked state ⟨⟩
      exact ⟨rfl, hpass⟩
    · rintro _ _ _ _ ⟨⟩
  · rw [h]
    refine ⟨⟨fun hf => by simp [Outcome.forwarded] at hf, ?_⟩, ?_, ?_⟩
    · rintro (hk | ⟨m, hm⟩)
      · exact absurd hk hkey
      · exact absurd hm (hmember m)
    · rintro _ _ ⟨⟩
    · rintro _ _ _ _ ⟨⟩
      exact ⟨rfl, hrefuse⟩

def activeOwner (permission userId organizationId : String) : OrganizationMembership :=
  { userId, organizationId, status := "active", permissions := StrSet.ofList [permission],
    isOwner := true }

/-- A client for which every user is an owner with one permission. -/
def ownerApp (permission : String) : App where
  getMembership := some fun userId organizationId =>
    .ok (some (activeOwner permission userId organizationId))

theorem ownerApp_may {state : RequestState} {permission : String} (userId orgId : String)
    (hsource : state.authSource ≠ some "api_key") (huser : truthy state.userId = some userId) :
    MemberMay (ownerApp permission) state orgId permission
      (activeOwner permission userId orgId) := by
  refine ⟨hsource, ⟨userId, _, huser, rfl, rfl⟩, ?_, fun _ => rfl, fun _ => ?_⟩
  · rfl
  · simp [activeOwner, StrSet.ofList]

def listRoles : Request where
  method := "GET"
  path := "/v1/organizations/00000000-0000-0000-0000-000000000001/roles"
  state := { userId := some "alice" }

theorem listRoles_spec : skipped listRoles.path = false ∧
    resolveActionAndResource listRoles.method listRoles.path = some ("role:view", "role") ∧
    resolveRequestOrgId (ownerApp "role:view") listRoles "role:view" =
      .ok (some "00000000-0000-0000-0000-000000000001") := by
  decide +kernel

theorem dispatch_forwards_listRoles :
    (dispatch (ownerApp "role:view") listRoles).forwarded = true := by
  obtain ⟨hskip, hperm, horg⟩ := listRoles_spec
  exact (dispatch_forwards_iff hskip hperm horg).1.mpr
    (.inr ⟨_, ownerApp_may "alice" _ (by decide) (by decide)⟩)

end Marty.Gateway.Decision
