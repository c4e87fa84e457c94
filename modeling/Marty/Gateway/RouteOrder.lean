import Marty.Gateway.Routes

/-! The order of the special rules.  The first that matches a path decides, also where it does not
have the method, and a path with a slash at its end is another path. -/

namespace Marty.Gateway.RouteOrder

open Lib Lib.Regex Lib.Text Lib.Route Actions Paths Routes

variable {method path : String} {rule : RouteRule}

theorem permission_eq (hrule : rule ∈ specialRouteRules) :
    permission method rule =
      (rule.methodMap.lookup (upper method)).map (·, rule.resourceName) := by
  rw [permission]
  cases hlookup : rule.methodMap.lookup (upper method) with
  | none => rfl
  | some p =>
    have hne : p ≠ "" := (methodMap_spec rule hrule _ (Dict.mem_of_lookup hlookup)).2
    rw [truthy_eq_some.mpr ⟨rfl, hne⟩]

theorem lookup_upper_eq_none (hrule : rule ∈ specialRouteRules) (h : upper method ∉ methods) :
    rule.methodMap.lookup (upper method) = none := by
  cases hlookup : rule.methodMap.lookup (upper method) with
  | none => rfl
  | some p => exact absurd (methodMap_spec rule hrule _ (Dict.mem_of_lookup hlookup)).1 h

/-- Outside the generic resources there is no fallback. -/
theorem fallback_of_not_generic (hrule : rule ∈ specialRouteRules)
    (htest : rule.pattern.test path = true) (h : rule.resourceName ∉ genericNames) :
    fallback method path = none := by
  obtain ⟨route, hroute, htest⟩ := exists_route hrule htest
  exact fallback_of_apart ((route_spec _ hroute).apartShapes h) htest

/-- Below a generic resource the fallback grants something, and seldom what the rule does. -/
theorem fallback_of_generic (hrule : rule ∈ specialRouteRules)
    (htest : rule.pattern.test path = true) (h : rule.resourceName ∈ genericNames)
    (hmethod : method ∈ methods) :
    fallback method path ≠ none ∧ ∀ p ∈ rule.methodMap.lookup method,
      (fallback method path = some (p, rule.resourceName) ↔ (method, p) ∈ genericGrants) := by
  obtain ⟨route, hroute, htest⟩ := exists_route hrule htest
  obtain ⟨k, hk, hfits⟩ := exists_fits (by decide) htest
  obtain ⟨key, hkey, hspec⟩ := (route_spec _ hroute).generic h k hk
  rw [fallback_of_keyOf method hkey hfits]
  exact hspec method hmethod

/-! Permissions that a rule takes away. -/

/-- Some special rule that matches the path, or the fallback, gives a permission. -/
def Offered (method path : String) : Prop :=
  (∃ rule ∈ specialRouteRules, rule.pattern.test path = true ∧ permission method rule ≠ none) ∨
    fallback method path ≠ none

theorem applicantsRule_pattern : applicantsRule.pattern = routeRe uuidChar 36 applicants := rfl

theorem applicantsRule_mem : applicantsRule ∈ specialRouteRules := by
  have h : applicantsRule ∈ applicantRules := List.get_mem _ _
  simp [specialRouteRules, h]

/-- A rule that shares the path with one outside the generic resources, and has a further method,
is the one for the applicants. -/
theorem applicants_of_extra {rule' : RouteRule} (hrule : rule ∈ specialRouteRules)
    (htest : rule.pattern.test path = true) (h : rule.resourceName ∉ genericNames)
    (hrule' : rule' ∈ specialRouteRules) (htest' : rule'.pattern.test path = true)
    (hmethod : method ∈ methods) (hlookup : rule.methodMap.lookup method = none)
    (hlookup' : rule'.methodMap.lookup method ≠ none) :
    applicantsRule.pattern.test path = true ∧ method ∈ applicantsRule.methodMap.map (·.1) := by
  obtain ⟨route, hroute, htest⟩ := exists_route hrule htest
  obtain ⟨route', hroute', htest'⟩ := exists_route hrule' htest'
  by_cases happlicants : route' = applicants
  · subst happlicants
    have hmap : rule'.methodMap = applicantsRule.methodMap := (applicantsRule_spec _ hroute' rfl).1
    rw [hmap] at hlookup'
    exact ⟨htest', Dict.lookup_ne_none.mp hlookup'⟩
  · have hmeet := meet_of_test (by decide) htest htest'
    have happart := (route_spec _ hroute).apart h _ hroute' happlicants
      ⟨method, hmethod, hlookup, hlookup'⟩
    cases hmeet.symm.trans happart

/-- What is offered is not resolved exactly when the first rule that matches does not have the
method, and its resource is a generic one or the rule for the applicants has the method. -/
theorem lost_iff (hmethod : method ∈ methods) :
    Offered method path ∧ resolveActionAndResource method path = none ↔
      ∃ rule, FirstMatch path rule ∧ rule.methodMap.lookup method = none ∧
        (rule.resourceName ∈ genericNames ∨ applicantsRule.pattern.test path = true ∧
          method ∈ applicantsRule.methodMap.map (·.1)) := by
  constructor
  · rintro ⟨hoffered, hnone⟩
    cases hfind : specialRouteRules.find? (·.pattern.test path) with
    | none =>
      rw [resolve_of_not_match hfind] at hnone
      rcases hoffered with ⟨rule, hrule, htest, -⟩ | hfallback
      · exact absurd htest (List.find?_eq_none.mp hfind rule hrule)
      · exact absurd hnone hfallback
    | some rule =>
      have hfirst : FirstMatch path rule := hfind
      rw [resolve_of_firstMatch hfirst, permission_eq hfirst.mem, upper_of_mem hmethod,
        Option.map_eq_none_iff] at hnone
      refine ⟨rule, hfirst, hnone, ?_⟩
      by_cases hgeneric : rule.resourceName ∈ genericNames
      · exact .inl hgeneric
      · rcases hoffered with ⟨rule', hrule', htest', hpermission⟩ | hfallback
        · rw [permission_eq hrule', upper_of_mem hmethod, Ne, Option.map_eq_none_iff] at hpermission
          exact .inr (applicants_of_extra hfirst.mem hfirst.test hgeneric hrule' htest'
            hmethod hnone hpermission)
        · exact absurd (fallback_of_not_generic hfirst.mem hfirst.test hgeneric) hfallback
  · rintro ⟨rule, hfirst, hlookup, hcases⟩
    refine ⟨?_, ?_⟩
    · rcases hcases with hgeneric | ⟨htest, hmem⟩
      · exact .inr (fallback_of_generic hfirst.mem hfirst.test hgeneric hmethod).1
      · refine .inl ⟨applicantsRule, applicantsRule_mem, htest, ?_⟩
        rw [permission_eq applicantsRule_mem, upper_of_mem hmethod, Ne, Option.map_eq_none_iff]
        exact Dict.lookup_ne_none.mpr hmem
    · rw [resolve_of_firstMatch hfirst, permission_eq hfirst.mem, upper_of_mem hmethod, hlookup]
      rfl

/-- The rule for the approval of an applicant takes the view from the rule for the applicants. -/
theorem lost_view :
    Offered "GET" "/v1/organizations/o/applicants/a/approve" ∧
      resolveActionAndResource "GET" "/v1/organizations/o/applicants/a/approve" = none := by
  refine ⟨.inl ⟨applicantsRule, applicantsRule_mem, ?_, ?_⟩, ?_⟩ <;> decide +kernel

/-- The rule for the verification takes it from the fallback. -/
theorem lost_verify :
    Offered "GET" "/v1/flows/verify" ∧ resolveActionAndResource "GET" "/v1/flows/verify" = none :=
  (lost_iff (by decide)).mpr ⟨flowRules.get ⟨0, by decide⟩, rfl, rfl, .inl (by decide)⟩

/-! A slash at the end. -/

/-- What follows the applicants in a path. -/
def Rest (r : List Char) : Prop := r = [] ∨ ∃ v, r = '/' :: v ∧ ∀ c ∈ v, c ≠ '\n'

theorem applicants_test : applicantsRule.pattern.test path = true ↔
    ∃ x r u, path.toList = "/v1/organizations/".toList ++ (x ++ ("/applicants".toList ++ r)) ++ u ∧
      (x ≠ [] ∧ NoSlash x) ∧ Rest r ∧ AtEnd u := by
  have hways : ways applicants = [
      [.lit "/v1/organizations/", .seg, .lit "/applicants", .lit "/", .rest],
      [.lit "/v1/organizations/", .seg, .lit "/applicants"]] := rfl
  rw [applicantsRule_pattern, test_iff, hways]
  constructor
  · rintro ⟨tokens, htokens, t, u, hpath, ht, hu⟩
    rcases List.mem_pair.mp htokens with rfl | rfl
    · obtain ⟨_, _, rfl, rfl, x, _, rfl, hx, _, _, rfl, rfl, _, _, rfl, rfl, v, _, rfl, hv, rfl⟩ :=
        ht
      exact ⟨x, '/' :: v, u, by simpa using hpath, hx, .inr ⟨v, rfl, hv⟩, hu⟩
    · obtain ⟨_, _, rfl, rfl, x, _, rfl, hx, _, _, rfl, rfl, rfl⟩ := ht
      exact ⟨x, [], u, by simpa using hpath, hx, .inl rfl, hu⟩
  · rintro ⟨x, r, u, hpath, hx, hr, hu⟩
    rcases hr with rfl | ⟨v, rfl, hv⟩
    · exact ⟨_, List.mem_cons_of_mem _ List.mem_cons_self, _, u, hpath,
        ⟨_, _, rfl, rfl, x, _, rfl, hx, _, [], rfl, rfl, rfl⟩, hu⟩
    · exact ⟨_, List.mem_cons_self, _, u, hpath, ⟨_, _, rfl, rfl, x, _, rfl, hx, _, '/' :: v, rfl,
        rfl, ['/'], v, rfl, rfl, v, [], (List.append_nil v).symm, hv, rfl⟩, hu⟩

/-- What follows the applicants does not end with a newline. -/
theorem rest_last {s w r : List Char} (hr : Rest r)
    (h : w ++ ("/applicants".toList ++ r) = s ++ ['\n']) : False := by
  rcases hr with rfl | ⟨v, rfl, hv⟩
  · have hs : (w ++ "/applicant".toList) ++ ['s'] = s ++ ['\n'] := by simpa using h
    exact absurd (List.append_inj' hs rfl).2 (by decide)
  · rcases List.eq_nil_or_concat v with rfl | ⟨v, c, rfl⟩
    · have hs : (w ++ "/applicants".toList) ++ ['/'] = s ++ ['\n'] := by simpa using h
      exact absurd (List.append_inj' hs rfl).2 (by decide)
    · have hs : (w ++ ("/applicants".toList ++ '/' :: v)) ++ [c] = s ++ ['\n'] := by simpa using h
      exact hv c (by simp) (List.singleton_inj.mp (List.append_inj' hs rfl).2)

/-- A slash at the end does not belong to what precedes it, unless that ends with one. -/
theorem exists_rest {s w r : List Char} (hr : Rest r)
    (h : s ++ ['/'] = w ++ ("/applicants".toList ++ r)) :
    ∃ r', Rest r' ∧ s = w ++ ("/applicants".toList ++ r') := by
  rcases hr with rfl | ⟨v, rfl, hv⟩
  · have hs : s ++ ['/'] = (w ++ "/applicant".toList) ++ ['s'] := by simpa using h
    exact absurd (List.append_inj' hs rfl).2 (by decide)
  · rcases List.eq_nil_or_concat v with rfl | ⟨v, c, rfl⟩
    · have hs : s ++ ['/'] = (w ++ "/applicants".toList) ++ ['/'] := by simpa using h
      exact ⟨[], .inl rfl, by simpa using (List.append_inj' hs rfl).1⟩
    · have hs : s ++ ['/'] = (w ++ ("/applicants".toList ++ '/' :: v)) ++ [c] := by simpa using h
      exact ⟨'/' :: v, .inr ⟨v, rfl, fun d hd => hv d (by simp [hd])⟩, (List.append_inj' hs rfl).1⟩

theorem rest_snoc {r : List Char} (hr : Rest r) : Rest (r ++ ['/']) := by
  rcases hr with rfl | ⟨v, rfl, hv⟩
  · exact .inr ⟨[], rfl, by simp⟩
  · refine .inr ⟨v ++ ['/'], rfl, fun c hc => ?_⟩
    rcases List.mem_append.mp hc with hc | hc
    · exact hv c hc
    · obtain rfl := List.mem_singleton.mp hc
      decide

theorem applicants_test_slash : applicantsRule.pattern.test (path ++ "/") = true ↔
    applicantsRule.pattern.test path = true ∧ endsWith "\n" path = false := by
  rw [applicants_test, applicants_test, String.toList_append]
  constructor
  · rintro ⟨x, r, u, hpath, hx, hr, rfl | rfl⟩
    · obtain ⟨r', hr', hs⟩ := exists_rest (s := path.toList)
        (w := "/v1/organizations/".toList ++ x) hr (by simpa using hpath)
      refine ⟨⟨x, r', [], by simpa using hs, hx, hr', .inl rfl⟩, decide_eq_false ?_⟩
      rintro ⟨s, hnewline⟩
      exact rest_last hr' (hs.symm.trans hnewline.symm)
    · exact absurd (List.append_inj' hpath rfl).2 (by decide)
  · rintro ⟨⟨x, r, u, hpath, hx, hr, hu⟩, hnewline⟩
    obtain rfl : u = [] :=
      hu.resolve_right fun hu => of_decide_eq_false hnewline ⟨_, by rw [hpath, hu]; rfl⟩
    exact ⟨x, r ++ ['/'], [], by simp [hpath], hx, rest_snoc hr, .inl rfl⟩

theorem endsSegment_snoc {u : List Char} (h : EndsSegment u) : EndsSegment (u ++ ['/']) := by
  rcases h.cases with rfl | ⟨v, rfl⟩
  · exact endsSegment_slash []
  · exact endsSegment_slash (v ++ ['/'])

/-- A slash at the end does not belong to the segment. -/
theorem exists_of_snoc {s w key u : List Char} (hkey : IsSegment key) (hu : EndsSegment u)
    (h : s ++ ['/'] = w ++ (key ++ u)) : ∃ u', EndsSegment u' ∧ s = w ++ (key ++ u') := by
  rcases List.eq_nil_or_concat u with rfl | ⟨u, c, rfl⟩
  · obtain ⟨key, c, rfl⟩ := (List.eq_nil_or_concat key).resolve_left hkey.1
    have hs : s ++ ['/'] = (w ++ key) ++ [c] := by simpa using h
    obtain rfl := List.singleton_inj.mp (List.append_inj' hs rfl).2
    exact absurd (hkey.2 '/' (by simp)) (by decide)
  · have hs : s ++ ['/'] = (w ++ (key ++ u)) ++ [c] := by simpa using h
    refine ⟨u, fun d hd => hu d ?_, (List.append_inj' hs rfl).1⟩
    cases u with
    | nil => cases hd
    | cons e u => simpa using hd

theorem orgKey_slash {key : List Char} :
    OrgKey (path ++ "/").toList key ↔ OrgKey path.toList key := by
  rw [String.toList_append]
  constructor
  · rintro ⟨x, u, hx, hkey, hu, h⟩
    obtain ⟨u', hu', hs⟩ :=
      exists_of_snoc (w := "/v1/organizations/".toList ++ (x ++ ['/'])) hkey hu (by simpa using h)
    exact ⟨x, u', hx, hkey, hu', by simpa using hs⟩
  · rintro ⟨x, u, hx, hkey, hu, h⟩
    exact ⟨x, u ++ ['/'], hx, hkey, endsSegment_snoc hu, by simp [h]⟩

theorem topKey_slash {key : List Char} :
    TopKey (path ++ "/").toList key ↔ TopKey path.toList key := by
  rw [String.toList_append]
  constructor
  · rintro ⟨u, hkey, hu, h⟩
    obtain ⟨u', hu', hs⟩ := exists_of_snoc hkey hu h
    exact ⟨u', hkey, hu', hs⟩
  · rintro ⟨u, hkey, hu, h⟩
    exact ⟨u ++ ['/'], hkey, endsSegment_snoc hu, by simp [h]⟩

theorem fallback_slash :
    fallback method (path ++ "/") = fallback method path := by
  by_cases horg : ∃ key, OrgKey path.toList key
  · obtain ⟨key, hkey⟩ := horg
    rw [fallback_of_orgKey method hkey, fallback_of_orgKey method (orgKey_slash.mpr hkey)]
  · have hno : ∀ key, ¬ OrgKey path.toList key := fun key hkey => horg ⟨key, hkey⟩
    have hno' : ∀ key, ¬ OrgKey (path ++ "/").toList key := fun key hkey =>
      hno key (orgKey_slash.mp hkey)
    by_cases htop : ∃ key, TopKey path.toList key
    · obtain ⟨key, hkey⟩ := htop
      rw [fallback_of_topKey method hno hkey,
        fallback_of_topKey method hno' (topKey_slash.mpr hkey)]
    · have hnone : ∀ key, ¬ TopKey path.toList key := fun key hkey => htop ⟨key, hkey⟩
      rw [fallback_of_noKey method hno hnone,
        fallback_of_noKey method hno' fun key hkey => hnone key (topKey_slash.mp hkey)]

/-- With a slash at its end, a path is matched by the rule for the applicants only. -/
theorem resolve_slash :
    resolveActionAndResource method (path ++ "/") =
      if applicantsRule.pattern.test (path ++ "/") = true then permission method applicantsRule
      else fallback method path := by
  cases hfind : specialRouteRules.find? (·.pattern.test (path ++ "/")) with
  | none =>
    have hnot := List.find?_eq_none.mp hfind _ applicantsRule_mem
    rw [resolve_of_not_match hfind, if_neg hnot, fallback_slash]
  | some rule =>
    have hfirst : FirstMatch (path ++ "/") rule := hfind
    obtain ⟨route, hroute, htest⟩ := exists_route hfirst.mem hfirst.test
    have happlicants : route = applicants := by
      by_contra hne
      rw [not_test_slash (by decide) ((route_spec _ hroute).solid hne)] at htest
      cases htest
    subst happlicants
    obtain ⟨hmap, hname⟩ := applicantsRule_spec _ hroute rfl
    rw [← applicantsRule_pattern] at htest
    rw [resolve_of_firstMatch hfirst, if_pos htest, permission, permission, hmap, hname]

/-- The first rule of a path gives to a method what the path with a slash at its end gives. -/
def SlashSafe (method path : String) (rule : RouteRule) : Prop :=
  if applicantsRule.pattern.test path = true ∧ endsWith "\n" path = false then
    rule.methodMap = applicantsRule.methodMap ∨
      upper method ∉ applicantsRule.methodMap.map (·.1)
  else
    match rule.methodMap.lookup (upper method) with
    | some p => (upper method, p) ∈ genericGrants
    | none => upper method ∉ methods ∨ rule.resourceName ∉ genericNames

theorem generic_upper {key : String} (h : upper method ∈ methods) :
    resolveGenericOrgPermission method key = resolveGenericOrgPermission (upper method) key := by
  rw [resolveGenericOrgPermission, resolveGenericOrgPermission, upper_of_mem h]

theorem generic_eq_none {key : String} (h : upper method ∉ methods) :
    resolveGenericOrgPermission method key = none := by
  rw [resolveGenericOrgPermission]
  cases genericResourceMap.lookup key with
  | none => rfl
  | some entry =>
    simp only [methods, List.mem_cons, List.not_mem_nil, or_false, not_or] at h
    simp [h]

theorem fallback_upper (h : upper method ∈ methods) :
    fallback method path = fallback (upper method) path := by
  simp only [fallback, generic_upper h]

theorem fallback_eq_none (h : upper method ∉ methods) : fallback method path = none := by
  rw [fallback]
  split
  · exact generic_eq_none h
  · split
    · exact generic_eq_none h
    · rfl

/-- The first rule gives what the rule for the applicants gives. -/
theorem permission_eq_iff (hfirst : FirstMatch path rule)
    (htest : applicantsRule.pattern.test path = true) :
    permission method rule = permission method applicantsRule ↔
      rule.methodMap = applicantsRule.methodMap ∨
        upper method ∉ applicantsRule.methodMap.map (·.1) := by
  rw [permission_eq hfirst.mem, permission_eq applicantsRule_mem]
  obtain ⟨route, hroute, hrule⟩ := exists_route hfirst.mem hfirst.test
  by_cases hmethod : upper method ∈ methods
  · exact (route_spec _ hroute).besideApplicants (meet_of_test (by decide) hrule htest) _ hmethod
  · rw [lookup_upper_eq_none hfirst.mem hmethod, lookup_upper_eq_none applicantsRule_mem hmethod]
    refine iff_of_true rfl (.inr fun hmem => hmethod ?_)
    obtain ⟨entry, hentry, heq⟩ := List.mem_map.mp hmem
    exact heq ▸ (methodMap_spec _ applicantsRule_mem entry hentry).1

/-- The first rule gives what the fallback gives. -/
theorem permission_eq_fallback_iff (hfirst : FirstMatch path rule) :
    permission method rule = fallback method path ↔
      match rule.methodMap.lookup (upper method) with
      | some p => (upper method, p) ∈ genericGrants
      | none => upper method ∉ methods ∨ rule.resourceName ∉ genericNames := by
  rw [permission_eq hfirst.mem]
  by_cases hmethod : upper method ∈ methods
  · rw [fallback_upper hmethod]
    by_cases hgeneric : rule.resourceName ∈ genericNames
    · obtain ⟨hne, hgrants⟩ := fallback_of_generic hfirst.mem hfirst.test hgeneric hmethod
      cases hlookup : rule.methodMap.lookup (upper method) with
      | none =>
        refine iff_of_false (fun heq => hne heq.symm) ?_
        exact fun h => h.elim (· hmethod) (· hgeneric)
      | some p => exact eq_comm.trans (hgrants p hlookup)
    · rw [fallback_of_not_generic hfirst.mem hfirst.test hgeneric]
      cases hlookup : rule.methodMap.lookup (upper method) with
      | none => exact iff_of_true rfl (.inr hgeneric)
      | some p =>
        refine iff_of_false (by simp) fun hgrant => hgeneric ?_
        exact genericGrants_spec _ hfirst.mem _ (Dict.mem_of_lookup hlookup) hgrant
  · rw [lookup_upper_eq_none hfirst.mem hmethod, fallback_eq_none hmethod]
    exact iff_of_true rfl (.inl hmethod)

/-- A slash at the end of a path does not matter exactly when the path has no special rule, or its
first is safe. -/
theorem resolve_slash_iff :
    resolveActionAndResource method path = resolveActionAndResource method (path ++ "/") ↔
      ∀ rule, FirstMatch path rule → SlashSafe method path rule := by
  rw [resolve_slash]
  cases hfind : specialRouteRules.find? (·.pattern.test path) with
  | none =>
    have hnot : ¬ applicantsRule.pattern.test (path ++ "/") = true := fun htest =>
      List.find?_eq_none.mp hfind _ applicantsRule_mem (applicants_test_slash.mp htest).1
    rw [if_neg hnot, resolve_of_not_match hfind]
    exact iff_of_true rfl fun rule hrule => by cases hfind.symm.trans hrule
  | some rule =>
    have hfirst : FirstMatch path rule := hfind
    have hforall : (∀ rule', FirstMatch path rule' → SlashSafe method path rule') ↔
        SlashSafe method path rule := by
      constructor
      · exact fun h => h rule hfirst
      · rintro h rule' hrule'
        rwa [← Option.some.inj (hfirst.symm.trans hrule')]
    rw [hforall, resolve_of_firstMatch hfirst, SlashSafe]
    simp only [applicants_test_slash]
    split
    case isTrue htest => exact permission_eq_iff hfirst htest.1
    case isFalse => exact permission_eq_fallback_iff hfirst

/-- The roles of an organization need a permission only without the slash. -/
theorem roles_slash :
    let roles := "/v1/organizations/11111111-1111-1111-1111-111111111111/roles"
    resolveActionAndResource "GET" roles = some ("role:view", "role") ∧
      resolveActionAndResource "GET" (roles ++ "/") = none := by
  decide +kernel

end Marty.Gateway.RouteOrder
