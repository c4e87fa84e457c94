import Marty.Lib.CedarText
import Marty.Lib.Json

/-! `PolicyEngine.evaluate`: the entities are passed on as JSON, and the principal and the resource
in quotation marks, without escapes. -/

namespace Marty.Cedar.PolicyEngine

open Lib Lib.Cedar Lib.CedarText
open Lib.Repr (quotationMark)

structure AuthorizationContext where
  identity : Option String := none
  roles : List String := []
  attributes : List (String × Json) := []
  resource : Option String := none
  action : Option String := none

/-- The `uid` of an entity in JSON; an identity that is not set is null there. -/
structure Uid where
  type : String
  id : Option String
  deriving DecidableEq

structure Entity where
  uid : Uid
  attrs : List (String × Json) := []
  parents : List Uid := []

/-- `context.resource or "default"` -/
def AuthorizationContext.resourceId (context : AuthorizationContext) : String :=
  (Text.truthy context.resource).getD "default"

/-- `lower` is `str.lower`. -/
def roleUid (lower : String → String) (role : String) : Uid := ⟨"MIP::Role", some (lower role)⟩

def buildEntities (lower : String → String) (context : AuthorizationContext) : List Entity :=
  (context.roles.map fun role =>
      { uid := roleUid lower role, attrs := [("is_system_role", .bool true)] }) ++
    [{ uid := ⟨"MIP::User", context.identity⟩
       attrs := [("email", (context.attributes.lookup "email").getD (.str "")),
         ("status", (context.attributes.lookup "status").getD (.str "ACTIVE"))]
       parents := context.roles.map (roleUid lower) },
     { uid := ⟨"MIP::ServiceResource", some context.resourceId⟩ }]

structure Request where
  principal : String
  action : String
  resource : String
  context : List (String × Json)

/-- The request of `evaluate` at the time `now`, unless it returns before it. -/
def request (context : AuthorizationContext) (now : Int) : Option Request :=
  match Text.truthy context.identity, Text.truthy context.action with
  | some identity, some action => some {
      principal := "MIP::User" ++ "::\"" ++ identity ++ "\""
      action := "MIP::Action" ++ "::\"" ++ action ++ "\""
      resource := "MIP::ServiceResource" ++ "::\"" ++ context.resourceId ++ "\""
      context := [
        ("ip_address", .obj [("__extn", .obj [("fn", .str "ip"),
          ("arg", (context.attributes.lookup "ip_address").getD (.str "0.0.0.0"))])]),
        ("timestamp", .int now),
        ("mfa_authenticated",
          (context.attributes.lookup "mfa_authenticated").getD (.bool false))] }
  | _, _ => none

/-- `isAuthorized` is the decision of the Cedar engine, if it makes one. -/
def evaluate (lower : String → String) (isAuthorized : Request → List Entity → Option Bool)
    (context : AuthorizationContext) (now : Int) : Option Bool :=
  match request context now with
  | none => some false
  | some r => isAuthorized r (buildEntities lower context)

/-- The text denotes the entity. -/
def Denotes (bare : Char → Bool) (s : String) (e : Entity) : Prop :=
  ∃ id, e.uid.id = some id ∧ readUid bare s = some ⟨e.uid.type, id⟩

/-- No entity is passed on twice, and a request is about the user and the resource among them. -/
structure Faithful (bare : Char → Bool) (lower : String → String) (context : AuthorizationContext) :
    Prop where
  distinct : ((buildEntities lower context).map (·.uid)).Nodup
  principal : ∀ now r, request context now = some r → ∃ e ∈ buildEntities lower context,
    e.uid = ⟨"MIP::User", context.identity⟩ ∧ Denotes bare r.principal e
  resource : ∀ now r, request context now = some r → ∃ e ∈ buildEntities lower context,
    e.uid = ⟨"MIP::ServiceResource", some context.resourceId⟩ ∧ Denotes bare r.resource e

/-- The roles differ in more than case, and where there is a request, the identity and the resource
need no escapes. -/
def NeedsNoEscapes (bare : Char → Bool) (lower : String → String) (context : AuthorizationContext) :
    Prop :=
  (context.roles.map lower).Nodup ∧
    ∀ identity, Text.truthy context.identity = some identity →
      Text.truthy context.action ≠ none →
        (∀ c ∈ identity.toList, Plain bare c) ∧ ∀ c ∈ context.resourceId.toList, Plain bare c

variable {bare : Char → Bool} {lower : String → String} {context : AuthorizationContext}

theorem uids_buildEntities :
    (buildEntities lower context).map (·.uid) = context.roles.map (roleUid lower) ++
      [⟨"MIP::User", context.identity⟩, ⟨"MIP::ServiceResource", some context.resourceId⟩] := by
  simp [buildEntities, Function.comp_def]

theorem roleUid_injective {role role' : String} :
    roleUid lower role = roleUid lower role' ↔ lower role = lower role' := by
  simp [roleUid]

/-- The user and the resource are of types of their own, so that only roles can coincide. -/
theorem distinct_iff :
    ((buildEntities lower context).map (·.uid)).Nodup ↔ (context.roles.map lower).Nodup := by
  rw [uids_buildEntities, List.nodup_append]
  have hothers : [(⟨"MIP::User", context.identity⟩ : Uid),
      ⟨"MIP::ServiceResource", some context.resourceId⟩].Nodup := by simp
  have hroles : ∀ uid ∈ context.roles.map (roleUid lower),
      ∀ other ∈ [(⟨"MIP::User", context.identity⟩ : Uid),
        ⟨"MIP::ServiceResource", some context.resourceId⟩], uid ≠ other := by
    intro uid huid other hother heq
    obtain ⟨role, -, rfl⟩ := List.mem_map.mp huid
    subst heq
    simp [roleUid] at hother
  rw [and_iff_left ⟨hothers, hroles⟩]
  unfold List.Nodup
  rw [List.pairwise_map, List.pairwise_map]
  simp only [Ne, roleUid_injective]

/-- The text made for one of the entities denotes it when its id needs no escapes. -/
theorem denotes_iff {ty id : String} (hty : quotationMark ∉ ty.toList)
    (hpath : isPath ((ty.toList ++ [':', ':']).splitOn ':') = true)
    (hmem : ⟨ty, some id⟩ ∈ (buildEntities lower context).map (·.uid)) :
    (∃ e ∈ buildEntities lower context, e.uid = ⟨ty, some id⟩ ∧
      Denotes bare (ty ++ "::\"" ++ id ++ "\"") e) ↔ ∀ c ∈ id.toList, Plain bare c := by
  rw [← readUid_eq_iff hty hpath]
  constructor
  · rintro ⟨e, -, huid, id', hid, hread⟩
    rw [huid] at hid hread
    obtain rfl := Option.some.inj hid
    exact hread
  · intro hread
    obtain ⟨e, he, huid⟩ := List.mem_map.mp hmem
    exact ⟨e, he, huid, id, by rw [huid], by rw [huid, hread]⟩

theorem user_mem : ⟨"MIP::User", context.identity⟩ ∈ (buildEntities lower context).map (·.uid) := by
  simp [uids_buildEntities]

theorem serviceResource_mem :
    ⟨"MIP::ServiceResource", some context.resourceId⟩ ∈
      (buildEntities lower context).map (·.uid) := by
  simp [uids_buildEntities]

theorem request_eq_some {now : Int} {r : Request} (h : request context now = some r) :
    ∃ identity, Text.truthy context.identity = some identity ∧ Text.truthy context.action ≠ none ∧
      r.principal = "MIP::User" ++ "::\"" ++ identity ++ "\"" ∧
      r.resource = "MIP::ServiceResource" ++ "::\"" ++ context.resourceId ++ "\"" := by
  unfold request at h
  split at h
  case h_1 identity action hidentity haction =>
    cases h
    exact ⟨identity, hidentity, by rw [haction]; exact Option.some_ne_none _, rfl, rfl⟩
  case h_2 => cases h

theorem exists_request {identity : String}
    (hidentity : Text.truthy context.identity = some identity)
    (haction : Text.truthy context.action ≠ none) (now : Int) :
    ∃ r, request context now = some r := by
  obtain ⟨action, haction⟩ := Option.ne_none_iff_exists'.mp haction
  rw [request, hidentity, haction]
  exact ⟨_, rfl⟩

/-- The request is faithful exactly when no two roles are equal up to case and nothing in it needs
an escape. -/
theorem request_faithful_iff (bare : Char → Bool) (lower : String → String)
    (context : AuthorizationContext) :
    Faithful bare lower context ↔ NeedsNoEscapes bare lower context := by
  constructor
  · intro h
    refine ⟨distinct_iff.mp h.distinct, fun identity hidentity haction => ?_⟩
    obtain ⟨r, hr⟩ := exists_request hidentity haction 0
    have hsome := (Text.truthy_eq_some.mp hidentity).1
    have huser := h.principal 0 r hr
    have hservice := h.resource 0 r hr
    obtain ⟨identity', hidentity', -, hprincipal, hresource⟩ := request_eq_some hr
    obtain rfl := Option.some.inj (hidentity.symm.trans hidentity')
    rw [hprincipal, hsome, denotes_iff (by decide) (by decide) (hsome ▸ user_mem)] at huser
    rw [hresource, denotes_iff (by decide) (by decide) serviceResource_mem] at hservice
    exact ⟨huser, hservice⟩
  · rintro ⟨hroles, hplain⟩
    refine ⟨distinct_iff.mpr hroles, fun now r hr => ?_, fun now r hr => ?_⟩
    · obtain ⟨identity, hidentity, haction, hprincipal, -⟩ := request_eq_some hr
      have hsome := (Text.truthy_eq_some.mp hidentity).1
      rw [hprincipal, hsome, denotes_iff (by decide) (by decide) (hsome ▸ user_mem)]
      exact (hplain identity hidentity haction).1
    · obtain ⟨identity, hidentity, haction, -, hresource⟩ := request_eq_some hr
      rw [hresource, denotes_iff (by decide) (by decide) serviceResource_mem]
      exact (hplain identity hidentity haction).2

/-- An identity with an escape sequence for the letter c. -/
def escaped : AuthorizationContext where
  identity := some "ali\\x63e"
  action := some "document:sign"

/-- The request is about another user, and roles that differ in case are passed on twice. -/
theorem escaped_unfaithful :
    ¬ Faithful (· != '\r') Text.lower escaped ∧
      (request escaped 0).bind (readUid (· != '\r') ·.principal) = some ⟨"MIP::User", "alice"⟩ ∧
      ¬ Faithful (· != '\r') Text.lower { roles := ["Admin", "admin"] } := by
  have hread : (request escaped 0).bind (readUid (· != '\r') ·.principal) =
      some ⟨"MIP::User", "alice"⟩ := by decide +kernel
  refine ⟨fun h => ?_, hread, fun h => ?_⟩
  · obtain ⟨r, hr⟩ : ∃ r, request escaped 0 = some r := ⟨_, rfl⟩
    obtain ⟨e, -, huid, id, hid, huser⟩ := h.principal 0 r hr
    rw [hr, Option.bind_some, huser] at hread
    rw [huid] at hid hread
    cases hid
    simp at hread
  · exact absurd (distinct_iff.mp h.distinct) (by decide +kernel)

end Marty.Cedar.PolicyEngine
