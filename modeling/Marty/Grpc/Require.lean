import Marty.Cedar.BackendPolicies
import Marty.Grpc.Boundary

/-! `require`: a method that it guards runs when the policy engine allows the caller whom the
interceptor has authenticated. -/

universe u v w

namespace Marty.Grpc.Require

open Lib Lib.Text Auth Boundary Cedar.Engine Cedar.BackendPolicies
open Cedar.PolicyEngine (AuthorizationContext buildEntities evaluate request)

/-- The names of a function; some callables have no qualified one. -/
structure Method where
  qualname : Option String
  name : String

def withoutSuffix (className : List Char) : List Char :=
  if "Service".toList.isSuffixOf className then className.take (className.length - 7)
  else if "Servicer".toList.isSuffixOf className then className.take (className.length - 8)
  else className

def extractResourceFromMethod (lower : String → String) (method : Method) : String :=
  match method.qualname with
  | none => method.name
  | some qualname =>
    match (qualname.toList.splitOn '.').reverse with
    | _ :: className :: _ => lower (String.ofList (withoutSuffix className))
    | _ => method.name

/-- How a call fails before the method runs. -/
inductive Refusal
  | noGrpcContext
  | noAuthContext
  | evaluationFailed
  | denied (permission : String)
  deriving DecidableEq

/-- What the method hands to the engine, where all roles are strings. -/
def authorizationContext (auth : Authorized) (roles : List String) (resource permission : String) :
    AuthorizationContext where
  identity := some auth.identity
  roles := roles
  attributes := auth.attributes
  resource := some resource
  action := some permission

/-- A role that is no string raises where the entities are built. -/
def evaluateRoles (lower : String → String)
    (isAuthorized : Cedar.PolicyEngine.Request → List Cedar.PolicyEngine.Entity → Option Bool)
    (auth : Authorized) (resource permission : String) (now : Int) : Option Bool :=
  match auth.roles.mapM Json.asStr with
  | some roles =>
    evaluate lower isAuthorized (authorizationContext auth roles resource permission) now
  | none => if permission = "" then some false else none

/-- What the guard works with: the engine, the permission, the resource if one is named, and the
method. -/
structure Guard where
  cedarpy : Cedarpy
  lower : String → String
  policies : PolicySet
  permission : String
  resource : Option String := none
  method : Method

namespace Guard

variable (guard : Guard)

def resourceName : String :=
  (truthy guard.resource).getD (extractResourceFromMethod guard.lower guard.method)

/-- `args` says of each positional argument whether it has `invocation_metadata`. -/
def require (args : List Bool) (current : Option AuthContext) (now : Int) :
    Except Refusal Unit :=
  if args.any id then
    match extractAuthContext current with
    | none => .error .noAuthContext
    | some auth =>
      match evaluateRoles guard.lower (guard.cedarpy.isAuthorizedJson guard.policies) auth
          guard.resourceName guard.permission now with
      | none => .error .evaluationFailed
      | some false => .error (.denied guard.permission)
      | some true => .ok ()
  else .error .noGrpcContext

end Guard

/-- The caller is authenticated, its roles are strings, the engine reads the request, and the
policies allow it. -/
structure Passes (guard : Guard) (args : List Bool) (current : Option AuthContext) (now : Int) :
    Prop where
  grpcContext : true ∈ args
  allowed : ∃ auth roles r es req, extractAuthContext current = some auth ∧
    auth.roles.mapM Json.asStr = some roles ∧
    request (authorizationContext auth roles guard.resourceName guard.permission) now = some r ∧
    (buildEntities guard.lower
      (authorizationContext auth roles guard.resourceName guard.permission)).mapM readEntity =
        some es ∧
    Reads guard.cedarpy r es req ∧
    Allowed guard.cedarpy.bare guard.lower
      (authorizationContext auth roles guard.resourceName guard.permission) req.action

variable {guard : Guard} {args : List Bool} {current : Option AuthContext} {now : Int}

theorem require_eq_ok : guard.require args current now = .ok () ↔ true ∈ args ∧
    ∃ auth, extractAuthContext current = some auth ∧
      evaluateRoles guard.lower (guard.cedarpy.isAuthorizedJson guard.policies) auth
        guard.resourceName guard.permission now = some true := by
  have hargs : args.any id = true ↔ true ∈ args := by simp
  unfold Guard.require
  rw [← hargs]
  cases args.any id with
  | false => simp
  | true =>
    cases extractAuthContext current with
    | none => simp
    | some auth =>
      simp only [if_true, true_and, Option.some.injEq, exists_eq_left']
      cases evaluateRoles guard.lower (guard.cedarpy.isAuthorizedJson guard.policies) auth
          guard.resourceName guard.permission now with
      | none => simp
      | some allowed => cases allowed <;> simp

theorem passes_of_require (hpolicies : guard.policies = policySet backendPolicies)
    (h : guard.require args current now = .ok ()) : Passes guard args current now := by
  rw [require_eq_ok, hpolicies] at h
  obtain ⟨hargs, auth, hauth, hevaluate⟩ := h
  unfold evaluateRoles at hevaluate
  split at hevaluate
  case h_1 roles hroles =>
    obtain ⟨r, es, req, hr, hes, hreads, hallowed⟩ := (evaluate_iff _ _ _ _).mp hevaluate
    exact ⟨hargs, auth, roles, r, es, req, hauth, hroles, hr, hes, hreads, hallowed⟩
  case h_2 => split at hevaluate <;> cases hevaluate

/-- Which calls the guard lets through under the bundled policies. -/
theorem require_iff (guard : Guard) (args : List Bool) (current : Option AuthContext) (now : Int)
    (hpolicies : guard.policies = policySet backendPolicies) :
    guard.require args current now = .ok () ↔ Passes guard args current now := by
  refine ⟨passes_of_require hpolicies, ?_⟩
  rintro ⟨hargs, auth, roles, r, es, req, hauth, hroles, hr, hes, hreads, hallowed⟩
  refine require_eq_ok.mpr ⟨hargs, auth, hauth, ?_⟩
  rw [evaluateRoles, hroles, hpolicies]
  exact (evaluate_iff _ _ _ _).mpr ⟨r, es, req, hr, hes, hreads, hallowed⟩

/-- A signer of documents, as a verifier of tokens would vouch for it. -/
def signer : AuthContext where
  authenticated := true
  identity := some "alice"
  claims := [("roles", .arr [.str "Document_Signer"])]

def signGuard : Guard where
  cedarpy := { bare := fun c => c != '\r', accepts := fun _ _ => true }
  lower := Text.lower
  policies := policySet backendPolicies
  permission := "document:sign"
  method := { qualname := some "DocumentSignerService.Sign", name := "Sign" }

theorem require_iff_signer : signGuard.require [false, false, true] (some signer) 0 = .ok () ∧
    Passes signGuard [false, false, true] (some signer) 0 := by
  have hpasses : signGuard.require [false, false, true] (some signer) 0 = .ok () := by
    decide +kernel
  exact ⟨hpasses, (require_iff signGuard _ _ _ rfl).mp hpasses⟩

/-- A certificate gives no roles, and the policies ask a user for one. -/
theorem not_permits_nil (a : Lib.Cedar.EntityUID) : ¬ Permits [] a := by
  simp [Permits]

variable {ι : Type u} {ε : Type v} {α : Type w}

theorem not_passes_of_learns {interceptor : Interceptor} {call : Call ι ε α}
    (h : Learns interceptor call (extractAuthContext current)) :
    ¬ Passes guard args current now := by
  rintro ⟨-, auth, roles, -, -, req, hauth, hroles, -, -, -, hallowed⟩
  rw [hauth] at h
  cases h with
  | verified =>
    obtain rfl : [] = roles := Option.some.inj hroles
    exact not_permits_nil _ hallowed.permitted

/-- Whatever a call through the interceptor presents, a method guarded under the bundled policies
does not run. -/
theorem intercepted_refused (interceptor : Interceptor) (guard : Guard)
    (hpolicies : guard.policies = policySet backendPolicies) (call : Call ι ε α)
    (seen : Option AuthContext) (h : call.Sees interceptor seen) (args : List Bool) (now : Int) :
    ∃ refusal, guard.require args seen now = .error refusal := by
  cases hrequire : guard.require args seen now with
  | error refusal => exact ⟨refusal, rfl⟩
  | ok _ =>
    exact absurd (passes_of_require hpolicies hrequire) (not_passes_of_learns (learns_of_sees h))

/-- The authenticated call of alice. -/
theorem intercepted_refused_alice : ∃ seen refusal, aliceCall.Sees {} seen ∧
    signGuard.require [false, false, true] seen 0 = .error refusal := by
  have hidentity : verifiedIdentity aliceContext = some "alice" := by decide +kernel
  have hbypass : ¬ aliceCall.Bypasses {} := by
    rintro ⟨-, h⟩
    exact absurd h (by decide)
  have hauth := (authenticate_checked hbypass).mpr
    ⟨by decide, _, _, rfl, verifiedIdentity_eq_some.mp hidentity, rfl⟩
  have hsees : aliceCall.Sees {} _ := Call.sees_iff.mpr ⟨_, hauth, rfl⟩
  obtain ⟨refusal, hrefusal⟩ :=
    intercepted_refused {} signGuard rfl aliceCall _ hsees [false, false, true] 0
  exact ⟨_, refusal, hsees, hrefusal⟩

end Marty.Grpc.Require
