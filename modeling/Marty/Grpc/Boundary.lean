import Mathlib.Data.List.Dedup
import Marty.Grpc.Auth

/-! What a handler can learn about its caller: the identity of the verified transport, and
nothing that the caller has put into the metadata. -/

universe u v w

namespace Marty.Grpc.Boundary

open Lib Lib.Text Auth

/-- The TLS transport presents one identity, under one of the certificate keys. -/
structure Presents (context : ServicerContext) (identity : String) : Prop where
  tls : ∃ transport types, context.authContext = some transport ∧
    transport.lookup "transport_security_type" = some types ∧ ssl ∈ types
  key : ∃ key ∈ x509Keys, context.peerIdentityKey = some key
  peer : ∃ identities bytes, context.peerIdentities = some (some identities) ∧ identities ≠ [] ∧
    (∀ other ∈ identities, other = bytes) ∧ decodeUtf8 bytes = some identity
  nonempty : identity ≠ ""

theorem dedup_length_eq_one {first : Bytes} {rest : List Bytes} :
    (first :: rest).dedup.length = 1 ↔ ∀ other ∈ first :: rest, other = first := by
  constructor
  · intro h other hother
    obtain ⟨bytes, hbytes⟩ := List.length_eq_one_iff.mp h
    have hmem : ∀ x ∈ first :: rest, x = bytes := by
      intro x hx
      rw [← List.mem_dedup, hbytes] at hx
      exact List.mem_singleton.mp hx
    rw [hmem other hother, hmem first List.mem_cons_self]
  · intro h
    rw [List.eq_replicate_of_mem h, List.replicate_dedup (by simp)]
    rfl

theorem verifiedIdentity_eq_some {context : ServicerContext} {identity : String} :
    verifiedIdentity context = some identity ↔ Presents context identity := by
  constructor
  · intro h
    obtain ⟨transport, htransport, h⟩ := Option.bind_eq_some_iff.mp h
    split at h
    case isTrue => cases h
    case isFalse htls =>
      rw [not_not] at htls
      obtain ⟨key, hkey, h⟩ := Option.bind_eq_some_iff.mp h
      split at h
      case isTrue => cases h
      case isFalse hx509 =>
        rw [not_not] at hx509
        obtain ⟨identities, hidentities, h⟩ := Option.bind_eq_some_iff.mp h
        split at h
        case h_1 => cases h
        case h_2 => cases h
        case h_3 first rest =>
          split at h
          case isTrue => cases h
          case isFalse hone =>
            rw [not_not] at hone
            obtain ⟨decoded, hdecoded, h⟩ := Option.bind_eq_some_iff.mp h
            split at h
            case isTrue => cases h
            case isFalse hempty =>
              obtain rfl := Option.some.inj h
              refine ⟨⟨transport, ?_⟩, ⟨key, hx509, hkey⟩, ?_, hempty⟩
              · cases htypes : transport.lookup "transport_security_type" with
                | none => simp [htypes] at htls
                | some types => exact ⟨types, htransport, rfl, by simpa [htypes] using htls⟩
              · exact ⟨first :: rest, first, hidentities, by simp, dedup_length_eq_one.mp hone,
                  hdecoded⟩
  · rintro ⟨⟨transport, types, htransport, htypes, htls⟩, ⟨key, hx509, hkey⟩,
      ⟨identities, bytes, hidentities, hne, hsame, hdecoded⟩, hempty⟩
    obtain ⟨first, rest, rfl⟩ := List.exists_cons_of_ne_nil hne
    obtain rfl : first = bytes := hsame first List.mem_cons_self
    have hone : (first :: rest).dedup.length = 1 := dedup_length_eq_one.mpr hsame
    simp only [verifiedIdentity, htransport, htypes, hkey, hidentities, hone, hdecoded,
      Option.bind_eq_bind, Option.bind_some, Option.getD_some, htls, hx509, hempty, not_true,
      if_false, ne_eq]

/-- A call of an intercepted service. -/
structure Call (ι : Type u) (ε : Type v) (α : Type w) where
  details : HandlerCallDetails
  handler : RpcMethodHandler ι ε α
  request : ι
  context : Option ServicerContext
  /-- The context variable before the call. -/
  current : Option AuthContext

variable {ι : Type u} {ε : Type v} {α : Type w} (interceptor : Interceptor)

/-- The outcome of a call and the context variable after it. -/
def Call.result (call : Call ι ε α) : Option (Outcome ε α × Option AuthContext) :=
  (interceptService interceptor call.details (some call.handler)).map fun wrapped =>
    wrapped call.request call.context call.current

/-- The handler runs and sees this value of the context variable. -/
def Call.Sees (call : Call ι ε α) (seen : Option AuthContext) : Prop :=
  ∃ items raised, call.result interceptor = some (.ran seen items raised, call.current)

/-- The call is let through without authentication. -/
def Call.Bypasses (call : Call ι ε α) : Prop :=
  interceptor.bypassHealthChecks = true ∧ call.details.method ∈ healthMethods

variable {interceptor}

/-- All four wrappers do the same. -/
theorem Call.result_eq (call : Call ι ε α) :
    call.result interceptor = some (inContext
      (call.handler.behaviors call.handler.requestStreaming call.handler.responseStreaming)
      (authenticate interceptor call.details) call.request call.context call.current) := by
  simp only [Call.result, interceptService, Option.map_some]
  split
  · split <;> rfl
  · split <;> rfl

theorem Call.sees_iff {call : Call ι ε α} {seen : Option AuthContext} :
    call.Sees interceptor seen ↔
      ∃ auth, authenticate interceptor call.details call.context = some auth ∧
        seen = some auth := by
  unfold Call.Sees
  rw [Call.result_eq]
  unfold inContext
  cases authenticate interceptor call.details call.context with
  | none => simp
  | some auth => simp [eq_comm]

theorem authenticate_bypassed {call : Call ι ε α} (h : call.Bypasses interceptor) :
    authenticate interceptor call.details call.context = some {} := by
  have hhealth : isHealthCheck call.details = true := by simpa [isHealthCheck] using h.2
  simp [authenticate, authenticateBy, h.1, hhealth]

theorem authenticate_checked {call : Call ι ε α} (h : ¬ call.Bypasses interceptor)
    {auth : AuthContext} :
    authenticate interceptor call.details call.context = some auth ↔
      hasAuthorization call.details = false ∧ ∃ context identity, call.context = some context ∧
        Presents context identity ∧
        auth = ⟨true, some identity, some "mtls", [("cert_subject", .str identity)]⟩ := by
  have hhealth : (interceptor.bypassHealthChecks && isHealthCheck call.details) = false := by
    simpa [Call.Bypasses, isHealthCheck] using h
  simp only [authenticate, authenticateBy, hhealth, authenticateRequest, authenticateRequestSync]
  by_cases hplain : hasAuthorization call.details = true
  · simp [hplain]
  · rw [Bool.not_eq_true] at hplain
    cases hcontext : call.context with
    | none => simp [hplain, authenticateMtlsSync]
    | some context =>
      simp only [hplain, authenticateMtlsSync, Bool.false_eq_true, if_false]
      constructor
      · intro hauth
        cases hidentity : verifiedIdentity context with
        | none => simp [hidentity] at hauth
        | some identity =>
          refine ⟨trivial, context, identity, rfl, verifiedIdentity_eq_some.mp hidentity, ?_⟩
          simpa [hidentity, eq_comm] using hauth
      · rintro ⟨-, context', identity, hsame, hpresents, rfl⟩
        obtain rfl := Option.some.inj hsame
        simp [verifiedIdentity_eq_some.mpr hpresents]

theorem extractAuthContext_mtls {identity : String} (hne : identity ≠ "") :
    extractAuthContext
        (some ⟨true, some identity, some "mtls", [("cert_subject", .str identity)]⟩) =
      some ⟨identity, [], [("cert_subject", .str identity)]⟩ := by
  have htruthy : truthy (some identity) = some identity := truthy_eq_some.mpr ⟨rfl, hne⟩
  simp [extractAuthContext, htruthy, List.lookup_cons, listOf]

/-- What the handler of a call can be told about its caller. -/
inductive Learns (interceptor : Interceptor) (call : Call ι ε α) : Option Authorized → Prop
  | bypassed (h : call.Bypasses interceptor) : Learns interceptor call none
  | verified {context : ServicerContext} {identity : String}
      (hchecked : ¬ call.Bypasses interceptor)
      (hplain : hasAuthorization call.details = false) (hcontext : call.context = some context)
      (hpresents : Presents context identity) :
      Learns interceptor call (some ⟨identity, [], [("cert_subject", .str identity)]⟩)

theorem learns_of_sees {call : Call ι ε α} {seen : Option AuthContext}
    (h : call.Sees interceptor seen) : Learns interceptor call (extractAuthContext seen) := by
  obtain ⟨auth, hauth, rfl⟩ := Call.sees_iff.mp h
  by_cases hbypass : call.Bypasses interceptor
  · obtain rfl := Option.some.inj ((authenticate_bypassed hbypass).symm.trans hauth)
    exact .bypassed hbypass
  · obtain ⟨hplain, context, identity, hcontext, hpresents, rfl⟩ :=
      (authenticate_checked hbypass).mp hauth
    rw [extractAuthContext_mtls hpresents.nonempty]
    exact .verified hbypass hplain hcontext hpresents

/-- A transport presents at most one identity. -/
theorem Presents.unique {context : ServicerContext} {identity identity' : String}
    (h : Presents context identity) (h' : Presents context identity') : identity = identity' :=
  Option.some.inj
    ((verifiedIdentity_eq_some.mpr h).symm.trans (verifiedIdentity_eq_some.mpr h'))

/-- Two calls over the same transport, alike in whether they carry an authorization entry. -/
structure Alike (call call' : Call ι ε α) : Prop where
  context : call.context = call'.context
  authorization : hasAuthorization call.details = hasAuthorization call'.details

theorem Learns.unique {call call' : Call ι ε α} {a a' : Authorized} (halike : Alike call call')
    (h : Learns interceptor call (some a)) (h' : Learns interceptor call' (some a')) : a = a' := by
  cases h with
  | verified _ _ hcontext hpresents =>
    cases h' with
    | verified _ _ hcontext' hpresents' =>
      obtain rfl := Option.some.inj (hcontext.symm.trans (halike.context.trans hcontext'))
      rw [hpresents.unique hpresents']

/-- Whether a call that is not bypassed runs depends on the transport and on whether there is an
authorization entry. -/
theorem sees_of_alike {call call' : Call ι ε α} (halike : Alike call call')
    (hbypass : call.Bypasses interceptor ↔ call'.Bypasses interceptor) {seen : Option AuthContext}
    (h : call.Sees interceptor seen) : call'.Sees interceptor seen := by
  obtain ⟨auth, hauth, rfl⟩ := Call.sees_iff.mp h
  refine Call.sees_iff.mpr ⟨auth, ?_, rfl⟩
  by_cases hb : call.Bypasses interceptor
  · rw [authenticate_bypassed (hbypass.mp hb), ← authenticate_bypassed hb, hauth]
  · rw [authenticate_checked hb] at hauth
    rw [authenticate_checked (hbypass.not.mp hb), ← halike.authorization, ← halike.context]
    exact hauth

/-- A handler runs for a bypassed health call, which never passes `_extract_auth_context`, or for
a call without authorization entry whose transport presents one identity, and learns that
identity and no roles.  Two calls alike in transport and authorization entry run alike and
teach their handlers the same, whatever their other metadata is. -/
theorem authentication_noninterference (interceptor : Interceptor) :
    (∀ (call : Call ι ε α) seen, call.Sees interceptor seen →
      (call.Bypasses interceptor ∧ extractAuthContext seen = none) ∨
      (hasAuthorization call.details = false ∧ ∃ context identity, call.context = some context ∧
        Presents context identity ∧
        extractAuthContext seen = some ⟨identity, [], [("cert_subject", .str identity)]⟩)) ∧
    ∀ call call' : Call ι ε α, Alike call call' →
      (∀ seen seen' a a', call.Sees interceptor seen → call'.Sees interceptor seen' →
        extractAuthContext seen = some a → extractAuthContext seen' = some a' → a = a') ∧
      ((call.Bypasses interceptor ↔ call'.Bypasses interceptor) →
        ∀ seen, call.Sees interceptor seen ↔ call'.Sees interceptor seen) := by
  refine ⟨?_, ?_⟩
  · intro call seen hsees
    cases hlearned : extractAuthContext seen with
    | none =>
      have hlearns := hlearned ▸ learns_of_sees hsees
      cases hlearns with
      | bypassed h => exact .inl ⟨h, rfl⟩
    | some a =>
      have hlearns := hlearned ▸ learns_of_sees hsees
      cases hlearns with
      | verified _ hplain hcontext hpresents =>
        exact .inr ⟨hplain, _, _, hcontext, hpresents, rfl⟩
  · intro call call' halike
    refine ⟨?_, ?_⟩
    · intro seen seen' a a' hsees hsees' ha ha'
      exact (ha ▸ learns_of_sees hsees).unique halike (ha' ▸ learns_of_sees hsees')
    · intro hbypass seen
      have halike' : Alike call' call := ⟨halike.context.symm, halike.authorization.symm⟩
      exact ⟨sees_of_alike halike hbypass, sees_of_alike halike' hbypass.symm⟩

def aliceContext : ServicerContext where
  authContext := some [("transport_security_type", [ssl])]
  peerIdentityKey := some (some "x509_common_name")
  peerIdentities := some (some ["alice".toUTF8.toList, "alice".toUTF8.toList])

/-- A unary call over the transport of alice with a forged subject in its metadata. -/
def aliceCall : Call Unit Unit Unit where
  details := ⟨"/probe/call", [("x-client-cert-subject", "admin")]⟩
  handler := ⟨false, false, fun _ _ => ⟨true, fun _ _ => [fun _ => .ok ()]⟩⟩
  request := ()
  context := some aliceContext
  current := none

theorem authentication_noninterference_alice :
    ∃ seen, aliceCall.Sees {} seen ∧
      extractAuthContext seen = some ⟨"alice", [], [("cert_subject", .str "alice")]⟩ := by
  have hidentity : verifiedIdentity aliceContext = some "alice" := by decide +kernel
  have hbypass : ¬ aliceCall.Bypasses {} := by
    rintro ⟨-, h⟩
    exact absurd h (by decide)
  have hauth := (authenticate_checked hbypass).mpr
    ⟨by decide, _, _, rfl, verifiedIdentity_eq_some.mp hidentity, rfl⟩
  have hsees : aliceCall.Sees {} _ := Call.sees_iff.mpr ⟨_, hauth, rfl⟩
  refine ⟨_, hsees, ?_⟩
  obtain ⟨h, -⟩ | ⟨-, context, identity, hcontext, hpresents, hlearned⟩ :=
    (authentication_noninterference {}).1 aliceCall _ hsees
  · exact absurd h hbypass
  · obtain rfl : aliceContext = context := Option.some.inj hcontext
    rw [hlearned, hpresents.unique (verifiedIdentity_eq_some.mp hidentity)]

end Marty.Grpc.Boundary
