import Mathlib.Data.List.Dedup
import Marty.Lib.Json
import Marty.Lib.Text

/-! `AuthServerInterceptor` and the authorization context that handlers read.  A handler is the
sequence of pieces it runs in; each piece sees the context variable of its request and yields
an item or raises. -/

universe u v w

namespace Marty.Grpc.Auth

open Lib Lib.Text

abbrev Bytes := List UInt8

/-- `bytes.decode("utf-8")`; `none` where it raises. -/
def decodeUtf8 (bytes : Bytes) : Option String := String.fromUTF8? ⟨bytes.toArray⟩

structure AuthContext where
  authenticated : Bool := false
  identity : Option String := none
  authMethod : Option String := none
  claims : List (String × Json) := []

structure HandlerCallDetails where
  method : String
  invocationMetadata : List (String × String) := []

/-- The `ServicerContext` of a call; an answer is `none` when asking for it raises. -/
structure ServicerContext where
  authContext : Option (List (String × List Bytes))
  peerIdentityKey : Option (Option String)
  peerIdentities : Option (Option (List Bytes))

structure Interceptor where
  bypassHealthChecks : Bool := true

def healthMethods : List String :=
  ["/grpc.health.v1.Health/Check", "/grpc.health.v1.Health/Watch"]

def isHealthCheck (details : HandlerCallDetails) : Bool := details.method ∈ healthMethods

def x509Keys : List (Option String) :=
  [some "x509_subject_alternative_name", some "x509_common_name", some "x509_subject"]

/-- The bytes of `ssl`. -/
def ssl : Bytes := [0x73, 0x73, 0x6c]

/-- The identity the transport vouches for; `none` where a check fails or a call raises. -/
def verifiedIdentity (context : ServicerContext) : Option String := do
  let transport ← context.authContext
  if ssl ∉ (transport.lookup "transport_security_type").getD [] then none
  else
    let key ← context.peerIdentityKey
    if key ∉ x509Keys then none
    else
      match ← context.peerIdentities with
      | none => none
      | some [] => none
      | some (first :: rest) =>
        if (first :: rest).dedup.length ≠ 1 then none
        else
          let identity ← decodeUtf8 first
          if identity = "" then none else some identity

def authenticateMtlsSync : Option ServicerContext → AuthContext
  | none => {}
  | some context =>
    match verifiedIdentity context with
    | none => {}
    | some identity => ⟨true, some identity, some "mtls", [("cert_subject", .str identity)]⟩

def hasAuthorization (details : HandlerCallDetails) : Bool :=
  details.invocationMetadata.any fun entry => lower entry.1 = "authorization"

def authenticateRequestSync (details : HandlerCallDetails) (context : Option ServicerContext) :
    AuthContext :=
  if hasAuthorization details then {} else authenticateMtlsSync context

/-- The asynchronous form only wraps the synchronous one. -/
def authenticateRequest (details : HandlerCallDetails) (context : Option ServicerContext) :
    AuthContext := authenticateRequestSync details context

/-- `none` when the call is aborted with `UNAUTHENTICATED`. -/
def authenticateBy (interceptor : Interceptor) (details : HandlerCallDetails) (auth : AuthContext) :
    Option AuthContext :=
  if interceptor.bypassHealthChecks && isHealthCheck details then some {}
  else if !auth.authenticated then none
  else some auth

def authenticate (interceptor : Interceptor) (details : HandlerCallDetails)
    (context : Option ServicerContext) : Option AuthContext :=
  authenticateBy interceptor details (authenticateRequest details context)

def authenticateSync (interceptor : Interceptor) (details : HandlerCallDetails)
    (context : Option ServicerContext) : Option AuthContext :=
  authenticateBy interceptor details (authenticateRequestSync details context)

/-- A behaviour of a handler; that of a unary response is one piece. -/
structure Behavior (ι : Type u) (ε : Type v) (α : Type w) where
  asynchronous : Bool
  invoke : ι → Option ServicerContext → List (Option AuthContext → Except ε α)

/-- The attributes `unary_unary` to `stream_stream`, by the two flags. -/
structure RpcMethodHandler (ι : Type u) (ε : Type v) (α : Type w) where
  requestStreaming : Bool
  responseStreaming : Bool
  behaviors : Bool → Bool → Behavior ι ε α

variable {ι : Type u} {ε : Type v} {α : Type w}

/-- The items up to the first piece that raises. -/
def runPieces (current : Option AuthContext) :
    List (Option AuthContext → Except ε α) → List α × Option ε
  | [] => ([], none)
  | piece :: pieces =>
    match piece current with
    | .error exc => ([], some exc)
    | .ok item =>
      let (items, raised) := runPieces current pieces
      (item :: items, raised)

/-- What becomes of a call.  `seen` is the context variable while the handler runs. -/
inductive Outcome (ε : Type v) (α : Type w)
  | aborted
  | ran (seen : Option AuthContext) (items : List α) (raised : Option ε)

/-- A wrapper of the interceptor: it takes the request, the context and the context variable,
and leaves the variable in the state it found it in. -/
abbrev Wrapped (ι : Type u) (ε : Type v) (α : Type w) :=
  ι → Option ServicerContext → Option AuthContext → Outcome ε α × Option AuthContext

def inContext (behavior : Behavior ι ε α) (auth : Option ServicerContext → Option AuthContext) :
    Wrapped ι ε α := fun request context current =>
  match auth context with
  | none => (.aborted, current)
  | some auth =>
    let (items, raised) := runPieces (some auth) (behavior.invoke request context)
    (.ran (some auth) items raised, current)

variable (interceptor : Interceptor) (details : HandlerCallDetails) (behavior : Behavior ι ε α)

def unary : Wrapped ι ε α := inContext behavior (authenticate interceptor details)

def streaming : Wrapped ι ε α := inContext behavior (authenticate interceptor details)

def syncUnary : Wrapped ι ε α := inContext behavior (authenticateSync interceptor details)

def syncStreaming : Wrapped ι ε α := inContext behavior (authenticateSync interceptor details)

/-- The handler with its behaviour wrapped, when the service has one. -/
def interceptService (handler : Option (RpcMethodHandler ι ε α)) : Option (Wrapped ι ε α) :=
  handler.map fun handler =>
    let behavior := handler.behaviors handler.requestStreaming handler.responseStreaming
    if behavior.asynchronous then
      if handler.responseStreaming then streaming interceptor details behavior
      else unary interceptor details behavior
    else if handler.responseStreaming then syncStreaming interceptor details behavior
    else syncUnary interceptor details behavior

/-- What the policy engine is asked about. -/
structure Authorized where
  identity : String
  roles : List Json
  attributes : List (String × Json)

/-- `list(value)`; `none` where the value cannot be iterated. -/
def listOf : Json → Option (List Json)
  | .arr items => some items
  | .obj entries => some (entries.map fun entry => .str entry.1)
  | .str s => some (s.toList.map fun c => .str (String.singleton c))
  | _ => none

/-- `none` when it raises. -/
def extractAuthContext (current : Option AuthContext) : Option Authorized := do
  let auth ← current
  if !auth.authenticated then none
  else
    let identity ← truthy auth.identity
    let roles ← listOf ((auth.claims.lookup "roles").getD (.arr []))
    some ⟨identity, roles, auth.claims.filter fun claim =>
      claim.1 ∉ ["sub", "user_id", "roles"]⟩

end Marty.Grpc.Auth
