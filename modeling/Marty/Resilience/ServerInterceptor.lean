import Mathlib.Algebra.BigOperators.Group.List.Defs
import Mathlib.Algebra.Order.Field.Rat
import Marty.Lib.Dict
import Marty.Resilience.CircuitBreaker
import Marty.Resilience.Errors

/-! `EnhancedResilienceInterceptor` on one method.  The four wrappers do the same up to the handler
and after it; they differ in how a handler may end.  `context.abort` raises. -/

namespace Marty.Resilience.ServerInterceptor

open Lib CircuitBreaker Resilience.Errors

structure RequestMetrics where
  totalRequests : Nat := 0
  successfulRequests : Nat := 0
  failedRequests : Nat := 0
  circuitBreakerRejections : Nat := 0
  injectedFailures : Nat := 0
  errorCountsByType : List (String × Nat) := []
  lastRequestTime : Time := 0
  averageResponseTime : ℚ := 0
  responseTimes : List ℚ := []

namespace RequestMetrics

variable (m : RequestMetrics)

def recordRequestStart (now : Time) : RequestMetrics :=
  { m with totalRequests := m.totalRequests + 1, lastRequestTime := now }

/-- The average is over the last 100 times. -/
def recordResponseTime (start now : Time) : RequestMetrics :=
  let times := m.responseTimes ++ [now - start]
  let times := if times.length > 100 then times.tail else times
  { m with responseTimes := times, averageResponseTime := times.sum / times.length }

def recordRequestSuccess (start now : Time) : RequestMetrics :=
  { m with successfulRequests := m.successfulRequests + 1 }.recordResponseTime start now

def recordRequestFailure (start now : Time) (errorType : String) (isInjected : Bool := false) :
    RequestMetrics :=
  { m with
    failedRequests := m.failedRequests + 1
    injectedFailures := if isInjected then m.injectedFailures + 1 else m.injectedFailures
    errorCountsByType := Dict.set errorType ((m.errorCountsByType.lookup errorType).getD 0 + 1)
      m.errorCountsByType }.recordResponseTime start now

def recordCircuitBreakerRejection : RequestMetrics :=
  { m with circuitBreakerRejections := m.circuitBreakerRejections + 1 }

end RequestMetrics

structure FailureInjection where
  enabled : Bool := false
  baseFailureRate : ℚ := 0
  methodSpecificRates : List (String × ℚ) := []

/-- `random` is what `random.random()` returns. -/
def FailureInjection.shouldFail (c : FailureInjection) (method : String) (force : Bool)
    (random : ℚ) : Bool :=
  c.enabled &&
    (force || random < (c.methodSpecificRates.lookup method).getD (max 0 (min 1 c.baseFailureRate)))

structure Interceptor where
  failureInjection : FailureInjection := {}
  breaker : Config := {}
  trips : Error → Bool := defaultTrips
  method : String

/-- Whether an exception of a handler counts for the breaker, and under which name for the
metrics. -/
def classifyError (e : Error) : Bool × String :=
  if e.isInstance ["ValueError", "TypeError"] then (false, e.typeName)
  else
    match e.category with
    | some category =>
      (category = .transient ∨ category = .internal, "MartyError." ++ category.value)
    | none => (true, e.typeName)

inductive Shape
  | unaryUnary | unaryStream | streamUnary | streamStream

def Shape.streams : Shape → Bool
  | .unaryStream | .streamStream => true
  | .unaryUnary | .streamUnary => false

inductive Ending
  | value
  | exhausted
  | rpcError
  | exception (e : Error)
  | cancelled
  /-- The response stream is closed before its end. -/
  | closed

/-- A response is a value or a stream. -/
def Ending.possible (shape : Shape) : Ending → Bool
  | .value => !shape.streams
  | .exhausted | .closed => shape.streams
  | .rpcError | .exception _ | .cancelled => true

inductive Phase
  | started | admitted | handling
  | counted
  /-- Ended without a counter. -/
  | left
  deriving DecidableEq

structure Request where
  shape : Shape
  start : Time
  phase : Phase := .started

structure State where
  breaker : Breaker
  metrics : RequestMetrics := {}
  requests : List Request := []

inductive Label
  | request (shape : Shape) (now : Time)
  | allow (i : Nat) (now : Time)
  /-- `error` is the error to inject, `none` when its class cannot be called with a message. -/
  | inject (i : Nat) (force : Bool) (random : ℚ) (error : Option Error) (now : Time)
  | item (i : Nat)
  | finish (i : Nat) (ending : Ending) (now : Time)

/-- The handler has ended: the breaker, the metrics and what has become of the request. -/
def Interceptor.afterHandler (x : Interceptor) (s : State) (start now : Time) :
    Ending → Breaker × RequestMetrics × Phase
  | .value | .exhausted =>
    (s.breaker.recordSuccess x.breaker now, s.metrics.recordRequestSuccess start now, .counted)
  | .rpcError =>
    (s.breaker, s.metrics.recordRequestFailure start now "gRPC.RpcError", .counted)
  | .exception e =>
    let breaker := if (classifyError e).1 then s.breaker.recordFailure x.breaker now (x.trips e)
      else s.breaker
    (breaker, s.metrics.recordRequestFailure start now (classifyError e).2, .counted)
  | .cancelled | .closed => (s.breaker, s.metrics, .left)

/-- Before the handler: an injected failure, if there is to be one. -/
def Interceptor.beforeHandler (x : Interceptor) (s : State) (start now : Time) (force : Bool)
    (random : ℚ) (error : Option Error) : Breaker × RequestMetrics × Phase :=
  if x.failureInjection.shouldFail x.method force random then
    match error with
    | none => (s.breaker, s.metrics, .left)
    | some e =>
      (s.breaker.recordFailure x.breaker now (x.trips e),
        s.metrics.recordRequestFailure start now e.typeName true, .counted)
  else (s.breaker, s.metrics, .handling)

/-- The request is admitted or rejected. -/
def Interceptor.atBreaker (x : Interceptor) (s : State) (now : Time) :
    Breaker × RequestMetrics × Phase :=
  let asked := s.breaker.allowRequest x.breaker now
  if asked.1 then (asked.2, s.metrics, .admitted)
  else (asked.2, s.metrics.recordCircuitBreakerRejection, .counted)

def State.moved (s : State) (i : Nat) (r : Request) (next : Breaker × RequestMetrics × Phase) :
    State :=
  ⟨next.1, next.2.1, s.requests.set i { r with phase := next.2.2 }⟩

def step (x : Interceptor) (s : State) : Label → Option State
  | .request shape now =>
    some { s with
      metrics := s.metrics.recordRequestStart now
      requests := s.requests ++ [⟨shape, now, .started⟩] }
  | .allow i now =>
    match s.requests[i]? with
    | some r => if r.phase = .started then some (s.moved i r (x.atBreaker s now)) else none
    | none => none
  | .inject i force random error now =>
    match s.requests[i]? with
    | some r =>
      if r.phase = .admitted then
        some (s.moved i r (x.beforeHandler s r.start now force random error))
      else none
    | none => none
  | .item i =>
    match s.requests[i]? with
    | some r => if r.phase = .handling ∧ r.shape.streams then some s else none
    | none => none
  | .finish i ending now =>
    match s.requests[i]? with
    | some r =>
      if r.phase = .handling ∧ ending.possible r.shape then
        some (s.moved i r (x.afterHandler s r.start now ending))
      else none
    | none => none

end Marty.Resilience.ServerInterceptor
