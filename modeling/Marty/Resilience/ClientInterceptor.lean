import Marty.Resilience.CircuitBreaker
import Marty.Resilience.Errors
import Marty.Resilience.Metrics

/-! The client interceptors.  A call is a loop of attempts; each asks the breaker of the service and
that of the method, goes to the continuation, and records how it went in both breakers and in the
metrics. -/

namespace Marty.Resilience.ClientInterceptor

open Lib CircuitBreaker Resilience.Errors Metrics

/-- The configuration of a breaker; `trips` is its error classifier. -/
structure BreakerConfig where
  config : Config := {}
  trips : Error → Bool := defaultTrips

structure RetryConfig where
  maxAttempts : Int := 5
  abortOn : Error → Bool := (·.isInstance ["ValueError", "TypeError", "KeyError"])
  retryOn : Error → Bool :=
    (·.isInstance ["TransientBackendError", "ConnectionError", "TimeoutError", "OSError"])
  breaker : Option BreakerConfig := some {}

def RetryConfig.isRetryableException (c : RetryConfig) (e : Error) : Bool :=
  !c.abortOn e && (c.retryOn e || exceptionIsTransient e)

/-- The synchronous and the asynchronous interceptor differ in the names of their metrics and in the
class of exceptions they have a handler for. -/
structure Interceptor where
  isAsync : Bool
  serviceName : String
  service : BreakerConfig := {}
  retry : RetryConfig := {}

/-- The configuration of the breaker of a method. -/
def methodConfig : BreakerConfig where
  config := { failureThreshold := 3, recoveryTimeout := 15 }

structure Breakers where
  service : Breaker
  methods : String → Option Breaker := fun _ => none
  retry : Breaker

structure State where
  breakers : Breakers
  metrics : Option MetricsCollector

/-- What the continuation (and `call.result()`) does. -/
inductive Outcome
  | returned
  | raised (e : Error)
  /-- Such as a cancellation. -/
  | baseException

/-- What an attempt meets: whether the time for the retries is over, what computing or sleeping the
delay raises, the times at which the breakers are asked and told, the exception for an open breaker,
the outcome, and what other calls do to the breakers in the meantime. -/
structure Attempt where
  expired : Bool := false
  delay : Option Error := none
  asked : Time
  told : Time
  opened : Error
  outcome : Outcome
  others : Breakers → Breakers := id

/-- An attempt that was made: how the continuation ended, if it was reached, and the outcomes that
were recorded in the breakers, `true` for a success. -/
structure Made where
  attempt : Nat
  outcome : Option Outcome := none
  service : List Bool := []
  method : List Bool := []

inductive Result
  | returned (attempt : Nat)
  | raised (e : Error)
  | baseException

namespace Interceptor

variable (x : Interceptor) (method : String)

def getMethodCircuitBreaker (s : State) (now : Time) : Breaker :=
  (s.breakers.methods method).getD (.init now)

def setMethod (b : Breaker) (s : State) : State :=
  { s with breakers.methods := Function.update s.breakers.methods method (some b) }

/-- Both breakers are told of a success. -/
def recordSuccess (now : Time) (s : State) : State :=
  let s := { s with breakers.service := s.breakers.service.recordSuccess x.service.config now }
  setMethod method ((getMethodCircuitBreaker method s now).recordSuccess methodConfig.config now) s

def recordFailure (now : Time) (e : Error) (s : State) : State :=
  let s := { s with
    breakers.service := s.breakers.service.recordFailure x.service.config now (x.service.trips e) }
  setMethod method ((getMethodCircuitBreaker method s now).recordFailure methodConfig.config now
    (methodConfig.trips e)) s

def isRpcError (e : Error) : Bool :=
  e.isInstance [if x.isAsync then "AioRpcError" else "RpcError"]

def shouldRetryGrpcError (e : Error) : Bool :=
  e.code.any (· ∈ [StatusCode.unavailable, .deadlineExceeded, .resourceExhausted, .aborted,
    .internal])

def metricName (name : String) : String :=
  (if x.isAsync then "grpc_async_client_" else "grpc_client_") ++ name

/-- The labels are passed where `increment_counter` expects the value.  The result says whether the
call raises; an error without a code is passed over. -/
def recordRequestMetrics (m : MetricsCollector) (start now : Time) (success : Bool)
    (e : Option Error) : MetricsCollector × Bool :=
  let labels := [("service", x.serviceName), ("method", method),
    ("success", if success then "True" else "False")]
  let counted := m.incrementCounter (x.metricName "requests_total") (.labels labels) [] now
  if counted.2 then counted
  else
    let m := counted.1.observeHistogram (x.metricName "request_duration_ms") ((now - start) * 1000)
      labels now
    match (e.filter x.isRpcError).bind fun e => e.code.map (e.typeName, ·.name) with
    | some (typeName, code) =>
      m.incrementCounter (x.metricName "errors_total")
        (.labels (labels ++ [("error_type", typeName), ("grpc_code", code)])) [] now
    | none => (m, false)

/-- The same, where metrics may be disabled. -/
def record (start now : Time) (success : Bool) (e : Option Error) (s : State) : State × Bool :=
  match s.metrics with
  | none => (s, false)
  | some m =>
    let recorded := x.recordRequestMetrics method m start now success e
    ({ s with metrics := some recorded.1 }, recorded.2)

/-- The two handlers of `make_call`: the state, what they record in either breaker, and the
exception that leaves. -/
def handle (start now : Time) (e : Error) (s : State) : State × List Bool × Error :=
  let tell := !x.isRpcError e || shouldRetryGrpcError e
  let s := if tell then x.recordFailure method now e s else s
  let recorded := x.record method start now false (some e) s
  (recorded.1, if tell then [false] else [], if recorded.2 then typeError else e)

/-- `make_call` once the breakers have let it pass. -/
def callContinuation (start : Time) (n : Nat) (a : Attempt) (s : State) : State × Made × Result :=
  match a.outcome with
  | .returned =>
    let s := x.recordSuccess method a.told s
    let recorded := x.record method start a.told true none s
    if recorded.2 then
      -- The exception of the metrics is handled like one of the call.
      let handled := x.handle method start a.told typeError recorded.1
      (handled.1, ⟨n, some .returned, true :: handled.2.1, true :: handled.2.1⟩,
        .raised handled.2.2)
    else (recorded.1, ⟨n, some .returned, [true], [true]⟩, .returned n)
  | .raised e =>
    let handled := x.handle method start a.told e s
    (handled.1, ⟨n, some (.raised e), handled.2.1, handled.2.1⟩, .raised handled.2.2)
  | .baseException => (s, ⟨n, some .baseException, [], []⟩, .baseException)

def makeCall (start : Time) (n : Nat) (a : Attempt) (s : State) : State × Made × Result :=
  let service := s.breakers.service.allowRequest x.service.config a.asked
  let s := { s with breakers.service := service.2 }
  if !service.1 then (s, { attempt := n }, .raised a.opened)
  else
    let breaker :=
      (getMethodCircuitBreaker method s a.asked).allowRequest methodConfig.config a.asked
    let s := setMethod method breaker.2 s
    if !breaker.1 then (s, { attempt := n }, .raised a.opened)
    else x.callContinuation method start n a { s with breakers := a.others s.breakers }

/-- The breaker of the retry manager, if it has one, is told of the end of an attempt. -/
def tellRetry (now : Time) (e : Option Error) (s : State) : State :=
  match x.retry.breaker with
  | none => s
  | some c =>
    { s with breakers.retry := match e with
        | none => s.breakers.retry.recordSuccess c.config now
        | some e => s.breakers.retry.recordFailure c.config now (c.trips e) }

/-- The part of the loop that may raise: the delay of a retry, and the call. -/
def attemptCall (start : Time) (n : Nat) (a : Attempt) (s : State) : State × List Made × Result :=
  match if n = 0 then none else a.delay with
  | some e => (s, [], .raised e)
  | none =>
    let called := x.makeCall method start n a s
    (called.1, [called.2.1], called.2.2)

/-- The loop of `retry_sync` and `retry_async`, before attempt `n` and with `left` attempts left. -/
def retryLoop (start : Time) (attempts : Nat → Attempt) :
    (left n : Nat) → State → State × List Made × Result
  | 0, _, s => (s, [], .raised runtimeError)
  | left + 1, n, s =>
    let a := attempts n
    if a.expired then (s, [], .raised runtimeError)
    else
      let called := x.attemptCall method start n a s
      match called.2.2 with
      | .returned n => (x.tellRetry a.told none called.1, called.2.1, .returned n)
      | .baseException => (called.1, called.2.1, .baseException)
      | .raised e =>
        let s := x.tellRetry a.told (some e) called.1
        if !x.retry.isRetryableException e || left = 0 then (s, called.2.1, .raised e)
        else
          let rest := retryLoop start attempts left (n + 1) s
          (rest.1, called.2.1 ++ rest.2.1, rest.2.2)

def checkCircuitBreaker (now : Time) (s : State) : Bool × State :=
  match x.retry.breaker with
  | none => (true, s)
  | some c =>
    let allowed := s.breakers.retry.allowRequest c.config now
    (allowed.1, { s with breakers.retry := allowed.2 })

def interceptUnaryUnary (start : Time) (attempts : Nat → Attempt) (s : State) :
    State × List Made × Result :=
  let checked := x.checkCircuitBreaker start
    (setMethod method (getMethodCircuitBreaker method s start) s)
  if checked.1 then x.retryLoop method start attempts x.retry.maxAttempts.toNat 0 checked.2
  else (checked.2, [], .raised runtimeError)

end Interceptor

end Marty.Resilience.ClientInterceptor
