import Mathlib.Algebra.Order.Ring.Rat
import Mathlib.Algebra.BigOperators.Group.List.Basic
import Mathlib.Logic.Function.Iterate
import Marty.Lib.Dict
import Marty.Resilience.ClientInterceptor

/-! `AdvancedRetryManager`: the delays between attempts, the metrics of the attempts and the loop of
`retry_sync` and `retry_async`, in exact arithmetic.  The breaker is asked once, before the first
attempt, and told of the end of each. -/

namespace Marty.Resilience.AdvancedRetry

open Lib CircuitBreaker Resilience.Errors
open ClientInterceptor (BreakerConfig)

inductive BackoffStrategy
  | fixed | linear | exponential | exponentialJitter | fibonacci | polynomial | adaptive
  deriving DecidableEq

structure AdvancedRetryConfig where
  maxAttempts : Int := 5
  baseDelay : Time := 1 / 10
  maxDelay : Time := 60
  totalTimeout : Time := 300
  backoffStrategy : BackoffStrategy := .exponentialJitter
  jitterFactor : ℚ := 1 / 10
  multiplier : ℚ := 2
  retryOnExceptions : List String :=
    ["TransientBackendError", "ConnectionError", "TimeoutError", "OSError"]
  abortOnExceptions : List String := ["ValueError", "TypeError", "KeyError"]
  enableCircuitBreaker : Bool := true
  circuitBreakerConfig : Option BreakerConfig := none
  enableAdaptiveDelays : Bool := false
  successRateThreshold : ℚ := 8 / 10

namespace AdvancedRetryConfig

variable (c : AdvancedRetryConfig)

/-- The configuration of the manager's breaker. -/
def breakerConfig : BreakerConfig := c.circuitBreakerConfig.getD {}

def isRetryableException (e : Error) : Bool :=
  if e.isInstance c.abortOnExceptions then false
  else if e.isInstance c.retryOnExceptions then true
  else exceptionIsTransient e

end AdvancedRetryConfig

def windowSize : Nat := 100

/-- Append an entry to a window; the oldest one falls out of a full window. -/
def remember {α : Type} (entry : α) (window : List α) : List α :=
  if (window ++ [entry]).length > windowSize then (window ++ [entry]).tail else window ++ [entry]

/-- `minDelay` is absent where the source has an infinity. -/
structure AdvancedRetryMetrics where
  totalAttempts : Nat := 0
  totalRetries : Nat := 0
  successfulOperations : Nat := 0
  failedOperations : Nat := 0
  circuitBreakerRejections : Nat := 0
  totalDelayTime : Time := 0
  totalExecutionTime : Time := 0
  minDelay : Option Time := none
  maxDelay : Time := 0
  recentOutcomes : List Bool := []
  recentDelays : List Time := []
  exceptionCounts : List (String × Nat) := []

namespace AdvancedRetryMetrics

variable (m : AdvancedRetryMetrics)

def recordAttempt (delay : Time) : AdvancedRetryMetrics :=
  let m := { m with totalAttempts := m.totalAttempts + 1 }
  if delay > 0 then
    { m with
      totalRetries := m.totalRetries + 1
      totalDelayTime := m.totalDelayTime + delay
      minDelay := some (m.minDelay.elim delay (min · delay))
      maxDelay := max m.maxDelay delay
      recentDelays := remember delay m.recentDelays }
  else m

def recordException (e : Error) : AdvancedRetryMetrics :=
  { m with
    exceptionCounts := Dict.set e.typeName ((m.exceptionCounts.lookup e.typeName).getD 0 + 1)
      m.exceptionCounts }

def recordOutcome (success : Bool) (executionTime : Time) : AdvancedRetryMetrics :=
  { m with
    successfulOperations := m.successfulOperations + if success then 1 else 0
    failedOperations := m.failedOperations + if success then 0 else 1
    totalExecutionTime := m.totalExecutionTime + executionTime
    recentOutcomes := remember success m.recentOutcomes }

def recordCircuitBreakerRejection : AdvancedRetryMetrics :=
  { m with circuitBreakerRejections := m.circuitBreakerRejections + 1 }

def getSuccessRate : ℚ :=
  if m.recentOutcomes = [] then 1 else m.recentOutcomes.count true / m.recentOutcomes.length

def getAverageDelay : Time :=
  if m.recentDelays = [] then 0 else m.recentDelays.sum / m.recentDelays.length

end AdvancedRetryMetrics

/-- The pair of the loop after `n` rounds, from `1, 1`. -/
def fibonacciPair (n : Nat) : Nat × Nat := (fun p : Nat × Nat => (p.2, p.1 + p.2))^[n] (1, 1)

def fibonacci (n : Nat) : Nat := if n ≤ 2 then 1 else (fibonacciPair (n - 2)).2

namespace AdvancedRetryConfig

variable (c : AdvancedRetryConfig) (m : AdvancedRetryMetrics)

def adaptiveDelay (attempt : Nat) (baseDelay : Time) : Time :=
  if !c.enableAdaptiveDelays then baseDelay * c.multiplier ^ (attempt - 1)
  else
    let successRate := m.getSuccessRate
    let avgDelay := m.getAverageDelay
    let baseDelay :=
      if successRate < c.successRateThreshold then baseDelay * (1 + (1 - successRate))
      else baseDelay
    let baseDelay :=
      if avgDelay > 0 ∧ avgDelay < c.maxDelay then (baseDelay + avgDelay) / 2 else baseDelay
    min (baseDelay * c.multiplier ^ (attempt - 1)) c.maxDelay

/-- What `secrets.randbelow(1000)` gives for the strategy and for the jitter. -/
structure Draws where
  strategy : Fin 1000 := 0
  jitter : Fin 1000 := 0

def strategyDelay (draws : Draws) (attempt : Nat) (baseDelay : Time) : Time :=
  match c.backoffStrategy with
  | .fixed => baseDelay
  | .linear => baseDelay * attempt
  | .exponential => baseDelay * c.multiplier ^ (attempt - 1)
  | .fibonacci => baseDelay * fibonacci attempt
  | .polynomial => baseDelay * attempt ^ 2
  | .adaptive => c.adaptiveDelay m attempt baseDelay
  | .exponentialJitter =>
    let exponential := baseDelay * c.multiplier ^ (attempt - 1)
    exponential + exponential * c.jitterFactor * (draws.strategy.val / 1000)

def calculateDelay (draws : Draws) (attempt : Nat) (baseDelay : Time) : Time :=
  if attempt ≤ 1 then 0
  else
    let delay := c.strategyDelay m draws attempt baseDelay
    let delay :=
      if c.backoffStrategy ≠ .adaptive ∧ c.jitterFactor > 0 then
        delay + delay * c.jitterFactor * (draws.jitter.val / 1000)
      else delay
    min delay c.maxDelay

end AdvancedRetryConfig

/-- A manager without its state, for one of the two copies of the loop. -/
structure AdvancedRetryManager where
  name : String
  isAsync : Bool
  config : AdvancedRetryConfig := {}

structure State where
  metrics : AdvancedRetryMetrics := {}
  circuitBreaker : Option Breaker

/-- What a round of the loop meets: the clock at the check of the timeout, when `func` is called,
when it has ended and when the breaker is told; the draws for the delay; and what `func` does. -/
structure Attempt (α : Type) where
  checked : Time
  draws : AdvancedRetryConfig.Draws := {}
  started : Time
  outcome : Except Error α
  ended : Time
  told : Time

/-- What can be seen of a call: `func` is invoked, with the breaker as it is then, an outcome is
recorded in the metrics, and the breaker is told of a failure or of a success. -/
inductive Event
  | invoked (attempt : Nat) (now : Time) (breaker : Option Breaker)
  | outcome (success : Bool)
  | failure (attempt : Nat)
  | success (attempt : Nat)

/-- How a call ends; a `RuntimeError` of the manager itself is apart from what `func` raises. -/
inductive Result (α : Type)
  | returned (value : α)
  | raised (e : Error)
  | runtimeError (message : String)

structure Run (α : Type) where
  state : State
  events : List Event
  result : Result α

def Run.after {α : Type} (events : List Event) (r : Run α) : Run α :=
  { r with events := events ++ r.events }

namespace AdvancedRetryManager

variable {α : Type} (x : AdvancedRetryManager)

def init (now : Time) : State where
  circuitBreaker := if x.config.enableCircuitBreaker then some (.init now) else none

def checkCircuitBreaker (now : Time) (s : State) : Bool × State :=
  match s.circuitBreaker with
  | none => (true, s)
  | some b =>
    let asked := b.allowRequest x.config.breakerConfig.config now
    let s := { s with circuitBreaker := some asked.2 }
    if asked.1 then (true, s)
    else (false, { s with metrics := s.metrics.recordCircuitBreakerRejection })

/-- The breaker, if there is one, is told of an attempt. -/
def tell (event : Event) (s : State) : List Event := s.circuitBreaker.toList.map fun _ => event

/-- The delay before an attempt, added to those before it. -/
def delay (n : Nat) (a : Attempt α) (p : State × Time) : State × Time :=
  if n > 1 then
    let delay := x.config.calculateDelay p.1.metrics a.draws n x.config.baseDelay
    if delay > 0 then
      ({ p.1 with metrics := p.1.metrics.recordAttempt delay }, p.2 + delay)
    else p
  else ({ p.1 with metrics := p.1.metrics.recordAttempt 0 }, p.2)

def succeed (a : Attempt α) (s : State) : State where
  metrics := s.metrics.recordOutcome true (a.ended - a.started)
  circuitBreaker :=
    s.circuitBreaker.map (·.recordSuccess x.config.breakerConfig.config a.told)

def fail (a : Attempt α) (e : Error) (s : State) : State where
  metrics := s.metrics.recordException e
  circuitBreaker := s.circuitBreaker.map
    (·.recordFailure x.config.breakerConfig.config a.told (x.config.breakerConfig.trips e))

def giveUp (a : Attempt α) (s : State) : State :=
  { s with metrics := s.metrics.recordOutcome false (a.ended - a.started) }

def exhaustedMessage : String :=
  "All " ++ toString x.config.maxAttempts ++ (if x.isAsync then " async retry" else " retry") ++
    " attempts exhausted for " ++ x.name

/-- All retries are exhausted. -/
def exhausted (start finish : Time) (s : State) : Run α where
  state := { s with metrics := s.metrics.recordOutcome false (finish - start) }
  events := [.outcome false]
  result := .runtimeError x.exhaustedMessage

variable (start finish : Time) (attempts : Nat → Attempt α)

/-- The timeout check of an attempt, with the delays before it. -/
def timedOut (a : Attempt α) (totalDelay : Time) : Bool :=
  a.checked - start + totalDelay > x.config.totalTimeout

/-- The loop before attempt `n`, with `left` attempts left; beside the state it has the delays so
far. -/
def retryLoop : (left n : Nat) → State × Time → Run α
  | 0, _, p => x.exhausted start finish p.1
  | left + 1, n, p =>
    let a := attempts n
    if x.timedOut start a p.2 then x.exhausted start finish p.1
    else
      let p := x.delay n a p
      let invoked := Event.invoked n a.started p.1.circuitBreaker
      match a.outcome with
      | .ok value =>
        ⟨x.succeed a p.1, invoked :: .outcome true :: tell (.success n) p.1, .returned value⟩
      | .error e =>
        let s := x.fail a e p.1
        let events := invoked :: tell (.failure n) p.1
        if !x.config.isRetryableException e || left = 0 then
          ⟨giveUp a s, events ++ [.outcome false], .raised e⟩
        else (retryLoop left (n + 1) (s, p.2)).after events

/-- `retry_sync` and `retry_async`; the breaker is asked at `asked`. -/
def retry (asked : Time) (s : State) : Run α :=
  let checked := x.checkCircuitBreaker asked s
  if checked.1 then
    x.retryLoop start finish attempts x.config.maxAttempts.toNat 1 (checked.2, 0)
  else ⟨checked.2, [], .runtimeError ("Circuit breaker for " ++ x.name ++ " is open")⟩

end AdvancedRetryManager

end Marty.Resilience.AdvancedRetry
