import Mathlib.Data.Rat.Defs
import Marty.Lib.Pool
import Marty.Lib.Run

/-! `CircuitBreaker` and the calls its wrappers guard.  A call goes through the breaker's lock
three times: to ask for admission, to take a slot, and to record its outcome.  Each of these is
one step, so that calls interleave exactly at their lock acquisitions. -/

namespace Marty.Resilience.CircuitBreaker

inductive CircuitBreakerState
  | closed | opened | halfOpen
  deriving DecidableEq

/-- Seconds, as `time.time()` counts them. -/
abbrev Time := ℚ

structure Config where
  failureThreshold : Int := 5
  recoveryTimeout : Time := 30
  halfOpenSuccessThreshold : Int := 2
  failureResetTimeout : Time := 60
  maxConcurrentRequests : Int := 10

structure Breaker where
  state : CircuitBreakerState := .closed
  failureCount : Int := 0
  successCount : Int := 0
  openedAt : Time := 0
  lastFailureAt : Time := 0
  totalRequests : Nat := 0
  totalFailures : Nat := 0
  totalSuccesses : Nat := 0
  totalRejected : Nat := 0
  concurrentRequests : Int := 0
  lastStateChange : Time
  stateDurations : CircuitBreakerState → Time := fun _ => 0

namespace Breaker

def init (now : Time) : Breaker := { lastStateChange := now }

def transitionTo (b : Breaker) (newState : CircuitBreakerState) (now : Time) : Breaker :=
  if b.state = newState then b
  else
    { b with
      stateDurations := Function.update b.stateDurations b.state
        (b.stateDurations b.state + (now - b.lastStateChange))
      state := newState
      lastStateChange := now }

variable (c : Config)

def canMakeRequest (b : Breaker) : Bool × Breaker :=
  if b.concurrentRequests ≥ c.maxConcurrentRequests then
    (false, { b with totalRejected := b.totalRejected + 1 })
  else (true, b)

def allowRequest (now : Time) (b : Breaker) : Bool × Breaker :=
  match b.state with
  | .opened =>
    if now - b.openedAt ≥ c.recoveryTimeout then
      canMakeRequest c { b.transitionTo .halfOpen now with failureCount := 0, successCount := 0 }
    else (false, { b with totalRejected := b.totalRejected + 1 })
  | .halfOpen => canMakeRequest c b
  | .closed =>
    if b.failureCount > 0 ∧ now - b.lastFailureAt > c.failureResetTimeout then
      canMakeRequest c { b with failureCount := 0 }
    else canMakeRequest c b

/-- The second critical section of a wrapper. -/
def takeSlot (b : Breaker) : Breaker :=
  { b with
    totalRequests := b.totalRequests + 1
    concurrentRequests := b.concurrentRequests + 1 }

def releaseSlot (b : Breaker) : Breaker :=
  { b with concurrentRequests := max 0 (b.concurrentRequests - 1) }

def recordSuccess (now : Time) (b : Breaker) : Breaker :=
  let b := { b.releaseSlot with totalSuccesses := b.totalSuccesses + 1 }
  match b.state with
  | .halfOpen =>
    let b := { b with successCount := b.successCount + 1 }
    if b.successCount ≥ c.halfOpenSuccessThreshold then
      { b.transitionTo .closed now with failureCount := 0, successCount := 0 }
    else b
  | _ => b

/-- `trips` is false when there is an exception that the classifier lets pass. -/
def recordFailure (now : Time) (trips : Bool) (b : Breaker) : Breaker :=
  let b := b.releaseSlot
  if !trips then b
  else
    let b := { b with totalFailures := b.totalFailures + 1, lastFailureAt := now }
    match b.state with
    | .halfOpen =>
      { b.transitionTo .opened now with openedAt := now, failureCount := 1, successCount := 0 }
    | .closed =>
      let b := { b with failureCount := b.failureCount + 1 }
      if b.failureCount ≥ c.failureThreshold then
        { b.transitionTo .opened now with openedAt := now }
      else b
    | .opened => b

def reset (now : Time) (b : Breaker) : Breaker :=
  { b with
    state := .closed
    failureCount := 0
    successCount := 0
    openedAt := 0
    lastFailureAt := 0
    concurrentRequests := 0
    lastStateChange := now }

end Breaker

/-- How the wrapped function leaves. -/
inductive Ending
  | value
  | exception
  /-- A `BaseException` that is no `Exception`, such as `CancelledError`. -/
  | baseException
  deriving DecidableEq

/-- Where a call of `decorate` or `decorate_async` stands. -/
inductive Call
  | start
  | allowed
  | running
  | returned
  | raised
  | rejected
  | ended (ending : Ending)
  deriving DecidableEq

/-- From taking the slot to the end of the call. -/
def Call.holdsSlot : Call → Bool
  | .running | .returned | .raised => true
  | _ => false

structure System where
  breaker : Breaker
  calls : List Call := []

/-- The calls that have taken a slot and not ended. -/
def System.slots (s : System) : Nat := s.calls.countP Call.holdsSlot

def System.init (now : Time) : System := ⟨.init now, []⟩

inductive Label
  | call
  | allow (i : Nat) (now : Time)
  | enter (i : Nat)
  | finish (i : Nat) (ending : Ending)
  | record (i : Nat) (now : Time) (trips : Bool)
  | reset (now : Time)

/-- The wrapper has handlers for a value and for an `Exception`. -/
def afterFunc : Ending → Call
  | .value => .returned
  | .exception => .raised
  | .baseException => .ended .baseException

def step (c : Config) (s : System) : Label → Option System
  | .call => some { s with calls := s.calls ++ [.start] }
  | .allow i now =>
    match s.calls[i]? with
    | some .start =>
      let (allowed, breaker) := s.breaker.allowRequest c now
      some ⟨breaker, s.calls.set i (if allowed then .allowed else .rejected)⟩
    | _ => none
  | .enter i =>
    match s.calls[i]? with
    | some .allowed => some ⟨s.breaker.takeSlot, s.calls.set i .running⟩
    | _ => none
  | .finish i ending =>
    match s.calls[i]? with
    | some .running => some { s with calls := s.calls.set i (afterFunc ending) }
    | _ => none
  | .record i now trips =>
    match s.calls[i]? with
    | some .returned => some ⟨s.breaker.recordSuccess c now, s.calls.set i (.ended .value)⟩
    | some .raised =>
      some ⟨s.breaker.recordFailure c now trips, s.calls.set i (.ended .exception)⟩
    | _ => none
  | .reset now => some { s with breaker := s.breaker.reset now }

end Marty.Resilience.CircuitBreaker
