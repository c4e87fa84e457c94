import Mathlib.Data.List.Intervals
import Marty.Resilience.AdvancedRetry

/-! The course of a call of the retry manager: which attempts are made, how the call ends and what
is recorded of it. -/

namespace Marty.Resilience.RetryLoop

open CircuitBreaker Resilience.Errors AdvancedRetry AdvancedRetryManager

section events

def invocation : Event → Option (Nat × Time × Option Breaker)
  | .invoked attempt now breaker => some (attempt, now, breaker)
  | _ => none

def recordedOutcome : Event → Option Bool
  | .outcome success => some success
  | _ => none

def recordedFailure : Event → Option Nat
  | .failure attempt => some attempt
  | _ => none

def recordedSuccess : Event → Option Nat
  | .success attempt => some attempt
  | _ => none

end events

variable {α : Type}

def failed (a : Attempt α) : Bool := a.outcome.toBool = false

def isReturned : Result α → Bool
  | .returned _ => true
  | _ => false

section course

variable (x : AdvancedRetryManager) (start : Time) (attempts : Nat → Attempt α) (s : State)

/-- `func` fails with an exception that is tried again. -/
def Retries (a : Attempt α) : Prop :=
  ∃ e, a.outcome = .error e ∧ x.config.isRetryableException e = true

def afterAttempt (n : Nat) (a : Attempt α) (p : State × Time) : State × Time :=
  let p := x.delay n a p
  match a.outcome with
  | .ok _ => p
  | .error e => (x.fail a e p.1, p.2)

/-- The state and the delays so far after `n` attempts. -/
def after : Nat → State × Time
  | 0 => (s, 0)
  | n + 1 => afterAttempt x (n + 1) (attempts (n + 1)) (after n)

/-- How a call ends that makes `k` attempts. -/
inductive Ends (k : Nat) : Result α → Prop
  | returned {value : α} (hk : 0 < k) (h : (attempts k).outcome = .ok value) :
      Ends k (.returned value)
  | raised {e : Error} (hk : 0 < k) (h : (attempts k).outcome = .error e)
      (hlast : x.config.isRetryableException e = false ∨ k = x.config.maxAttempts) :
      Ends k (.raised e)
  | timeout (hk : k < x.config.maxAttempts) (hretries : k = 0 ∨ Retries x (attempts k))
      (htime : x.timedOut start (attempts (k + 1)) (after x attempts s k).2 = true) :
      Ends k (.runtimeError x.exhaustedMessage)

/-- A call that has made `n` attempts makes all up to `k`, and ends as `r` says. -/
structure Course (n k : Nat) (r : Run α) : Prop where
  le : n ≤ k
  retried : ∀ i, n < i → i < k → Retries x (attempts i)
  inTime : ∀ i, n ≤ i → i < k →
    x.timedOut start (attempts (i + 1)) (after x attempts s i).2 = false
  ended : Ends x start attempts s k r.result
  invoked : r.events.filterMap invocation = (List.Ico n k).map fun i =>
    (i + 1, (attempts (i + 1)).started, (after x attempts s i).1.circuitBreaker)
  outcomes : r.events.filterMap recordedOutcome = [isReturned r.result]
  failures : r.events.filterMap recordedFailure =
    if s.circuitBreaker.isSome then
      ((List.Ico n k).filter fun i => failed (attempts (i + 1))).map (· + 1)
    else []
  successes : r.events.filterMap recordedSuccess =
    if s.circuitBreaker.isSome ∧ isReturned r.result = true then [k] else []
  breaker : r.state.circuitBreaker = (after x attempts s k).1.circuitBreaker.map fun b =>
    if isReturned r.result then b.recordSuccess x.config.breakerConfig.config (attempts k).told
    else b
  operations : r.state.metrics.successfulOperations =
      s.metrics.successfulOperations + (if isReturned r.result then 1 else 0) ∧
    r.state.metrics.failedOperations =
      s.metrics.failedOperations + (if isReturned r.result then 0 else 1)

end course

variable {x : AdvancedRetryManager} {start : Time} {attempts : Nat → Attempt α} {s : State}

section state

@[simp]
theorem delay_circuitBreaker (n : Nat) (a : Attempt α) (p : State × Time) :
    (x.delay n a p).1.circuitBreaker = p.1.circuitBreaker := by
  simp only [AdvancedRetryManager.delay]
  split
  case isTrue => split <;> rfl
  case isFalse => rfl

/-- The operations that have been recorded. -/
def operations (s : State) : Nat × Nat :=
  (s.metrics.successfulOperations, s.metrics.failedOperations)

theorem recordAttempt_operations (m : AdvancedRetryMetrics) (delay : Time) :
    ((m.recordAttempt delay).successfulOperations, (m.recordAttempt delay).failedOperations) =
      (m.successfulOperations, m.failedOperations) := by
  simp only [AdvancedRetryMetrics.recordAttempt]
  split <;> rfl

@[simp]
theorem delay_operations (n : Nat) (a : Attempt α) (p : State × Time) :
    operations (x.delay n a p).1 = operations p.1 := by
  simp only [AdvancedRetryManager.delay]
  split
  case isTrue =>
    split
    case isTrue => exact recordAttempt_operations _ _
    case isFalse => rfl
  case isFalse => exact recordAttempt_operations _ _

@[simp]
theorem fail_operations (a : Attempt α) (e : Error) (s : State) :
    operations (x.fail a e s) = operations s := rfl

@[simp]
theorem fail_isSome (a : Attempt α) (e : Error) (s : State) :
    (x.fail a e s).circuitBreaker.isSome = s.circuitBreaker.isSome := by
  simp [AdvancedRetryManager.fail]

theorem afterAttempt_keeps (n : Nat) (a : Attempt α) (p : State × Time) :
    operations (afterAttempt x n a p).1 = operations p.1 ∧
      (afterAttempt x n a p).1.circuitBreaker.isSome = p.1.circuitBreaker.isSome := by
  simp only [afterAttempt]
  split <;> simp

variable (x attempts s) in
theorem after_keeps (n : Nat) :
    operations (after x attempts s n).1 = operations s ∧
      (after x attempts s n).1.circuitBreaker.isSome = s.circuitBreaker.isSome := by
  induction n with
  | zero => exact ⟨rfl, rfl⟩
  | succ n ih =>
    obtain ⟨hoperations, hbreaker⟩ := afterAttempt_keeps (x := x) (n + 1) (attempts (n + 1))
      (after x attempts s n)
    exact ⟨hoperations.trans ih.1, hbreaker.trans ih.2⟩

end state

section tell

@[simp]
theorem filterMap_tell {β : Type} (f : Event → Option β) (event : Event) (s : State) :
    (tell event s).filterMap f = if s.circuitBreaker.isSome then (f event).toList else [] := by
  unfold AdvancedRetryManager.tell
  cases s.circuitBreaker with
  | none => rfl
  | some b => cases h : f event <;> simp [h]

end tell

section exits

variable {n : Nat}

theorem giveUp_operations (a : Attempt α) (s : State) :
    operations (giveUp a s) = ((operations s).1, (operations s).2 + 1) := rfl

theorem succeed_operations (a : Attempt α) (s : State) :
    operations (x.succeed a s) = ((operations s).1 + 1, (operations s).2) := rfl

theorem course_of_timeout (finish : Time) (hn : n < x.config.maxAttempts)
    (hretries : n = 0 ∨ Retries x (attempts n))
    (htime : x.timedOut start (attempts (n + 1)) (after x attempts s n).2 = true) :
    Course x start attempts s n n (x.exhausted start finish (after x attempts s n).1) where
  le := le_rfl
  retried _ _ _ := by omega
  inTime _ _ _ := by omega
  ended := .timeout hn hretries htime
  invoked := by simp [exhausted, invocation]
  outcomes := rfl
  failures := by simp [exhausted, recordedFailure]
  successes := by simp [exhausted, recordedSuccess, isReturned]
  breaker := by simp [exhausted, isReturned]
  operations := by
    have hkept := (after_keeps x attempts s n).1
    simp only [operations, Prod.mk.injEq] at hkept
    simp [exhausted, AdvancedRetryMetrics.recordOutcome, isReturned, hkept]

/-- The attempt after `n` others is the last one. -/
theorem course_of_last {r : Run α}
    (htime : x.timedOut start (attempts (n + 1)) (after x attempts s n).2 = false)
    (hended : Ends x start attempts s (n + 1) r.result)
    (hinvoked : r.events.filterMap invocation =
      [(n + 1, (attempts (n + 1)).started, (after x attempts s n).1.circuitBreaker)])
    (houtcomes : r.events.filterMap recordedOutcome = [isReturned r.result])
    (hfailures : r.events.filterMap recordedFailure =
      if s.circuitBreaker.isSome ∧ failed (attempts (n + 1)) = true then [n + 1] else [])
    (hsuccesses : r.events.filterMap recordedSuccess =
      if s.circuitBreaker.isSome ∧ isReturned r.result = true then [n + 1] else [])
    (hbreaker : r.state.circuitBreaker =
      (after x attempts s (n + 1)).1.circuitBreaker.map fun b =>
        if isReturned r.result then
          b.recordSuccess x.config.breakerConfig.config (attempts (n + 1)).told
        else b)
    (hoperations : operations r.state =
      ((operations s).1 + (if isReturned r.result then 1 else 0),
        (operations s).2 + (if isReturned r.result then 0 else 1))) :
    Course x start attempts s n (n + 1) r where
  le := n.le_succ
  retried _ _ _ := by omega
  inTime i hn hi := by
    obtain rfl : i = n := by omega
    exact htime
  ended := hended
  invoked := by simpa using hinvoked
  outcomes := houtcomes
  failures := by
    rw [hfailures, List.Ico.succ_singleton, List.filter_singleton]
    cases s.circuitBreaker.isSome <;> cases failed (attempts (n + 1)) <;> rfl
  successes := hsuccesses
  breaker := hbreaker
  operations := Prod.mk.inj hoperations

theorem course_of_value {value : α}
    (htime : x.timedOut start (attempts (n + 1)) (after x attempts s n).2 = false)
    (hvalue : (attempts (n + 1)).outcome = .ok value) :
    let p := x.delay (n + 1) (attempts (n + 1)) (after x attempts s n)
    Course x start attempts s n (n + 1) ⟨x.succeed (attempts (n + 1)) p.1,
      .invoked (n + 1) (attempts (n + 1)).started p.1.circuitBreaker :: .outcome true ::
        tell (.success (n + 1)) p.1, .returned value⟩ := by
  have hkept := after_keeps x attempts s n
  refine course_of_last htime (.returned n.succ_pos hvalue) ?_ ?_ ?_ ?_ ?_ ?_
  · simp [invocation, List.filterMap_cons]
  · simp [recordedOutcome, isReturned, List.filterMap_cons]
  · simp [recordedFailure, failed, hvalue, Except.toBool, List.filterMap_cons]
  · simp [recordedSuccess, isReturned, hkept.2, List.filterMap_cons]
  · simp [after, afterAttempt, hvalue, AdvancedRetryManager.succeed, isReturned]
  · simp [succeed_operations, isReturned, hkept.1]

theorem course_of_error {e : Error}
    (htime : x.timedOut start (attempts (n + 1)) (after x attempts s n).2 = false)
    (herror : (attempts (n + 1)).outcome = .error e)
    (hlast : x.config.isRetryableException e = false ∨
      ((n + 1 : Nat) : Int) = x.config.maxAttempts) :
    let p := x.delay (n + 1) (attempts (n + 1)) (after x attempts s n)
    Course x start attempts s n (n + 1)
      ⟨giveUp (attempts (n + 1)) (x.fail (attempts (n + 1)) e p.1),
        (.invoked (n + 1) (attempts (n + 1)).started p.1.circuitBreaker ::
          tell (.failure (n + 1)) p.1) ++ [.outcome false], .raised e⟩ := by
  have hkept := after_keeps x attempts s n
  refine course_of_last htime (.raised n.succ_pos herror hlast) ?_ ?_ ?_ ?_ ?_ ?_
  · simp [invocation, List.filterMap_cons]
  · simp [recordedOutcome, isReturned, List.filterMap_cons]
  · simp [recordedFailure, failed, herror, Except.toBool, hkept.2, List.filterMap_cons]
  · simp [recordedSuccess, isReturned, List.filterMap_cons]
  · simp [after, afterAttempt, herror, giveUp, isReturned]
  · simp [giveUp_operations, isReturned, hkept.1]

/-- The events of a failed attempt before the course of those after it. -/
theorem course_after {k : Nat} {r : Run α} (hk : n + 1 ≤ k)
    (hretries : Retries x (attempts (n + 1)))
    (htime : x.timedOut start (attempts (n + 1)) (after x attempts s n).2 = false)
    (hcourse : Course x start attempts s (n + 1) k r) :
    let p := x.delay (n + 1) (attempts (n + 1)) (after x attempts s n)
    Course x start attempts s n k (r.after
      (.invoked (n + 1) (attempts (n + 1)).started p.1.circuitBreaker ::
        tell (.failure (n + 1)) p.1)) where
  le := n.le_succ.trans hk
  retried i hn hi := by
    rcases eq_or_lt_of_le (Nat.succ_le_of_lt hn) with rfl | hlater
    · exact hretries
    · exact hcourse.retried i hlater hi
  inTime i hn hi := by
    rcases eq_or_lt_of_le hn with rfl | hlater
    · exact htime
    · exact hcourse.inTime i hlater hi
  ended := hcourse.ended
  invoked := by
    rw [List.Ico.eq_cons (Nat.lt_of_succ_le hk)]
    simp [Run.after, invocation, hcourse.invoked]
  outcomes := by
    simpa [Run.after, recordedOutcome, List.filterMap_cons] using hcourse.outcomes
  failures := by
    obtain ⟨e, herror, -⟩ := hretries
    have hkept := (after_keeps x attempts s n).2
    have hfailed : failed (attempts (n + 1)) = true := by simp [failed, herror, Except.toBool]
    simp only [Run.after, List.filterMap_append, hcourse.failures,
      List.Ico.eq_cons (Nat.lt_of_succ_le hk), List.filter_cons, hfailed, if_true]
    cases hbreaker : s.circuitBreaker.isSome <;>
      simp [recordedFailure, hkept, hbreaker, List.filterMap_cons]
  successes := by
    simpa [Run.after, recordedSuccess, List.filterMap_cons] using hcourse.successes
  breaker := hcourse.breaker
  operations := hcourse.operations

end exits

variable (x start attempts s) in
theorem retryLoop_course (finish : Time) {left n : Nat} (hleft : 0 < left)
    (hmax : ((n + left : Nat) : Int) = x.config.maxAttempts)
    (hretries : n = 0 ∨ Retries x (attempts n)) :
    ∃ k : Nat, k ≤ x.config.maxAttempts ∧ Course x start attempts s n k
      (x.retryLoop start finish attempts left (n + 1) (after x attempts s n)) := by
  induction left generalizing n with
  | zero => cases hleft
  | succ left ih =>
    simp only [retryLoop]
    split
    case isTrue htime =>
      exact ⟨n, by omega, course_of_timeout finish (by omega) hretries htime⟩
    case isFalse htime =>
      have htime := Bool.eq_false_iff.mpr htime
      split
      case h_1 value hvalue => exact ⟨n + 1, by omega, course_of_value htime hvalue⟩
      case h_2 e herror =>
        split
        case isTrue hlast =>
          have hlast : x.config.isRetryableException e = false ∨ left = 0 := by simpa using hlast
          exact ⟨n + 1, by omega, course_of_error htime herror (hlast.imp_right (by omega))⟩
        case isFalse hagain =>
          have hagain : x.config.isRetryableException e = true ∧ left ≠ 0 := by
            simpa using hagain
          have hretried : Retries x (attempts (n + 1)) := ⟨e, herror, hagain.1⟩
          obtain ⟨k, hk, hcourse⟩ := ih (n := n + 1) (by omega) (by omega) (.inr hretried)
          simp only [after, afterAttempt, herror] at hcourse
          exact ⟨k, hk, course_after hcourse.le hretried htime hcourse⟩

theorem retry_of_admitted {asked finish : Time}
    (hadmitted : (x.checkCircuitBreaker asked s).1 = true) :
    x.retry start finish attempts asked s = x.retryLoop start finish attempts
      x.config.maxAttempts.toNat 1 (after x attempts (x.checkCircuitBreaker asked s).2 0) := by
  rw [retry, if_pos hadmitted, after]

/-- A call that the breaker admits. -/
theorem retry_course (x : AdvancedRetryManager) (asked start finish : Time)
    (attempts : Nat → Attempt α) (s : State) (hmax : 1 ≤ x.config.maxAttempts)
    (hadmitted : (x.checkCircuitBreaker asked s).1 = true) :
    ∃ k : Nat, k ≤ x.config.maxAttempts ∧
      Course x start attempts (x.checkCircuitBreaker asked s).2 0 k
        (x.retry start finish attempts asked s) := by
  rw [retry_of_admitted hadmitted]
  exact retryLoop_course x start attempts _ finish (by omega) (by omega) (.inl rfl)

def registry : AdvancedRetryManager where
  name := "registry"
  isAsync := false

/-- The first attempt meets a `ConnectionError`, the others give a value. -/
def flaky (n : Nat) : Attempt Nat where
  checked := n
  started := n
  outcome := if n = 1 then .error { typeName := "ConnectionError" } else .ok 7
  ended := n
  told := n

theorem retry_course_flaky :
    1 ≤ registry.config.maxAttempts ∧ (registry.checkCircuitBreaker 0 (registry.init 0)).1 = true ∧
      ∃ k : Nat, k ≤ registry.config.maxAttempts ∧
        Course registry 0 flaky (registry.checkCircuitBreaker 0 (registry.init 0)).2 0 k
          (registry.retry 0 9 flaky 0 (registry.init 0)) :=
  have hmax : 1 ≤ registry.config.maxAttempts := by decide
  have hadmitted : (registry.checkCircuitBreaker 0 (registry.init 0)).1 = true := by decide
  ⟨hmax, hadmitted, retry_course registry 0 0 9 flaky (registry.init 0) hmax hadmitted⟩

end Marty.Resilience.RetryLoop
