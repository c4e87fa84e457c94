import Mathlib.Algebra.Order.Ring.Rat
import Mathlib.Tactic.Linarith
import Marty.Lib.Retrying
import Marty.Resilience.CircuitBreaker
import Marty.Resilience.Errors

/-! `retry.py`: the policies it builds for tenacity, and the metrics of a decorated function.
Tenacity calls the function again as long as the retry condition holds of the outcome and the stop
strategy has not fired. -/

namespace Marty.Resilience.Retry

open CircuitBreaker Resilience.Errors Lib.Retrying

structure RetryConfig where
  maxAttempts : Int := 5
  baseDelay : Time := 2 / 10
  maxDelay : Time := 3
  jitter : Bool := true
  exponentialBackoff : Bool := true
  maxTotalDelay : Time := 30
  retryOnExceptions : List String := ["TransientBackendError", "ConnectionError", "TimeoutError"]

structure RetryMetrics where
  totalAttempts : Nat := 0
  totalRetries : Nat := 0
  successfulCalls : Nat := 0
  failedCalls : Nat := 0
  lastAttemptTime : Time := 0

namespace RetryMetrics

variable (m : RetryMetrics)

def recordAttempt (now : Time) : RetryMetrics :=
  { m with totalAttempts := m.totalAttempts + 1, lastAttemptTime := now }

def recordRetry : RetryMetrics := { m with totalRetries := m.totalRetries + 1 }

def recordSuccess : RetryMetrics := { m with successfulCalls := m.successfulCalls + 1 }

def recordFailure : RetryMetrics := { m with failedCalls := m.failedCalls + 1 }

end RetryMetrics

def attributeError : Error where
  typeName := "AttributeError"

/-- It raises for an `RpcError` that has no method `code`. -/
def isRetryableException (e : Error) : Except Error Bool :=
  if exceptionIsTransient e then .ok true
  else if e.isInstance ["ConnectionError", "TimeoutError", "OSError"] then .ok true
  else if e.isInstance ["RpcError"] then
    match e.code with
    | none => .error attributeError
    | some code => .ok (code ∈ [.unavailable, .deadlineExceeded, .resourceExhausted, .aborted])
  else .ok false

inductive WaitStrategy
  | exponentialJitter (expBase max : Time)
  | exponential (expBase max : Time)
  | fixedRandom (wait max : Time)
  | fixed (wait : Time)

/-- The wait after an attempt; `random` is drawn from the range of the strategy. -/
def WaitStrategy.wait (attempt : Nat) (random : Time) : WaitStrategy → Time
  | exponentialJitter expBase max => min max (1 * expBase ^ (attempt - 1) + random)
  | exponential expBase max => min max (1 * expBase ^ (attempt - 1))
  | fixedRandom wait _ => wait + random
  | fixed wait => wait

def createWaitStrategy (c : RetryConfig) : WaitStrategy :=
  if c.exponentialBackoff then
    if c.jitter then .exponentialJitter c.baseDelay c.maxDelay
    else .exponential c.baseDelay c.maxDelay
  else if c.jitter then .fixedRandom c.baseDelay (c.baseDelay * (1 / 10))
  else .fixed c.baseDelay

/-- Whether the stop strategy fires after an attempt. -/
def createStopStrategy (c : RetryConfig) (attempt : Nat) (sinceStart : Time) : Bool :=
  if c.maxTotalDelay > 0 then c.maxAttempts ≤ attempt || decide (c.maxTotalDelay ≤ sinceStart)
  else c.maxAttempts ≤ attempt

structure Policy where
  retry : Error → Bool
  stop : Nat → Time → Bool
  wait : WaitStrategy

def createRetryPolicy (predicate : Error → Bool) (c : RetryConfig) : Policy where
  retry := if c.retryOnExceptions = [] then predicate else fun e => e.isInstance c.retryOnExceptions
  stop := createStopStrategy c
  wait := createWaitStrategy c

/-- How an execution of a function ends. -/
inductive Outcome (α : Type)
  | returned (value : α)
  | raised (e : Error)
  /-- A `BaseException` that is no `Exception`, such as a `CancelledError`. -/
  | baseException

variable {α : Type}

def Outcome.isReturned : Outcome α → Bool
  | .returned _ => true
  | _ => false

/-- The retry condition on an outcome. -/
def Policy.retries (p : Policy) : Outcome α → Bool
  | .raised e => p.retry e
  | _ => false

/-- An execution of a decorated function: when it starts, how it ends, and the time since the start
of the call when it has ended. -/
structure Execution (α : Type) where
  startedAt : Time
  outcome : Outcome α
  sinceStart : Time

/-- What the wrapper records of an execution. -/
def record (x : Execution α) (m : RetryMetrics) : RetryMetrics :=
  let m := m.recordAttempt x.startedAt
  match x.outcome with
  | .returned _ => m.recordSuccess
  | .raised e =>
    match isRetryableException e with
    | .ok true => m.recordRetry
    | .ok false => m.recordFailure
    | .error _ => m
  | .baseException => m

/-- How the wrapper ends for tenacity. -/
def wrapped (x : Execution α) : Outcome α :=
  match x.outcome with
  | .raised e =>
    match isRetryableException e with
    | .ok _ => .raised e
    | .error e' => .raised e'
  | outcome => outcome

/-- Whether tenacity calls the wrapper again after execution `n`. -/
def Policy.again (p : Policy) (executions : Nat → Execution α) (n : Nat) : Bool :=
  p.retries (wrapped (executions n)) && !p.stop n (executions n).sinceStart

structure Called (α : Type) where
  executed : Nat
  metrics : RetryMetrics
  outcome : Outcome α

/-- The configuration of `default_retry`. -/
def defaultRetry (maxAttempts : Int) (base maxWait : Time) : RetryConfig :=
  { maxAttempts := maxAttempts, baseDelay := base, maxDelay := maxWait }

def policyOf (c : RetryConfig) : Policy :=
  createRetryPolicy (fun e => isRetryableException e matches .ok true) c

/-- A call of a function that `retry_sync` or `retry_async` has decorated: the last outcome is
returned or raised again. -/
def call (c : RetryConfig) (executions : Nat → Execution α) (m : RetryMetrics) : Called α :=
  let (executed, metrics) := loop (fun n => record (executions n))
    ((policyOf c).again executions) (c.maxAttempts.toNat - 1) 1 m
  ⟨executed, metrics, wrapped (executions executed)⟩

/-- What the metrics say of a call: its executions, those followed by another one, and how it
ended. -/
structure Counted (m : RetryMetrics) (c : Called α) : Prop where
  attempts : c.metrics.totalAttempts = m.totalAttempts + c.executed
  retries : c.metrics.totalRetries = m.totalRetries + (c.executed - 1)
  successes : c.metrics.successfulCalls =
    m.successfulCalls + if c.outcome.isReturned then 1 else 0
  failures : c.metrics.failedCalls = m.failedCalls + if c.outcome.isReturned then 0 else 1

/-- An execution that returns, or raises what is not classified as retryable. -/
def Settles : Outcome α → Prop
  | .returned _ => True
  | .raised e => isRetryableException e = .ok false
  | .baseException => False

section counted

variable {maxAttempts : Int} {base maxWait : Time} {executions : Nat → Execution α}

theorem isInstance_cons (e : Error) (c : String) (cs : List String) :
    e.isInstance (c :: cs) = true ↔ e.isInstance [c] = true ∨ e.isInstance cs = true := by
  simp only [Error.isInstance, List.any_eq_true, decide_eq_true_eq, List.mem_cons,
    List.not_mem_nil, or_false]
  constructor
  · rintro ⟨name, hname, hc | hcs⟩
    · exact .inl ⟨name, hname, hc⟩
    · exact .inr ⟨name, hname, hcs⟩
  · rintro (⟨name, hname, hc⟩ | ⟨name, hname, hcs⟩)
    · exact ⟨name, hname, .inl hc⟩
    · exact ⟨name, hname, .inr hcs⟩

theorem isRetryableException_of_retry {e : Error}
    (h : (policyOf (defaultRetry maxAttempts base maxWait)).retry e = true) :
    isRetryableException e = .ok true := by
  have hinstance : e.isInstance ["TransientBackendError", "ConnectionError", "TimeoutError"] =
      true := h
  unfold isRetryableException
  by_cases htransient : exceptionIsTransient e = true
  · rw [if_pos htransient]
  · have hnot : ¬ e.isInstance ["TransientBackendError"] = true := fun hbackend =>
      htransient (Bool.or_eq_true_iff.mpr (.inl hbackend))
    have hrest := ((isInstance_cons _ _ _).mp hinstance).resolve_left hnot
    have hnetwork : e.isInstance ["ConnectionError", "TimeoutError", "OSError"] = true := by
      rw [isInstance_cons] at hrest ⊢
      exact hrest.imp_right fun htimeout => (isInstance_cons _ _ _).mpr (.inl htimeout)
    rw [if_neg htransient, if_pos hnetwork]

theorem isRetryableException_error {e e' : Error} (h : isRetryableException e = .error e') :
    e' = attributeError := by
  unfold isRetryableException at h
  split at h
  · cases h
  · split at h
    · cases h
    · split at h
      · split at h
        · exact (Except.error.inj h).symm
        · cases h
      · cases h

/-- An execution that is followed by another one is recorded as a retry. -/
theorem record_of_again {n : Nat} (m : RetryMetrics)
    (h : (policyOf (defaultRetry maxAttempts base maxWait)).again executions n = true) :
    record (executions n) m = (m.recordAttempt (executions n).startedAt).recordRetry := by
  have hretries : (policyOf (defaultRetry maxAttempts base maxWait)).retries
      (wrapped (executions n)) = true := (Bool.and_eq_true_iff.mp h).1
  cases houtcome : (executions n).outcome with
  | returned value => simp [wrapped, houtcome, Policy.retries] at hretries
  | baseException => simp [wrapped, houtcome, Policy.retries] at hretries
  | raised e =>
    cases hretryable : isRetryableException e with
    | ok retryable =>
      have hretry : (policyOf (defaultRetry maxAttempts base maxWait)).retry e = true := by
        simpa [wrapped, houtcome, hretryable, Policy.retries] using hretries
      rw [isRetryableException_of_retry hretry] at hretryable
      obtain rfl := Except.ok.inj hretryable
      simp [record, houtcome, isRetryableException_of_retry hretry]
    | error e' =>
      obtain rfl := isRetryableException_error hretryable
      have hretry : (policyOf (defaultRetry maxAttempts base maxWait)).retry attributeError =
          true := by
        simpa [wrapped, houtcome, hretryable, Policy.retries] using hretries
      have hinstance : attributeError.isInstance
          ["TransientBackendError", "ConnectionError", "TimeoutError"] = true := hretry
      exact absurd hinstance (by decide)

/-- The metrics before execution `n` of a call. -/
structure Before (m : RetryMetrics) (n : Nat) (m' : RetryMetrics) : Prop where
  pos : 0 < n
  attempts : m'.totalAttempts = m.totalAttempts + (n - 1)
  retries : m'.totalRetries = m.totalRetries + (n - 1)
  successes : m'.successfulCalls = m.successfulCalls
  failures : m'.failedCalls = m.failedCalls

theorem Before.retry {m m' : RetryMetrics} {n : Nat} (h : Before m n m')
    (hagain : (policyOf (defaultRetry maxAttempts base maxWait)).again executions n = true) :
    Before m (n + 1) (record (executions n) m') := by
  obtain ⟨hpos, hattempts, hretries, hsuccesses, hfailures⟩ := h
  rw [record_of_again m' hagain]
  refine ⟨n.succ_pos, ?_, ?_, hsuccesses, hfailures⟩
  · simp only [RetryMetrics.recordRetry, RetryMetrics.recordAttempt]
    omega
  · simp only [RetryMetrics.recordRetry, RetryMetrics.recordAttempt]
    omega

theorem stop_at_max (n : Nat) (hn : maxAttempts ≤ n) :
    (policyOf (defaultRetry maxAttempts base maxWait)).again executions n = false := by
  have hstop : (policyOf (defaultRetry maxAttempts base maxWait)).stop n
      (executions n).sinceStart = true := by
    simp [policyOf, createRetryPolicy, createStopStrategy, defaultRetry, hn]
  simp [Policy.again, hstop]

variable (maxAttempts base maxWait) in
/-- The last execution of a call, and the metrics before and after it. -/
theorem call_spec (executions : Nat → Execution α) (m : RetryMetrics) :
    ∃ k m', Ends ((policyOf (defaultRetry maxAttempts base maxWait)).again executions) 1 k ∧
      Before m k m' ∧ call (defaultRetry maxAttempts base maxWait) executions m =
        ⟨k, record (executions k) m', wrapped (executions k)⟩ := by
  have hlimit : maxAttempts ≤ (1 + (maxAttempts.toNat - 1) : Nat) := by omega
  have hinit : Before m 1 m := ⟨Nat.one_pos, rfl, rfl, rfl, rfl⟩
  obtain ⟨k, m', hends, hbefore, hloop⟩ :=
    loop_induction (fun n => record (executions n)) (stop_at_max _ hlimit) hinit
      fun i m' hagain h => h.retry hagain
  refine ⟨k, m', hends, hbefore, ?_⟩
  simp only [call, show (defaultRetry maxAttempts base maxWait).maxAttempts = maxAttempts from rfl,
    hloop]

/-- The last execution settles the call, or the metrics miss how it ended. -/
theorem Before.counted_iff {m m' : RetryMetrics} {k : Nat} (h : Before m k m') (x : Execution α) :
    Counted m ⟨k, record x m', wrapped x⟩ ↔ Settles x.outcome := by
  obtain ⟨hpos, hattempts, hretries, hsuccesses, hfailures⟩ := h
  have hcount : m.totalAttempts + (k - 1) + 1 = m.totalAttempts + k := by omega
  cases houtcome : x.outcome with
  | returned value =>
    refine iff_of_true ⟨?_, ?_, ?_, ?_⟩ trivial <;>
      simp [record, wrapped, houtcome, RetryMetrics.recordAttempt, RetryMetrics.recordSuccess,
        Outcome.isReturned, hattempts, hretries, hsuccesses, hfailures, hcount]
  | baseException =>
    refine iff_of_false (fun hcounted => ?_) id
    have hfailed := hcounted.failures
    simp [record, wrapped, houtcome, RetryMetrics.recordAttempt, Outcome.isReturned,
      hfailures] at hfailed
  | raised e =>
    cases hretryable : isRetryableException e with
    | error e' =>
      refine iff_of_false (fun hcounted => ?_) fun hsettles => ?_
      · have hfailed := hcounted.failures
        simp [record, wrapped, houtcome, hretryable, RetryMetrics.recordAttempt,
          Outcome.isReturned, hfailures] at hfailed
      · rw [Settles, hretryable] at hsettles
        cases hsettles
    | ok retryable =>
      cases retryable with
      | true =>
        refine iff_of_false (fun hcounted => ?_) fun hsettles => ?_
        · have hfailed := hcounted.failures
          simp [record, wrapped, houtcome, hretryable, RetryMetrics.recordAttempt,
            RetryMetrics.recordRetry, Outcome.isReturned, hfailures] at hfailed
        · rw [Settles, hretryable] at hsettles
          cases hsettles
      | false =>
        refine iff_of_true ⟨?_, ?_, ?_, ?_⟩ hretryable <;>
          simp [record, wrapped, houtcome, hretryable, RetryMetrics.recordAttempt,
            RetryMetrics.recordFailure, Outcome.isReturned, hattempts, hretries, hsuccesses,
            hfailures, hcount]

end counted

/-- The metrics count a call exactly when its last execution returns or raises what is classified
as not retryable. -/
theorem calls_counted_iff (maxAttempts : Int) (base maxWait : Time)
    (executions : Nat → Execution α) (m : RetryMetrics) :
    Counted m (call (defaultRetry maxAttempts base maxWait) executions m) ↔
      ∀ k, Ends ((policyOf (defaultRetry maxAttempts base maxWait)).again executions) 1 k →
        Settles (executions k).outcome := by
  obtain ⟨k, m', hends, hbefore, hcall⟩ :=
    call_spec maxAttempts base maxWait executions m
  rw [hcall, hbefore.counted_iff]
  constructor
  · intro hsettles k' hends'
    rwa [← hends.unique hends']
  · intro hsettles
    exact hsettles k hends

/-- Every execution raises a `ConnectionError`. -/
def unavailable (n : Nat) : Execution Nat where
  startedAt := n
  outcome := .raised { typeName := "ConnectionError" }
  sinceStart := n

/-- Two executions of a call that raises count as two retries and no failed call. -/
theorem exhausted_miscounted : ¬ Counted {} (call (defaultRetry 2 1 1) unavailable {}) := by
  intro hcounted
  have hfailed := hcounted.failures
  exact absurd hfailed (by decide +kernel)

section wait

variable {c : RetryConfig}

/-- The waits of a policy without jitter. -/
def waits (c : RetryConfig) (attempt : Nat) : Time := (createWaitStrategy c).wait attempt 0

theorem waits_eq (hexponential : c.exponentialBackoff = true) (hjitter : c.jitter = false)
    (attempt : Nat) : waits c attempt = min c.maxDelay (c.baseDelay ^ (attempt - 1)) := by
  simp [waits, createWaitStrategy, hexponential, hjitter, WaitStrategy.wait]

/-- The waits grow from the base delay to the maximum. -/
structure Grows (c : RetryConfig) : Prop where
  start : waits c 1 = c.baseDelay
  mono : ∀ attempt, 1 ≤ attempt → waits c attempt ≤ waits c (attempt + 1)
  le_max : ∀ attempt, 1 ≤ attempt → waits c attempt ≤ c.maxDelay

/-- The base delay is the base of the powers, and the first of them is 1. -/
theorem waits_grow_iff (c : RetryConfig) (hexponential : c.exponentialBackoff = true)
    (hjitter : c.jitter = false) (hpos : 0 < c.baseDelay) (hmax : c.baseDelay ≤ c.maxDelay) :
    Grows c ↔ c.baseDelay = 1 := by
  constructor
  · intro hgrows
    have hstart := hgrows.start
    have hsecond := hgrows.mono 2 one_le_two
    rw [waits_eq hexponential hjitter, Nat.sub_self, pow_zero] at hstart
    rw [waits_eq hexponential hjitter, waits_eq hexponential hjitter, pow_one,
      min_eq_right hmax] at hsecond
    have hle : c.baseDelay ≤ 1 := hstart ▸ min_le_right _ _
    have hsquare : c.baseDelay ≤ c.baseDelay ^ 2 := hsecond.trans (min_le_right _ _)
    have hge : 1 ≤ c.baseDelay := by
      by_contra hlt
      have hless : c.baseDelay * c.baseDelay < c.baseDelay * 1 :=
        mul_lt_mul_of_pos_left (not_le.mp hlt) hpos
      rw [pow_two] at hsquare
      linarith
    exact le_antisymm hle hge
  · intro hbase
    have hwaits (attempt : Nat) : waits c attempt = 1 := by
      rw [waits_eq hexponential hjitter, hbase, one_pow]
      exact min_eq_right (hbase ▸ hmax)
    exact ⟨(hwaits 1).trans hbase.symm, fun attempt _ => by rw [hwaits, hwaits],
      fun attempt _ => by rw [hwaits]; exact hbase ▸ hmax⟩

end wait

/-- The default delays without jitter. -/
def unjittered : RetryConfig where
  jitter := false

theorem waits_grow_unjittered :
    unjittered.exponentialBackoff = true ∧ unjittered.jitter = false ∧ 0 < unjittered.baseDelay ∧
      unjittered.baseDelay ≤ unjittered.maxDelay ∧
      (Grows unjittered ↔ unjittered.baseDelay = 1) :=
  have hpos : 0 < unjittered.baseDelay := by decide +kernel
  have hmax : unjittered.baseDelay ≤ unjittered.maxDelay := by decide +kernel
  ⟨rfl, rfl, hpos, hmax, waits_grow_iff unjittered rfl rfl hpos hmax⟩

/-- The first wait is a second, the second one a fifth of it. -/
theorem unjittered_shrinks :
    unjittered.exponentialBackoff = true ∧ unjittered.jitter = false ∧ 0 < unjittered.baseDelay ∧
      unjittered.baseDelay ≤ unjittered.maxDelay ∧ waits unjittered 1 = 1 ∧
      waits unjittered 2 = 1 / 5 ∧ ¬ Grows unjittered := by
  have hfirst : waits unjittered 1 = 1 := by decide +kernel
  have hsecond : waits unjittered 2 = 1 / 5 := by decide +kernel
  refine ⟨rfl, rfl, by decide +kernel, by decide +kernel, hfirst, hsecond, fun hgrows => ?_⟩
  have hmono := hgrows.mono 1 le_rfl
  rw [hfirst, hsecond] at hmono
  exact absurd hmono (by decide +kernel)

end Marty.Resilience.Retry
