import Marty.Resilience.RetryCircuit

/-! The time budget of the retry manager.  The time that has elapsed counts the delays already, and
the check adds them once more. -/

namespace Marty.Resilience.RetryBudget

open CircuitBreaker AdvancedRetry AdvancedRetryManager RetryLoop RetryCircuit

variable {α : Type}

section budget

variable (x : AdvancedRetryManager) (start : Time) (attempts : Nat → Attempt α)

/-- The number of times `func` is invoked. -/
def made (r : Run α) : Nat := (r.events.filterMap invocation).length

/-- The time that the timeout check of an attempt finds to have elapsed. -/
def elapsed (n : Nat) : Time := (attempts n).checked - start

/-- A call that gives up with attempts left has used up its time. -/
def StopsInTime (r : Run α) : Prop :=
  r.result = .runtimeError x.exhaustedMessage → made r < x.config.maxAttempts →
    x.config.totalTimeout < elapsed start attempts (made r + 1)

/-- The clock from check to check; sleeping takes at least its delay. -/
structure Clock (m : AdvancedRetryMetrics) : Prop where
  start : start ≤ (attempts 1).checked
  slept : ∀ n, (attempts (n + 1)).checked +
    ((delays x attempts m (n + 1)).2 - (delays x attempts m n).2) ≤ (attempts (n + 2)).checked

end budget

variable {x : AdvancedRetryManager} {start : Time} {attempts : Nat → Attempt α} {s : State}

theorem timedOut_iff (n : Nat) (totalDelay : Time) :
    x.timedOut start (attempts n) totalDelay = true ↔
      x.config.totalTimeout < elapsed start attempts n + totalDelay := by
  simp [timedOut, elapsed]

theorem made_eq {k : Nat} {r : Run α} (h : Course x start attempts s 0 k r) : made r = k := by
  rw [made, h.invoked, List.length_map, List.Ico.length, Nat.sub_zero]

section failing

variable (hfails : ∀ n, Retries x (attempts n))

include hfails in
/-- A call whose attempts all fail makes every attempt, or a timeout check stops it. -/
theorem ends_of_failing {k : Nat} {result : Result α} (h : Ends x start attempts s k result) :
    ((k : Int) = x.config.maxAttempts ∧ ∃ e, result = .raised e) ∨
      (k < x.config.maxAttempts ∧ result = .runtimeError x.exhaustedMessage ∧
        x.config.totalTimeout <
          elapsed start attempts (k + 1) + (delays x attempts s.metrics k).2) := by
  cases h with
  | returned _ hvalue =>
    obtain ⟨e, herror, -⟩ := hfails k
    rw [hvalue] at herror
    cases herror
  | raised _ herror hlast =>
    obtain ⟨e, herror', hretryable⟩ := hfails k
    obtain rfl := Except.error.inj (herror.symm.trans herror')
    refine .inl ⟨hlast.resolve_left ?_, _, rfl⟩
    rw [hretryable]
    exact Bool.noConfusion
  | timeout hk _ htime =>
    rw [after_total, timedOut_iff] at htime
    exact .inr ⟨hk, rfl, htime⟩

/-- A call is stopped, with attempts left, by a check that counts the delays twice. -/
theorem stops_of_course {k : Nat} {r : Run α} (hk : k < x.config.maxAttempts)
    (hcourse : Course x start attempts s 0 k r) (hfails : ∀ n, Retries x (attempts n)) :
    r.result = .runtimeError x.exhaustedMessage ∧ x.config.totalTimeout <
      elapsed start attempts (k + 1) + (delays x attempts s.metrics k).2 := by
  rcases ends_of_failing hfails hcourse.ended with ⟨hmax, -⟩ | ⟨-, hstopped⟩
  · exact absurd hk (by omega)
  · exact hstopped

theorem stopsInTime_iff_of_course {k : Nat} {r : Run α} (hk : k ≤ x.config.maxAttempts)
    (hcourse : Course x start attempts s 0 k r) (hfails : ∀ n, Retries x (attempts n))
    (hclock : Monotone fun n => (attempts n).checked) :
    StopsInTime x start attempts r ↔ ∀ n : Nat, n < x.config.maxAttempts →
      elapsed start attempts (n + 1) ≤ x.config.totalTimeout →
      elapsed start attempts (n + 1) + (delays x attempts s.metrics n).2 ≤
        x.config.totalTimeout := by
  unfold StopsInTime
  rw [made_eq hcourse]
  constructor
  · intro hstops n hn helapsed
    rcases Nat.lt_or_ge n k with hnk | hkn
    · have hintime := hcourse.inTime n n.zero_le hnk
      rw [after_total, ← Bool.not_eq_true, timedOut_iff] at hintime
      exact not_lt.mp hintime
    · have hkmax : (k : Int) < x.config.maxAttempts := by omega
      have hlate := hstops (stops_of_course hkmax hcourse hfails).1 hkmax
      have hlater : elapsed start attempts (k + 1) ≤ elapsed start attempts (n + 1) :=
        sub_le_sub_right (hclock (by omega)) start
      exact absurd (hlate.trans_le hlater) (not_lt.mpr helapsed)
  · intro hchecks _ hkmax
    have hstopped := (stops_of_course hkmax hcourse hfails).2
    by_contra hearly
    exact absurd hstopped (not_lt.mpr (hchecks k hkmax (not_lt.mp hearly)))

end failing

theorem refused_result (x : AdvancedRetryManager) (asked start finish : Time)
    (attempts : Nat → Attempt α) (s : State)
    (hrefused : (x.checkCircuitBreaker asked s).1 = false) :
    (x.retry start finish attempts asked s).result ≠ .runtimeError x.exhaustedMessage := by
  simp only [retry, hrefused, Bool.false_eq_true, if_false]
  intro h
  have hmessage := congrArg (fun t => t.toList.head?) (Result.runtimeError.inj h)
  simp [exhaustedMessage, String.toList_append] at hmessage

theorem metrics_of_admitted (x : AdvancedRetryManager) (asked : Time) (s : State)
    (hadmitted : (x.checkCircuitBreaker asked s).1 = true) :
    (x.checkCircuitBreaker asked s).2.metrics = s.metrics := by
  cases hs : s.circuitBreaker with
  | none => rw [checkCircuitBreaker_of_none x asked hs]
  | some b =>
    obtain ⟨hiff, hkept⟩ := checkCircuitBreaker_of_some x asked hs
    exact (hkept (hiff.mp hadmitted)).1

/-- Where every attempt fails, the call stops in time exactly when no check finds the time within
the timeout and the time together with the delays beyond it. -/
theorem stops_in_time_iff (x : AdvancedRetryManager) (asked start finish : Time)
    (attempts : Nat → Attempt α) (s : State) (hfails : ∀ n, Retries x (attempts n))
    (hclock : Monotone fun n => (attempts n).checked) :
    StopsInTime x start attempts (x.retry start finish attempts asked s) ↔
      ((x.checkCircuitBreaker asked s).1 = true → ∀ n : Nat, n < x.config.maxAttempts →
        elapsed start attempts (n + 1) ≤ x.config.totalTimeout →
        elapsed start attempts (n + 1) + (delays x attempts s.metrics n).2 ≤
          x.config.totalTimeout) := by
  by_cases hadmitted : (x.checkCircuitBreaker asked s).1 = true
  · rw [retry_of_admitted hadmitted, ← metrics_of_admitted x asked s hadmitted]
    by_cases hmax : 0 < x.config.maxAttempts.toNat
    · obtain ⟨k, hk, hcourse⟩ := retryLoop_course x start attempts
        (x.checkCircuitBreaker asked s).2 finish hmax (by omega) (.inl rfl)
      rw [stopsInTime_iff_of_course hk hcourse hfails hclock]
      exact ⟨fun h _ => h, fun h => h hadmitted⟩
    · refine iff_of_true (fun _ hmade => ?_) fun _ n hn => ?_
      · omega
      · omega
  · have hrefused := Bool.eq_false_iff.mpr hadmitted
    refine iff_of_true (fun hresult => ?_) fun h => absurd h hadmitted
    exact absurd hresult (refused_result x asked start finish attempts s hrefused)

section halved

variable {m : AdvancedRetryMetrics} (hclock : Clock x start attempts m)

include hclock

/-- The delays are part of the time that has elapsed. -/
theorem delays_le_elapsed (n : Nat) :
    (delays x attempts m n).2 ≤ elapsed start attempts (n + 1) := by
  induction n with
  | zero => exact sub_nonneg.mpr hclock.start
  | succ n ih =>
    have hslept := hclock.slept n
    unfold elapsed at ih ⊢
    linarith

end halved

/-- No call gives up before half of its timeout. -/
theorem stopped_after_half (x : AdvancedRetryManager) (asked start finish : Time)
    (attempts : Nat → Attempt α) (s : State) (hfails : ∀ n, Retries x (attempts n))
    (hclock : Clock x start attempts s.metrics)
    (hresult : (x.retry start finish attempts asked s).result =
      .runtimeError x.exhaustedMessage)
    (hmade : made (x.retry start finish attempts asked s) < x.config.maxAttempts) :
    x.config.totalTimeout <
      2 * elapsed start attempts (made (x.retry start finish attempts asked s) + 1) := by
  by_cases hadmitted : (x.checkCircuitBreaker asked s).1 = true
  · have hleft : 0 < x.config.maxAttempts.toNat := by omega
    obtain ⟨k, -, hcourse⟩ := retryLoop_course x start attempts
      (x.checkCircuitBreaker asked s).2 finish hleft (by omega) (.inl rfl)
    rw [← retry_of_admitted hadmitted] at hcourse
    rw [made_eq hcourse] at hmade ⊢
    have hstopped := (stops_of_course hmade hcourse hfails).2
    rw [metrics_of_admitted x asked s hadmitted] at hstopped
    have hslept := delays_le_elapsed hclock k
    linarith
  · have hrefused := Bool.eq_false_iff.mpr hadmitted
    exact absurd hresult (refused_result x asked start finish attempts s hrefused)

def patient : AdvancedRetryManager where
  name := "registry"
  isAsync := false
  config := {
    maxAttempts := 5, baseDelay := 1, totalTimeout := 3, backoffStrategy := .fixed,
    jitterFactor := 0, enableCircuitBreaker := false }

/-- `func` fails at once, and the second attempt and those after it wait a second before. -/
def failing (n : Nat) : Attempt Nat :=
  { flaky (n - 1) with
    checked := ((n - 2 : Nat) : Time)
    outcome := .error { typeName := "ConnectionError" } }

theorem failing_retries (n : Nat) : Retries patient (failing n) :=
  ⟨_, rfl, by decide⟩

theorem failing_monotone : Monotone fun n => (failing n).checked := by
  intro m n hmn
  exact Nat.cast_le.mpr (Nat.sub_le_sub_right hmn 2)

theorem stops_in_time_patient :
    (∀ n, Retries patient (failing n)) ∧ (Monotone fun n => (failing n).checked) ∧
      (StopsInTime patient 0 failing (patient.retry 0 9 failing 0 (patient.init 0)) ↔
        ((patient.checkCircuitBreaker 0 (patient.init 0)).1 = true →
          ∀ n : Nat, n < patient.config.maxAttempts →
            elapsed 0 failing (n + 1) ≤ patient.config.totalTimeout →
            elapsed 0 failing (n + 1) +
                (delays patient failing (patient.init 0).metrics n).2 ≤
              patient.config.totalTimeout)) :=
  ⟨failing_retries, failing_monotone,
    stops_in_time_iff patient 0 0 9 failing (patient.init 0) failing_retries failing_monotone⟩

theorem failing_delays (m : AdvancedRetryMetrics) (n : Nat) :
    (delays patient failing m n).2 = ((n - 1 : Nat) : Time) := by
  induction n with
  | zero => rfl
  | succ n ih =>
    have hdelay (m : AdvancedRetryMetrics) (draws : AdvancedRetryConfig.Draws) :
        patient.config.calculateDelay m draws (n + 1) patient.config.baseDelay =
          if n = 0 then 0 else 1 := by
      simp [AdvancedRetryConfig.calculateDelay, AdvancedRetryConfig.strategyDelay, patient]
    simp only [delays, hdelay]
    cases n with
    | zero => simpa using ih
    | succ n => simp [ih]

/-- The delays add up to the time that has elapsed. -/
theorem failing_clock (m : AdvancedRetryMetrics) : Clock patient 0 failing m where
  start := by simp [failing]
  slept n := by
    rw [failing_delays, failing_delays]
    cases n with
    | zero => simp [failing]
    | succ n => simp [failing]

/-- The fourth attempt is given up after two of three seconds. -/
theorem fourth_attempt_given_up :
    (∀ n, Retries patient (failing n)) ∧ Clock patient 0 failing (patient.init 0).metrics ∧
      ¬ StopsInTime patient 0 failing (patient.retry 0 9 failing 0 (patient.init 0)) := by
  refine ⟨failing_retries, failing_clock _, fun hstops => ?_⟩
  have hmade : made (patient.retry 0 9 failing 0 (patient.init 0)) = 3 := by
    decide +kernel
  have hresult : (patient.retry 0 9 failing 0 (patient.init 0)).result =
      .runtimeError patient.exhaustedMessage := by
    have hleft : 0 < patient.config.maxAttempts.toNat := by decide
    obtain ⟨k, -, hcourse⟩ := retryLoop_course patient 0 failing
      (patient.checkCircuitBreaker 0 (patient.init 0)).2 9 hleft (by decide) (.inl rfl)
    rw [← retry_of_admitted (by decide)] at hcourse
    obtain rfl := (made_eq hcourse).symm.trans hmade
    exact (stops_of_course (by decide) hcourse failing_retries).1
  have hlate := hstops hresult (by rw [hmade]; decide)
  rw [hmade] at hlate
  exact absurd hlate (by decide +kernel)

end Marty.Resilience.RetryBudget
