import Mathlib.Algebra.Order.BigOperators.Ring.Finset
import Mathlib.Data.Nat.Fib.Basic
import Mathlib.Tactic.Linarith
import Mathlib.Tactic.Positivity
import Marty.Resilience.AdvancedRetry

/-! The delays of `_calculate_delay`: every strategy but the adaptive one grows with the attempts,
and the jitter adds to a delay at most the share that the configuration allows, before the cap. -/

namespace Marty.Resilience.AdvancedRetry

open CircuitBreaker (Time)

theorem fibonacciPair_eq (n : Nat) : fibonacciPair n = (Nat.fib (n + 1), Nat.fib (n + 2)) := by
  induction n with
  | zero => rfl
  | succ n ih =>
    have hstep : fibonacciPair (n + 1) =
        ((fibonacciPair n).2, (fibonacciPair n).1 + (fibonacciPair n).2) :=
      Function.iterate_succ_apply' _ _ _
    rw [hstep, ih, Nat.fib_add_two (n := n + 1)]

/-- The loop of `_fibonacci` counts from the third number on. -/
theorem fibonacci_eq_fib {n : Nat} (h : 1 ≤ n) : fibonacci n = Nat.fib n := by
  unfold fibonacci
  split
  case isTrue hle =>
    obtain rfl | rfl : n = 1 ∨ n = 2 := by omega
    · rfl
    · rfl
  case isFalse hgt =>
    obtain ⟨k, rfl⟩ : ∃ k, n = k + 2 := ⟨n - 2, by omega⟩
    rw [Nat.add_sub_cancel, fibonacciPair_eq]

namespace AdvancedRetryConfig

variable (c : AdvancedRetryConfig) (m : AdvancedRetryMetrics)

/-- The delay of the strategy in the configuration without jitter, whatever is drawn. -/
def nominalDelay (attempt : Nat) (baseDelay : Time) : Time :=
  { c with jitterFactor := 0 }.strategyDelay m ⟨Fin.last 999, Fin.last 999⟩ attempt baseDelay

/-- What the strategy multiplies the base delay with. -/
def factor (attempt : Nat) : ℚ :=
  match c.backoffStrategy with
  | .fixed | .adaptive => 1
  | .linear => attempt
  | .exponential | .exponentialJitter => c.multiplier ^ (attempt - 1)
  | .fibonacci => fibonacci attempt
  | .polynomial => attempt ^ 2

variable {c m} {baseDelay : Time} {attempt attempt' : Nat}

theorem nominalDelay_eq (hstrategy : c.backoffStrategy ≠ .adaptive) :
    c.nominalDelay m attempt baseDelay = baseDelay * c.factor attempt := by
  unfold nominalDelay strategyDelay factor
  cases h : c.backoffStrategy with
  | adaptive => exact absurd h hstrategy
  | exponentialJitter => simp only [mul_zero, zero_mul, add_zero]
  | fixed => exact (mul_one _).symm
  | linear => rfl
  | exponential => rfl
  | fibonacci => rfl
  | polynomial => rfl

theorem fibonacci_mono (h : attempt ≤ attempt') (hpos : 1 ≤ attempt) :
    fibonacci attempt ≤ fibonacci attempt' := by
  rw [fibonacci_eq_fib hpos, fibonacci_eq_fib (hpos.trans h)]
  exact Nat.fib_mono h

theorem factor_nonneg (hmultiplier : 1 ≤ c.multiplier) : 0 ≤ c.factor attempt := by
  have hpow : 0 ≤ c.multiplier ^ (attempt - 1) := pow_nonneg (zero_le_one.trans hmultiplier) _
  unfold factor
  cases c.backoffStrategy with
  | fixed => exact zero_le_one
  | adaptive => exact zero_le_one
  | linear => exact Nat.cast_nonneg _
  | exponential => exact hpow
  | exponentialJitter => exact hpow
  | fibonacci => exact Nat.cast_nonneg _
  | polynomial => exact sq_nonneg _

theorem factor_mono (hmultiplier : 1 ≤ c.multiplier) (h : attempt ≤ attempt')
    (hpos : 1 ≤ attempt) : c.factor attempt ≤ c.factor attempt' := by
  have hpow : c.multiplier ^ (attempt - 1) ≤ c.multiplier ^ (attempt' - 1) :=
    pow_le_pow_right₀ hmultiplier (Nat.sub_le_sub_right h 1)
  have hcast : (attempt : ℚ) ≤ attempt' := Nat.cast_le.mpr h
  unfold factor
  cases c.backoffStrategy with
  | fixed => exact le_rfl
  | adaptive => exact le_rfl
  | linear => exact hcast
  | exponential => exact hpow
  | exponentialJitter => exact hpow
  | fibonacci => exact Nat.cast_le.mpr (fibonacci_mono h hpos)
  | polynomial => exact pow_le_pow_left₀ (Nat.cast_nonneg _) hcast 2

section

variable (hstrategy : c.backoffStrategy ≠ .adaptive) (hbase : 0 ≤ baseDelay)
  (hmultiplier : 1 ≤ c.multiplier)

include hstrategy hbase hmultiplier

theorem nominalDelay_nonneg : 0 ≤ c.nominalDelay m attempt baseDelay := by
  rw [nominalDelay_eq hstrategy]
  exact mul_nonneg hbase (factor_nonneg hmultiplier)

theorem nominalDelay_mono (h : attempt ≤ attempt') (hpos : 1 ≤ attempt) :
    c.nominalDelay m attempt baseDelay ≤ c.nominalDelay m attempt' baseDelay := by
  rw [nominalDelay_eq hstrategy, nominalDelay_eq hstrategy]
  exact mul_le_mul_of_nonneg_left (factor_mono hmultiplier h hpos) hbase

end

/-- What a draw makes of a delay. -/
theorem jittered_bounds {delay jitter : ℚ} (hdelay : 0 ≤ delay) (hjitter : 0 ≤ jitter)
    (draw : Fin 1000) :
    delay ≤ delay + delay * jitter * (draw.val / 1000) ∧
      delay + delay * jitter * (draw.val / 1000) ≤ (1 + jitter) * delay := by
  have hdraw : (draw.val : ℚ) / 1000 ≤ 1 := by
    rw [div_le_one (by norm_num)]
    exact_mod_cast draw.isLt.le
  have hshare : 0 ≤ delay * jitter := mul_nonneg hdelay hjitter
  constructor
  · exact le_add_of_nonneg_right (mul_nonneg hshare (by positivity))
  · calc delay + delay * jitter * (draw.val / 1000)
        ≤ delay + delay * jitter * 1 := by gcongr
      _ = (1 + jitter) * delay := by ring

section

variable (hstrategy : c.backoffStrategy ≠ .adaptive) (hbase : 0 ≤ baseDelay)
  (hmultiplier : 1 ≤ c.multiplier) (draws : Draws)

include hstrategy in
theorem strategyDelay_of_ne (h : c.backoffStrategy ≠ .exponentialJitter) :
    c.strategyDelay m draws attempt baseDelay = c.nominalDelay m attempt baseDelay := by
  unfold nominalDelay strategyDelay
  cases heq : c.backoffStrategy with
  | adaptive => exact absurd heq hstrategy
  | exponentialJitter => exact absurd heq h
  | fixed => rfl
  | linear => rfl
  | exponential => rfl
  | fibonacci => rfl
  | polynomial => rfl

theorem strategyDelay_exponentialJitter (h : c.backoffStrategy = .exponentialJitter) :
    c.strategyDelay m draws attempt baseDelay = c.nominalDelay m attempt baseDelay +
      c.nominalDelay m attempt baseDelay * c.jitterFactor * (draws.strategy.val / 1000) := by
  rw [nominalDelay_eq (by simp [h])]
  simp only [strategyDelay, factor, h]

include hstrategy hbase hmultiplier in
/-- One of the strategies jitters its delay by itself. -/
theorem strategyDelay_bounds (m : AdvancedRetryMetrics) (attempt : Nat)
    (hjitter : 0 ≤ c.jitterFactor) :
    c.nominalDelay m attempt baseDelay ≤ c.strategyDelay m draws attempt baseDelay ∧
      c.strategyDelay m draws attempt baseDelay ≤
        (1 + c.jitterFactor) * c.nominalDelay m attempt baseDelay := by
  have hnominal : 0 ≤ c.nominalDelay m attempt baseDelay :=
    nominalDelay_nonneg hstrategy hbase hmultiplier
  by_cases h : c.backoffStrategy = .exponentialJitter
  · rw [strategyDelay_exponentialJitter draws h]
    exact jittered_bounds hnominal hjitter draws.strategy
  · rw [strategyDelay_of_ne hstrategy draws h]
    exact ⟨le_rfl, le_mul_of_one_le_left hnominal (le_add_of_nonneg_right hjitter)⟩

theorem calculateDelay_of_le (h : attempt ≤ 1) : c.calculateDelay m draws attempt baseDelay = 0 :=
  if_pos h

theorem calculateDelay_of_jitter (hstrategy : c.backoffStrategy ≠ .adaptive)
    (hjitter : 0 < c.jitterFactor) (h : 2 ≤ attempt) :
    c.calculateDelay m draws attempt baseDelay =
      min (c.strategyDelay m draws attempt baseDelay + c.strategyDelay m draws attempt baseDelay *
        c.jitterFactor * (draws.jitter.val / 1000)) c.maxDelay := by
  simp only [calculateDelay, if_neg (show ¬attempt ≤ 1 by omega)]
  rw [if_pos ⟨hstrategy, hjitter⟩]

/-- Without jitter the draws do not matter. -/
theorem calculateDelay_of_jitter_zero (hstrategy : c.backoffStrategy ≠ .adaptive)
    (hjitter : c.jitterFactor = 0) (h : 2 ≤ attempt) :
    c.calculateDelay m draws attempt baseDelay =
      min (c.nominalDelay m attempt baseDelay) c.maxDelay := by
  have hdelay : c.strategyDelay m draws attempt baseDelay = c.nominalDelay m attempt baseDelay := by
    by_cases hstrategy' : c.backoffStrategy = .exponentialJitter
    · rw [strategyDelay_exponentialJitter draws hstrategy', hjitter, mul_zero, zero_mul, add_zero]
    · exact strategyDelay_of_ne hstrategy draws hstrategy'
  simp only [calculateDelay, if_neg (show ¬attempt ≤ 1 by omega), hjitter, lt_irrefl, and_false,
    if_false, hdelay]

end

theorem calculateDelay_le_maxDelay (hmax : 0 ≤ c.maxDelay) (draws : Draws) :
    c.calculateDelay m draws attempt baseDelay ≤ c.maxDelay := by
  unfold calculateDelay
  split
  · exact hmax
  · exact min_le_right _ _

section

variable (hstrategy : c.backoffStrategy ≠ .adaptive) (hbase : 0 ≤ baseDelay)
  (hmultiplier : 1 ≤ c.multiplier)

include hstrategy hbase hmultiplier

theorem calculateDelay_mono (hmax : 0 ≤ c.maxDelay) (hjitter : c.jitterFactor = 0)
    (draws draws' : Draws) (h : attempt ≤ attempt') :
    c.calculateDelay m draws attempt baseDelay ≤ c.calculateDelay m draws' attempt' baseDelay := by
  by_cases hfirst' : attempt' ≤ 1
  · rw [calculateDelay_of_le draws (h.trans hfirst'), calculateDelay_of_le draws' hfirst']
  rw [calculateDelay_of_jitter_zero draws' hstrategy hjitter (by omega)]
  by_cases hfirst : attempt ≤ 1
  · rw [calculateDelay_of_le draws hfirst]
    exact le_min (nominalDelay_nonneg hstrategy hbase hmultiplier) hmax
  · rw [calculateDelay_of_jitter_zero draws hstrategy hjitter (by omega)]
    exact min_le_min_right _
      (nominalDelay_mono hstrategy hbase hmultiplier h (by omega))

/-- The jitter of the strategy and the one after it each add at most their share. -/
theorem calculateDelay_bounds (hjitter : 0 < c.jitterFactor) (draws : Draws) (h : 2 ≤ attempt) :
    min c.maxDelay (c.nominalDelay m attempt baseDelay) ≤
        c.calculateDelay m draws attempt baseDelay ∧
      c.calculateDelay m draws attempt baseDelay ≤
        min c.maxDelay ((1 + c.jitterFactor) ^ 2 * c.nominalDelay m attempt baseDelay) := by
  have hnominal : 0 ≤ c.nominalDelay m attempt baseDelay :=
    nominalDelay_nonneg hstrategy hbase hmultiplier
  obtain ⟨hlow, hhigh⟩ :=
    strategyDelay_bounds hstrategy hbase hmultiplier draws m attempt hjitter.le
  obtain ⟨hlow', hhigh'⟩ := jittered_bounds (hnominal.trans hlow) hjitter.le draws.jitter
  rw [calculateDelay_of_jitter draws hstrategy hjitter h]
  constructor
  · exact le_min ((min_le_right _ _).trans (hlow.trans hlow')) (min_le_left _ _)
  · refine le_min (min_le_right _ _) ((min_le_left _ _).trans (hhigh'.trans ?_))
    calc (1 + c.jitterFactor) * c.strategyDelay m draws attempt baseDelay
        ≤ (1 + c.jitterFactor) * ((1 + c.jitterFactor) * c.nominalDelay m attempt baseDelay) :=
          mul_le_mul_of_nonneg_left hhigh (by linarith)
      _ = (1 + c.jitterFactor) ^ 2 * c.nominalDelay m attempt baseDelay := by ring

end

/-- There is no delay before the first attempt; without jitter the delays grow up to the cap, and
with it they stay between the nominal ones and those with both jitters in full.  The Fibonacci
numbers are those of the sequence. -/
theorem calculateDelay_spec (c : AdvancedRetryConfig) (m : AdvancedRetryMetrics) (baseDelay : Time)
    (hstrategy : c.backoffStrategy ≠ .adaptive) (hbase : 0 ≤ baseDelay) (hmax : 0 ≤ c.maxDelay)
    (hmultiplier : 1 ≤ c.multiplier) :
    (∀ draws, c.calculateDelay m draws 1 baseDelay = 0) ∧
      (c.jitterFactor = 0 → ∀ draws attempt,
        c.calculateDelay m draws attempt baseDelay ≤ c.maxDelay ∧
          ∀ draws' attempt', attempt ≤ attempt' →
            c.calculateDelay m draws attempt baseDelay ≤
              c.calculateDelay m draws' attempt' baseDelay) ∧
      (0 < c.jitterFactor → ∀ draws attempt, 2 ≤ attempt →
        min c.maxDelay (c.nominalDelay m attempt baseDelay) ≤
            c.calculateDelay m draws attempt baseDelay ∧
          c.calculateDelay m draws attempt baseDelay ≤
            min c.maxDelay ((1 + c.jitterFactor) ^ 2 * c.nominalDelay m attempt baseDelay)) ∧
      ∀ n, 1 ≤ n → fibonacci n = Nat.fib n := by
  refine ⟨fun draws => calculateDelay_of_le draws le_rfl, fun hjitter draws attempt => ?_,
    fun hjitter draws attempt h => ?_, fun n hn => fibonacci_eq_fib hn⟩
  · exact ⟨calculateDelay_le_maxDelay hmax draws, fun draws' attempt' h =>
      calculateDelay_mono hstrategy hbase hmultiplier hmax hjitter draws draws' h⟩
  · exact calculateDelay_bounds hstrategy hbase hmultiplier hjitter draws h

theorem calculateDelay_spec_default :
    AdvancedRetryConfig.calculateDelay {} {} ⟨500, 250⟩ 1 1 = 0 ∧
      2 ≤ AdvancedRetryConfig.calculateDelay {} {} ⟨500, 250⟩ 2 1 := by
  obtain ⟨hfirst, -, hlater, -⟩ :=
    calculateDelay_spec {} {} 1 (by decide) (by norm_num) (by norm_num) (by norm_num)
  refine ⟨hfirst _, le_trans ?_ (hlater (by norm_num) _ 2 le_rfl).1⟩
  rw [nominalDelay_eq (by decide)]
  norm_num [factor]

end AdvancedRetryConfig

end Marty.Resilience.AdvancedRetry
