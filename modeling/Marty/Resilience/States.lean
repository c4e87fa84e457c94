import Mathlib.Algebra.Order.Ring.Rat
import Mathlib.Tactic.Linarith
import Marty.Resilience.CircuitBreaker

/-! The states of a breaker: what its counters say in each of them, and which changes of state
an operation can make. -/

namespace Marty.Resilience.States

open Lib.Run CircuitBreaker

/-- The operations on a breaker, each one critical section.  `trips` is false when the
classifier lets the exception pass. -/
inductive Op
  | allowRequest (now : Time)
  | takeSlot
  | recordSuccess (now : Time)
  | recordFailure (now : Time) (trips : Bool)
  | reset (now : Time)

variable (c : Config)

def Op.apply (b : Breaker) : Op → Breaker
  | .allowRequest now => (b.allowRequest c now).2
  | .takeSlot => b.takeSlot
  | .recordSuccess now => b.recordSuccess c now
  | .recordFailure now trips => b.recordFailure c now trips
  | .reset now => b.reset now

def step (b : Breaker) (op : Op) : Option Breaker := some (op.apply c b)

/-- What the counters say in each state. -/
structure Counts (b : Breaker) : Prop where
  closed : b.state = .closed → b.failureCount < c.failureThreshold ∧ b.successCount = 0
  halfOpen : b.state = .halfOpen →
    b.failureCount = 0 ∧ b.successCount < c.halfOpenSuccessThreshold
  opened : b.state = .opened → 1 ≤ b.failureCount ∧ b.successCount = 0

/-- The changes of state, each with the operation that makes it. -/
inductive Changes : Op → CircuitBreakerState → CircuitBreakerState → Prop
  | stay {op : Op} {state : CircuitBreakerState} : Changes op state state
  | trip {now : Time} : Changes (.recordFailure now true) .closed .opened
  | probe {now : Time} : Changes (.allowRequest now) .opened .halfOpen
  | reopen {now : Time} : Changes (.recordFailure now true) .halfOpen .opened
  | recover {now : Time} : Changes (.recordSuccess now) .halfOpen .closed
  | reset {now : Time} {state : CircuitBreakerState} : Changes (.reset now) state .closed

variable {c} {b : Breaker}

/-- The three fields that decide are the same in both breakers. -/
structure Agrees (b b' : Breaker) : Prop where
  state : b'.state = b.state
  failureCount : b'.failureCount = b.failureCount
  successCount : b'.successCount = b.successCount

theorem Counts.congr {b' : Breaker} (hb : Counts c b) (h : Agrees b b') : Counts c b' := by
  constructor
  · rw [h.state, h.failureCount, h.successCount]
    exact hb.closed
  · rw [h.state, h.failureCount, h.successCount]
    exact hb.halfOpen
  · rw [h.state, h.failureCount, h.successCount]
    exact hb.opened

theorem canMakeRequest_agrees (b : Breaker) : Agrees b (b.canMakeRequest c).2 := by
  unfold Breaker.canMakeRequest
  split
  · exact ⟨rfl, rfl, rfl⟩
  · exact ⟨rfl, rfl, rfl⟩

@[simp]
theorem transitionTo_state (b : Breaker) (state : CircuitBreakerState) (now : Time) :
    (b.transitionTo state now).state = state := by
  unfold Breaker.transitionTo
  split
  · assumption
  · rfl

@[simp]
theorem transitionTo_failureCount (b : Breaker) (state : CircuitBreakerState) (now : Time) :
    (b.transitionTo state now).failureCount = b.failureCount := by
  unfold Breaker.transitionTo
  split <;> rfl

@[simp]
theorem transitionTo_successCount (b : Breaker) (state : CircuitBreakerState) (now : Time) :
    (b.transitionTo state now).successCount = b.successCount := by
  unfold Breaker.transitionTo
  split <;> rfl

theorem counts_closed (hstate : b.state = .closed) (hfail : b.failureCount < c.failureThreshold)
    (hsuccess : b.successCount = 0) : Counts c b :=
  ⟨fun _ => ⟨hfail, hsuccess⟩, by simp [hstate], by simp [hstate]⟩

theorem counts_halfOpen (hstate : b.state = .halfOpen) (hfail : b.failureCount = 0)
    (hsuccess : b.successCount < c.halfOpenSuccessThreshold) : Counts c b :=
  ⟨by simp [hstate], fun _ => ⟨hfail, hsuccess⟩, by simp [hstate]⟩

theorem counts_opened (hstate : b.state = .opened) (hfail : 1 ≤ b.failureCount)
    (hsuccess : b.successCount = 0) : Counts c b :=
  ⟨by simp [hstate], by simp [hstate], fun _ => ⟨hfail, hsuccess⟩⟩

/-- What one operation has to establish of the breaker after it. -/
def Sound (c : Config) (op : Op) (b b' : Breaker) : Prop :=
  Counts c b' ∧ Changes op b.state b'.state

theorem sound_of_agrees {op : Op} {b' : Breaker} (hb : Counts c b) (h : Agrees b b') :
    Sound c op b b' :=
  ⟨hb.congr h, h.state ▸ .stay⟩

/-- The request is let through, or not, by the slots alone. -/
theorem sound_canMakeRequest {op : Op} {b' : Breaker} (h : Sound c op b b') :
    Sound c op b (b'.canMakeRequest c).2 := by
  have hagrees := canMakeRequest_agrees (c := c) b'
  exact ⟨h.1.congr hagrees, hagrees.state ▸ h.2⟩

variable (hfailure : 1 ≤ c.failureThreshold) (hsuccess : 1 ≤ c.halfOpenSuccessThreshold)

include hfailure hsuccess in
theorem allowRequest_sound (hb : Counts c b) (now : Time) :
    Sound c (.allowRequest now) b (b.allowRequest c now).2 := by
  unfold Breaker.allowRequest
  split
  case h_1 hstate =>
    split
    case isTrue =>
      have hpositive : 0 < c.halfOpenSuccessThreshold := Int.lt_of_lt_of_le Int.zero_lt_one hsuccess
      refine sound_canMakeRequest ⟨counts_halfOpen (by simp) rfl hpositive, ?_⟩
      rw [hstate]
      simpa using Changes.probe
    case isFalse => exact sound_of_agrees hb ⟨rfl, rfl, rfl⟩
  case h_2 hstate => exact sound_canMakeRequest (sound_of_agrees hb ⟨rfl, rfl, rfl⟩)
  case h_3 hstate =>
    split
    case isTrue =>
      refine sound_canMakeRequest ⟨counts_closed hstate ?_ (hb.closed hstate).2, .stay⟩
      exact Int.lt_of_lt_of_le Int.zero_lt_one hfailure
    case isFalse => exact sound_canMakeRequest (sound_of_agrees hb ⟨rfl, rfl, rfl⟩)

include hfailure in
theorem recordSuccess_sound (hb : Counts c b) (now : Time) :
    Sound c (.recordSuccess now) b (b.recordSuccess c now) := by
  simp only [Breaker.recordSuccess]
  split
  case h_1 hstate =>
    have hstate : b.state = .halfOpen := hstate
    split
    case isTrue =>
      refine ⟨counts_closed (by simp) (Int.lt_of_lt_of_le Int.zero_lt_one hfailure) rfl, ?_⟩
      rw [hstate]
      simpa using Changes.recover
    case isFalse hfew =>
      refine ⟨counts_halfOpen hstate (hb.halfOpen hstate).1 (Int.not_le.mp hfew), ?_⟩
      exact .stay
  case h_2 => exact sound_of_agrees hb ⟨rfl, rfl, rfl⟩

include hfailure in
theorem recordFailure_sound (hb : Counts c b) (now : Time) (trips : Bool) :
    Sound c (.recordFailure now trips) b (b.recordFailure c now trips) := by
  cases trips with
  | false => exact sound_of_agrees hb ⟨rfl, rfl, rfl⟩
  | true =>
    simp only [Breaker.recordFailure, Bool.not_true, Bool.false_eq_true, if_false]
    split
    case h_1 hstate =>
      have hstate : b.state = .halfOpen := hstate
      refine ⟨counts_opened (by simp) (Int.le_refl 1) rfl, ?_⟩
      rw [hstate]
      simpa using Changes.reopen
    case h_2 hstate =>
      have hstate : b.state = .closed := hstate
      obtain ⟨-, hzero⟩ := hb.closed hstate
      split
      case isTrue hmany =>
        have hmany : c.failureThreshold ≤ b.failureCount + 1 := hmany
        refine ⟨counts_opened (by simp) ?_ ?_, ?_⟩
        · simpa [Breaker.releaseSlot] using Int.le_trans hfailure hmany
        · simpa [Breaker.releaseSlot] using hzero
        · rw [hstate]
          simpa using Changes.trip
      case isFalse hfew =>
        refine ⟨counts_closed hstate (Int.not_le.mp hfew) hzero, ?_⟩
        exact .stay
    case h_3 => exact sound_of_agrees hb ⟨rfl, rfl, rfl⟩

include hfailure hsuccess in
theorem apply_sound (hb : Counts c b) (op : Op) : Sound c op b (op.apply c b) := by
  cases op with
  | allowRequest now => exact allowRequest_sound hfailure hsuccess hb now
  | takeSlot => exact sound_of_agrees hb ⟨rfl, rfl, rfl⟩
  | recordSuccess now => exact recordSuccess_sound hfailure hb now
  | recordFailure now trips => exact recordFailure_sound hfailure hb now trips
  | reset now =>
    exact ⟨counts_closed rfl (Int.lt_of_lt_of_le Int.zero_lt_one hfailure) rfl, .reset⟩

/-- An open breaker refuses until its recovery timeout is over. -/
theorem allowRequest_refuses (hstate : b.state = .opened) {now : Time}
    (hnow : now < b.openedAt + c.recoveryTimeout) : (b.allowRequest c now).1 = false := by
  have hearly : ¬ now - b.openedAt ≥ c.recoveryTimeout := by
    rw [ge_iff_le, not_le]
    linarith
  simp [Breaker.allowRequest, hstate, hearly]

include hfailure hsuccess in
/-- In every state that a run reaches the counters fit the state, an open breaker refuses until
its recovery timeout is over, and the next operation makes one of the five changes of state or
none. -/
theorem counts_of_run {start : Time} {ops : List Op}
    (hr : run (step c) (Breaker.init start) ops = some b) :
    Counts c b ∧
      (b.state = .opened → ∀ now, now < b.openedAt + c.recoveryTimeout →
        (b.allowRequest c now).1 = false) ∧
      ∀ op, Changes op b.state (op.apply c b).state := by
  have hinit : Counts c (Breaker.init start) :=
    counts_closed rfl (Int.lt_of_lt_of_le Int.zero_lt_one hfailure) rfl
  have hb : Counts c b := by
    refine run_preserves ?_ hinit hr
    rintro b op _ hb ⟨⟩
    exact (apply_sound hfailure hsuccess hb op).1
  refine ⟨hb, fun hstate now hnow => allowRequest_refuses hstate hnow, fun op => ?_⟩
  exact (apply_sound hfailure hsuccess hb op).2

/-- A breaker that trips, probes and fails the probe. -/
theorem counts_of_reopened :
    ∃ b, run (step { failureThreshold := 1 }) (Breaker.init 0)
        [.recordFailure 0 true, .allowRequest 30, .recordFailure 31 true] = some b ∧
      b.state = .opened ∧ Counts { failureThreshold := 1 } b := by
  obtain ⟨b, hr, hstate⟩ : ∃ b, run (step { failureThreshold := 1 }) (Breaker.init 0)
      [.recordFailure 0 true, .allowRequest 30, .recordFailure 31 true] = some b ∧
      b.state = .opened := ⟨_, rfl, by decide +kernel⟩
  exact ⟨b, hr, hstate, (counts_of_run (by decide) (by decide) hr).1⟩

end Marty.Resilience.States
