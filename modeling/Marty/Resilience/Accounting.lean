import Marty.Resilience.ServerInterceptor

/-! The balance of the request counters: a request is in flight until a counter has it, or until it
has left without one. -/

namespace Marty.Resilience.Accounting

open Lib Lib.Run Resilience.Errors ServerInterceptor
open CircuitBreaker (Breaker Time)

def inFlight (r : Request) : Bool :=
  r.phase = .started ∨ r.phase = .admitted ∨ r.phase = .handling

def counted (m : RequestMetrics) : Nat :=
  m.successfulRequests + m.failedRequests + m.circuitBreakerRejections

def Balanced (s : State) : Prop :=
  s.metrics.totalRequests = counted s.metrics + s.requests.countP inFlight

/-- No handler is cancelled, no response stream is closed before its end, and an error that is to be
injected can be made. -/
def Recorded (x : Interceptor) (s : State) : Label → Prop
  | .inject i force random error _ => ∀ r ∈ s.requests[i]?, r.phase = .admitted →
    x.failureInjection.shouldFail x.method force random = true → error.isSome
  | .finish i ending _ => ∀ r ∈ s.requests[i]?, r.phase = .handling → ending.possible r.shape →
    ending ≠ .cancelled ∧ ending ≠ .closed
  | _ => True

variable {x : Interceptor} {s : State} {m : RequestMetrics}

/-- Only a request that becomes counted changes a counter, by one. -/
def Kept (m : RequestMetrics) (next : Breaker × RequestMetrics × Phase) : Prop :=
  next.2.1.totalRequests = m.totalRequests ∧
    counted next.2.1 = counted m + if next.2.2 = .counted then 1 else 0

theorem counted_success (start now : Time) :
    counted (m.recordRequestSuccess start now) = counted m + 1 := by
  simp only [counted, RequestMetrics.recordRequestSuccess, RequestMetrics.recordResponseTime]
  omega

theorem counted_failure (start now : Time) (errorType : String) (isInjected : Bool) :
    counted (m.recordRequestFailure start now errorType isInjected) = counted m + 1 := by
  simp only [counted, RequestMetrics.recordRequestFailure, RequestMetrics.recordResponseTime]
  omega

theorem kept_atBreaker (now : Time) : Kept s.metrics (x.atBreaker s now) := by
  unfold Interceptor.atBreaker
  dsimp only
  split
  · exact ⟨rfl, rfl⟩
  · exact ⟨rfl, rfl⟩

theorem kept_beforeHandler (start now : Time) (force : Bool) (random : ℚ) (error : Option Error) :
    Kept s.metrics (x.beforeHandler s start now force random error) := by
  unfold Interceptor.beforeHandler
  split
  · cases error with
    | none => exact ⟨rfl, rfl⟩
    | some e => exact ⟨rfl, counted_failure start now _ _⟩
  · exact ⟨rfl, rfl⟩

theorem kept_afterHandler (start now : Time) (ending : Ending) :
    Kept s.metrics (x.afterHandler s start now ending) := by
  cases ending with
  | value => exact ⟨rfl, counted_success start now⟩
  | exhausted => exact ⟨rfl, counted_success start now⟩
  | rpcError => exact ⟨rfl, counted_failure start now _ _⟩
  | exception e => exact ⟨rfl, counted_failure start now _ _⟩
  | cancelled => exact ⟨rfl, rfl⟩
  | closed => exact ⟨rfl, rfl⟩

/-- A request in flight keeps the balance when it moves, unless it leaves. -/
theorem balanced_moved_iff (hs : Balanced s) {i : Nat} {r : Request}
    (hi : s.requests[i]? = some r) (hr : inFlight r = true)
    {next : Breaker × RequestMetrics × Phase} (hnext : Kept s.metrics next) :
    Balanced (s.moved i r next) ↔ next.2.2 ≠ .left := by
  obtain ⟨breaker, metrics, phase⟩ := next
  obtain ⟨htotal, hcounted⟩ := hnext
  have hcount := Pool.countP_set hi { r with phase := phase } inFlight
  unfold Balanced at hs ⊢
  simp only [State.moved, hr, if_true] at htotal hcounted hcount ⊢
  cases phase <;> simp [inFlight] at hcounted hcount ⊢ <;> omega

theorem beforeHandler_eq_left_iff {start now : Time} {force : Bool} {random : ℚ}
    {error : Option Error} :
    (x.beforeHandler s start now force random error).2.2 ≠ .left ↔
      (x.failureInjection.shouldFail x.method force random = true → error.isSome) := by
  unfold Interceptor.beforeHandler
  split
  · next h => cases error <;> simp [h]
  · next h => simp [h]

theorem afterHandler_ne_left_iff {start now : Time} {ending : Ending} :
    (x.afterHandler s start now ending).2.2 ≠ .left ↔
      ending ≠ .cancelled ∧ ending ≠ .closed := by
  cases ending <;> simp [Interceptor.afterHandler]

theorem atBreaker_ne_left (now : Time) : (x.atBreaker s now).2.2 ≠ .left := by
  unfold Interceptor.atBreaker
  dsimp only
  split <;> simp

theorem recorded_iff (hs : Balanced s) (l : Label) :
    Recorded x s l ↔ ∀ s', step x s l = some s' → Balanced s' := by
  cases l with
  | request shape now =>
    refine ⟨fun _ s' h => ?_, fun _ => trivial⟩
    obtain rfl := Option.some.inj h
    simp [Balanced, inFlight, counted, RequestMetrics.recordRequestStart] at hs ⊢
    omega
  | allow i now =>
    refine ⟨fun _ s' h => ?_, fun _ => trivial⟩
    simp only [step] at h
    split at h
    case h_2 => cases h
    case h_1 r hi =>
      split at h
      case isFalse => cases h
      case isTrue hphase =>
        obtain rfl := Option.some.inj h
        exact (balanced_moved_iff hs hi (by simp [inFlight, hphase]) (kept_atBreaker now)).mpr
          (atBreaker_ne_left now)
  | inject i force random error now =>
    simp only [step, Recorded]
    cases hi : s.requests[i]? with
    | none => simp
    | some r =>
      by_cases hphase : r.phase = .admitted
      · have hmoved := @balanced_moved_iff s hs i r hi (by simp [inFlight, hphase]) _
          (@kept_beforeHandler x s r.start now force random error)
        rw [beforeHandler_eq_left_iff] at hmoved
        simp [hphase, hmoved]
      · simp [hphase]
  | item i =>
    refine ⟨fun _ s' h => ?_, fun _ => trivial⟩
    simp only [step] at h
    split at h
    case h_2 => cases h
    case h_1 r hi =>
      split at h
      case isFalse => cases h
      case isTrue => exact Option.some.inj h ▸ hs
  | finish i ending now =>
    simp only [step, Recorded]
    cases hi : s.requests[i]? with
    | none => simp
    | some r =>
      by_cases hphase : r.phase = .handling ∧ ending.possible r.shape = true
      · have hmoved := @balanced_moved_iff s hs i r hi (by simp [inFlight, hphase.1]) _
          (@kept_afterHandler x s r.start now ending)
        rw [afterHandler_ne_left_iff] at hmoved
        simp [hphase.1, hphase.2, hmoved]
      · have hno : r.phase = .handling → ¬ ending.possible r.shape = true :=
          fun h h' => hphase ⟨h, h'⟩
        simp only [hphase, if_false]
        refine ⟨fun _ _ => nofun, fun _ r' hr' hp hpossible => ?_⟩
        obtain rfl := Option.some.inj hr'
        exact absurd hpossible (hno hp)

/-- From new metrics, the counters balance in every state of a run exactly when no request leaves
without a counter: by a cancellation, a closed stream, or an injected error that cannot be made. -/
theorem balanced_iff_recorded (x : Interceptor) (breaker : Breaker) (ls : List Label) :
    (∀ n s, run (step x) { breaker := breaker } (ls.take n) = some s → Balanced s) ↔
      Guarded (step x) (Recorded x) { breaker := breaker } ls :=
  forall_take_iff_guarded (fun _ l hs => recorded_iff hs l) rfl

/-- A request whose handler is cancelled. -/
def cancelledRequest : List Label :=
  [.request .unaryUnary 0, .allow 0 0, .inject 0 false 0 none 0, .finish 0 .cancelled 1]

theorem cancelled_uncounted :
    ∃ s, run (step { method := "Sign" }) { breaker := .init 0 } cancelledRequest = some s ∧
      s.metrics.totalRequests = 1 ∧ counted s.metrics = 0 ∧ s.requests.countP inFlight = 0 ∧
      ¬ Balanced s := by
  refine ⟨_, rfl, rfl, rfl, rfl, fun h => ?_⟩
  cases h

end Marty.Resilience.Accounting
