import Marty.Resilience.CircuitBreaker

/-! The slots of a breaker: `_concurrent_requests` against the calls that have taken a slot and
not ended. -/

namespace Marty.Resilience.Slots

open Lib Lib.Run CircuitBreaker

variable {c : Config} {s s' : System} {l : Label}

@[simp]
theorem transitionTo_concurrentRequests (b : Breaker) (state : CircuitBreakerState) (now : Time) :
    (b.transitionTo state now).concurrentRequests = b.concurrentRequests := by
  unfold Breaker.transitionTo
  split <;> rfl

@[simp]
theorem canMakeRequest_concurrentRequests (b : Breaker) :
    (b.canMakeRequest c).2.concurrentRequests = b.concurrentRequests := by
  unfold Breaker.canMakeRequest
  split <;> rfl

theorem allowRequest_concurrentRequests (now : Time) (b : Breaker) :
    (b.allowRequest c now).2.concurrentRequests = b.concurrentRequests := by
  unfold Breaker.allowRequest
  split
  · split <;> simp
  · simp
  · split <;> simp

theorem recordSuccess_concurrentRequests (now : Time) (b : Breaker) :
    (b.recordSuccess c now).concurrentRequests = max 0 (b.concurrentRequests - 1) := by
  simp only [Breaker.recordSuccess]
  split
  · split
    · simp [Breaker.releaseSlot]
    · rfl
  · rfl

theorem recordFailure_concurrentRequests (now : Time) (trips : Bool) (b : Breaker) :
    (b.recordFailure c now trips).concurrentRequests = max 0 (b.concurrentRequests - 1) := by
  simp only [Breaker.recordFailure]
  split
  · rfl
  · split
    · simp [Breaker.releaseSlot]
    · split
      · simp [Breaker.releaseSlot]
      · rfl
    · rfl

theorem allowRequest_of_closed {b : Breaker} (hclosed : b.state = .closed)
    (hfree : b.concurrentRequests < c.maxConcurrentRequests) (now : Time) :
    (b.allowRequest c now).1 = true := by
  have hmake : ∀ b' : Breaker, b'.concurrentRequests = b.concurrentRequests →
      (b'.canMakeRequest c).1 = true := by
    intro b' hb'
    have : ¬ b'.concurrentRequests ≥ c.maxConcurrentRequests := by omega
    simp [Breaker.canMakeRequest, this]
  simp only [Breaker.allowRequest, hclosed]
  split
  · exact hmake _ rfl
  · exact hmake _ rfl

theorem slots_set {i : Nat} {call : Call} (hi : s.calls[i]? = some call) (breaker : Breaker)
    (call' : Call) :
    System.slots ⟨breaker, s.calls.set i call'⟩ + (if call.holdsSlot then 1 else 0) =
      s.slots + (if call'.holdsSlot then 1 else 0) :=
  Pool.countP_set hi call' Call.holdsSlot

/-- What a step does to the counter and to the slots in use. -/
inductive Accounts (s : System) : Label → System → Prop
  | same {l : Label} {s' : System}
      (hcount : s'.breaker.concurrentRequests = s.breaker.concurrentRequests)
      (hslots : s'.slots = s.slots) : Accounts s l s'
  | take {i : Nat} {s' : System}
      (hcount : s'.breaker.concurrentRequests = s.breaker.concurrentRequests + 1)
      (hslots : s'.slots = s.slots + 1) : Accounts s (.enter i) s'
  | release {i : Nat} {now : Time} {trips : Bool} {s' : System}
      (hcount : s'.breaker.concurrentRequests = max 0 (s.breaker.concurrentRequests - 1))
      (hslots : s'.slots + 1 = s.slots) : Accounts s (.record i now trips) s'
  | leak {i : Nat} {s' : System}
      (hcount : s'.breaker.concurrentRequests = s.breaker.concurrentRequests)
      (hslots : s'.slots + 1 = s.slots) : Accounts s (.finish i .baseException) s'
  | reset {now : Time} {s' : System} (hcount : s'.breaker.concurrentRequests = 0)
      (hslots : s'.slots = s.slots) : Accounts s (.reset now) s'

theorem step_accounts (h : step c s l = some s') : Accounts s l s' := by
  cases l with
  | call =>
    obtain rfl := Option.some.inj h
    exact .same rfl (by simp [System.slots, Call.holdsSlot])
  | allow i now =>
    simp only [step] at h
    split at h
    case h_2 => cases h
    case h_1 hi =>
      obtain rfl := Option.some.inj h
      refine .same (allowRequest_concurrentRequests now s.breaker) ?_
      have hset := slots_set hi (s.breaker.allowRequest c now).2
      split
      · simpa [Call.holdsSlot] using hset .allowed
      · simpa [Call.holdsSlot] using hset .rejected
  | enter i =>
    simp only [step] at h
    split at h
    case h_2 => cases h
    case h_1 hi =>
      obtain rfl := Option.some.inj h
      exact .take rfl (by simpa [Call.holdsSlot] using slots_set hi s.breaker.takeSlot .running)
  | finish i ending =>
    simp only [step] at h
    split at h
    case h_2 => cases h
    case h_1 hi =>
      obtain rfl := Option.some.inj h
      have hset := slots_set hi s.breaker (afterFunc ending)
      cases ending with
      | value => exact .same rfl (by simpa [afterFunc, Call.holdsSlot] using hset)
      | exception => exact .same rfl (by simpa [afterFunc, Call.holdsSlot] using hset)
      | baseException => exact .leak rfl (by simpa [afterFunc, Call.holdsSlot] using hset)
  | record i now trips =>
    simp only [step] at h
    split at h
    case h_3 => cases h
    case h_1 hi =>
      obtain rfl := Option.some.inj h
      exact .release (recordSuccess_concurrentRequests now s.breaker)
        (by simpa [Call.holdsSlot] using slots_set hi _ (.ended .value))
    case h_2 hi =>
      obtain rfl := Option.some.inj h
      exact .release (recordFailure_concurrentRequests now trips s.breaker)
        (by simpa [Call.holdsSlot] using slots_set hi _ (.ended .exception))
  | reset now =>
    obtain rfl := Option.some.inj h
    exact .reset rfl rfl

/-- No call is left by an exception its wrapper does not handle. -/
def Handled (_ : System) (l : Label) : Prop := ∀ i, l ≠ .finish i .baseException

/-- `reset` is called with no slot in use. -/
def ResetsIdle (s : System) (l : Label) : Prop := ∀ now, l = .reset now → s.slots = 0

/-- The counter never exceeds the slots in use. -/
def Bounded (s : System) : Prop :=
  0 ≤ s.breaker.concurrentRequests ∧ s.breaker.concurrentRequests ≤ s.slots

def Balanced (s : System) : Prop := s.breaker.concurrentRequests = s.slots

theorem step_bounded (hi : Bounded s) (hg : Handled s l) (h : step c s l = some s') :
    Bounded s' := by
  obtain ⟨hnonneg, hle⟩ := hi
  cases step_accounts h with
  | same hcount hslots => exact ⟨by omega, by omega⟩
  | take hcount hslots => exact ⟨by omega, by omega⟩
  | release hcount hslots => exact ⟨by omega, by omega⟩
  | leak => exact absurd rfl (hg _)
  | reset hcount hslots => exact ⟨by omega, by omega⟩

theorem step_balanced (hi : Balanced s) (hg : Handled s l ∧ ResetsIdle s l)
    (h : step c s l = some s') : Balanced s' := by
  unfold Balanced at hi ⊢
  cases step_accounts h with
  | same hcount hslots => omega
  | take hcount hslots => omega
  | release hcount hslots => omega
  | leak => exact absurd rfl (hg.1 _)
  | reset hcount hslots =>
    have := hg.2 _ rfl
    omega

/-- In a run whose calls all end in a value or an `Exception`, the counter is at most the number
of slots in use, with equality when `reset` is only called with none in use; and with none in
use it is zero and a closed breaker admits the next call. -/
theorem slots_accounted {start : Time} {ls : List Label}
    (hg : Guarded (step c) Handled (System.init start) ls)
    (hr : run (step c) (System.init start) ls = some s) :
    Bounded s ∧ (Guarded (step c) ResetsIdle (System.init start) ls → Balanced s) ∧
      (s.slots = 0 → s.breaker.concurrentRequests = 0 ∧
        (s.breaker.state = .closed → 1 ≤ c.maxConcurrentRequests →
          ∀ now, (s.breaker.allowRequest c now).1 = true)) := by
  have hbounded : Bounded s :=
    run_invariant (fun _ _ _ => step_bounded) ⟨Int.le_refl 0, Int.le_refl 0⟩ hg hr
  refine ⟨hbounded, ?_, ?_⟩
  · intro hreset
    have hinit : Balanced (System.init start) := rfl
    exact run_invariant (fun _ _ _ => step_balanced) hinit (hg.and hreset) hr
  · intro hidle
    have hzero : s.breaker.concurrentRequests = 0 := by
      obtain ⟨h₁, h₂⟩ := hbounded
      omega
    refine ⟨hzero, ?_⟩
    intro hclosed hmax now
    exact allowRequest_of_closed hclosed (by omega) now

/-- One call that returns and one that raises. -/
def twoCalls : List Label :=
  [.call, .allow 0 0, .enter 0, .finish 0 .value, .record 0 1 true,
    .call, .allow 1 2, .enter 1, .finish 1 .exception, .record 1 3 true]

theorem slots_accounted_twoCalls :
    ∃ s, run (step { maxConcurrentRequests := 1 }) (System.init 0) twoCalls = some s ∧
      s.slots = 0 ∧ s.breaker.concurrentRequests = 0 := by
  obtain ⟨s, hr, hidle⟩ : ∃ s,
      run (step { maxConcurrentRequests := 1 }) (System.init 0) twoCalls = some s ∧ s.slots = 0 :=
    ⟨_, rfl, rfl⟩
  have hg : ∀ s, ∀ l ∈ twoCalls, Handled s l := by simp [twoCalls, Handled]
  obtain ⟨-, -, hzero⟩ := slots_accounted (guarded_of_mem hg _) hr
  exact ⟨s, hr, hidle, (hzero hidle).1⟩

/-- One cancelled call under a limit of one: the counter stays at one with no slot in use, and
the closed breaker refuses the next call. -/
theorem cancelled_call_keeps_slot :
    ∃ s, run (step { maxConcurrentRequests := 1 }) (System.init 0)
        [.call, .allow 0 0, .enter 0, .finish 0 .baseException] = some s ∧
      s.slots = 0 ∧ s.breaker.concurrentRequests ≠ s.slots ∧ s.breaker.state = .closed ∧
      (s.breaker.allowRequest { maxConcurrentRequests := 1 } 1).1 = false := by
  refine ⟨_, rfl, rfl, ?_, rfl, rfl⟩
  decide

end Marty.Resilience.Slots
