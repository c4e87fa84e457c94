import Marty.Resilience.Recovery
import Marty.Resilience.Retry

/-! `async_call_with_resilience` on one breaker name.  Calls interleave at their attempts; an
attempt tells the breaker of an exception, and of nothing else. -/

namespace Marty.Resilience.Outbound

open Lib.Run CircuitBreaker Resilience.Errors Retry Recovery

variable {α : Type}

/-- `CircuitBreaker(name)` -/
def config : Config := {}

inductive Progress (α : Type)
  | refused
  | attempting (n : Nat)
  | ended (outcome : Outcome α)

structure Call (α : Type) where
  retry : RetryConfig
  progress : Progress α

/-- An attempt that was made, and what the breaker was told of it, `true` for a success. -/
structure Made (α : Type) where
  outcome : Outcome α
  records : List Bool := []

/-- `streak` counts the attempts that have returned one after another since the breaker last let a
call through after an outage. -/
structure System (α : Type) where
  breaker : Breaker
  calls : List (Call α) := []
  made : List (Made α) := []
  streak : Nat := 0

def init (now : Time) : System α where
  breaker := .init now

/-- The body of `_attempt`.  Both of its returns stand inside the `try`, so its `else` is not
reached. -/
def attempt (outcome : Outcome α) (now : Time) (b : Breaker) : Breaker × List Bool :=
  match outcome with
  | .returned _ => (b, [])
  | .raised _ => (b.recordFailure config now true, [false])
  | .baseException => (b, [])

inductive Label (α : Type)
  | call (maxAttempts : Int) (base maxWait : Time) (now : Time)
  /-- The current attempt of call `i` ends. -/
  | attempt (i : Nat) (x : Execution α) (told : Time)

/-- A new call, after the breaker has been asked. -/
def System.call (s : System α) (retry : RetryConfig) (now : Time) : System α :=
  let asked := s.breaker.allowRequest config now
  { s with
    breaker := asked.2
    calls := s.calls ++ [⟨retry, if asked.1 then .attempting 1 else .refused⟩]
    streak := if s.breaker.state = .opened ∧ asked.2.state = .halfOpen then 0 else s.streak }

/-- What an attempt leaves of a call: another attempt, or its end. -/
def Call.after (c : Call α) (n : Nat) (x : Execution α) : Call α :=
  { c with
    progress :=
      if (policyOf c.retry).again (fun _ => x) n then .attempting (n + 1)
      else .ended (wrapped x) }

def System.attempt (s : System α) (i n : Nat) (c : Call α) (x : Execution α) (told : Time) :
    System α :=
  let (breaker, records) := Outbound.attempt x.outcome told s.breaker
  { breaker := breaker
    calls := s.calls.set i (c.after n x)
    made := s.made ++ [⟨x.outcome, records⟩]
    streak := if x.outcome.isReturned then s.streak + 1 else 0 }

def step (s : System α) : Label α → Option (System α)
  | .call maxAttempts base maxWait now =>
    some (s.call (defaultRetry maxAttempts base maxWait) now)
  | .attempt i x told =>
    match s.calls[i]? with
    | none => none
    | some c =>
      match c.progress with
      | .attempting n => some (s.attempt i n c x told)
      | _ => none

/-- An attempt is recorded once, as a success if it returned and as a failure otherwise. -/
structure Recorded (m : Made α) : Prop where
  successes : m.records.count true = if m.outcome.isReturned then 1 else 0
  failures : m.records.count false = if m.outcome.isReturned then 0 else 1

/-- Every attempt is recorded, and enough successes in a row close a breaker that is half open. -/
structure Sound (s : System α) : Prop where
  recorded : ∀ m ∈ s.made, Recorded m
  recovers : s.breaker.state = .halfOpen → s.streak < config.halfOpenSuccessThreshold

/-- The attempt raises an `Exception`, if the call makes one. -/
def Fails (s : System α) : Label α → Prop
  | .call _ _ _ _ => True
  | .attempt i x _ =>
    ∀ c n, s.calls[i]? = some c → c.progress = .attempting n → ∃ e, x.outcome = .raised e

variable {s s' : System α}

theorem attempt_recorded_iff (outcome : Outcome α) (now : Time) (b : Breaker) :
    Recorded ⟨outcome, (attempt outcome now b).2⟩ ↔ ∃ e, outcome = .raised e := by
  cases outcome with
  | returned value =>
    refine iff_of_false (fun h => ?_) (by simp)
    have hsuccesses := h.successes
    simp [attempt, Outcome.isReturned] at hsuccesses
  | raised e => exact iff_of_true ⟨rfl, rfl⟩ ⟨e, rfl⟩
  | baseException =>
    refine iff_of_false (fun h => ?_) (by simp)
    have hfailures := h.failures
    simp [attempt, Outcome.isReturned] at hfailures

theorem step_cases {l : Label α} (h : step s l = some s') :
    (∃ maxAttempts base maxWait now, l = .call maxAttempts base maxWait now ∧
      s' = s.call (defaultRetry maxAttempts base maxWait) now) ∨
    ∃ i x told c n, l = .attempt i x told ∧ s.calls[i]? = some c ∧ c.progress = .attempting n ∧
      s' = s.attempt i n c x told := by
  cases l with
  | call maxAttempts base maxWait now =>
    exact .inl ⟨maxAttempts, base, maxWait, now, rfl, (Option.some.inj h).symm⟩
  | attempt i x told =>
    simp only [step] at h
    split at h
    case h_1 => cases h
    case h_2 c hc =>
      split at h
      case h_1 n hn => exact .inr ⟨i, x, told, c, n, rfl, hc, hn, (Option.some.inj h).symm⟩
      case h_2 => cases h

theorem call_sound (hs : Sound s) (retry : RetryConfig) (now : Time) :
    Sound (s.call retry now) where
  recorded := hs.recorded
  recovers hhalf := by
    simp only [System.call] at hhalf ⊢
    split
    case isTrue => decide
    case isFalse hnot =>
      refine hs.recovers ?_
      rcases allowRequest_cases (c := config) now s.breaker with hstill | ⟨hopened, -, -⟩
      · exact hstill.1.symm.trans hhalf
      · exact absurd ⟨hopened, hhalf⟩ hnot

theorem attempt_sound_iff (hs : Sound s) (i n : Nat) (c : Call α) (x : Execution α)
    (told : Time) : Sound (s.attempt i n c x told) ↔ ∃ e, x.outcome = .raised e := by
  rw [← attempt_recorded_iff x.outcome told s.breaker]
  constructor
  · intro h
    exact h.recorded _ (List.mem_append_right _ List.mem_cons_self)
  · intro hrecorded
    obtain ⟨e, he⟩ := (attempt_recorded_iff _ _ _).mp hrecorded
    refine ⟨fun m hm => ?_, fun _ => ?_⟩
    · rcases List.mem_append.mp hm with hold | hnew
      · exact hs.recorded m hold
      · rwa [List.mem_singleton.mp hnew]
    · have hstreak : (s.attempt i n c x told).streak = 0 := by
        simp [System.attempt, he, Outcome.isReturned]
      rw [hstreak]
      decide

theorem step_sound_iff (hs : Sound s) (l : Label α) :
    Fails s l ↔ ∀ s', step s l = some s' → Sound s' := by
  cases l with
  | call maxAttempts base maxWait now =>
    refine iff_of_true trivial fun s' h => ?_
    obtain rfl := Option.some.inj h
    exact call_sound hs _ now
  | attempt i x told =>
    constructor
    · intro hfails s' h
      obtain ⟨_, _, _, _, hl, -⟩ | ⟨_, _, _, c, n, hl, hc, hn, rfl⟩ := step_cases h
      · cases hl
      · cases hl
        exact (attempt_sound_iff hs i n c x told).mpr (hfails c n hc hn)
    · intro hsound c n hc hn
      have h : step s (.attempt i x told) = some (s.attempt i n c x told) := by
        simp [step, hc, hn]
      exact (attempt_sound_iff hs i n c x told).mp (hsound _ h)

theorem init_sound (start : Time) : Sound (init (α := α) start) where
  recorded := by simp [init]
  recovers := nofun

/-- In every state of a run the attempts are recorded and the breaker recovers exactly when every
attempt of the run raises an exception. -/
theorem outbound_recorded_iff (start : Time) (ls : List (Label α)) :
    (∀ n s, run step (init start) (ls.take n) = some s → Sound s) ↔
      Guarded step Fails (init start) ls :=
  forall_take_iff_guarded (fun _ l hs => step_sound_iff hs l) (init_sound start)

/-- A successful call is not recorded. -/
theorem success_unrecorded : ¬ ∀ n s,
    run step (init (α := Unit) 0)
      ([.call 5 (2 / 10) 3 0, .attempt 0 ⟨0, .returned (), 0⟩ 0].take n) = some s → Sound s := by
  intro h
  have hrecorded := (h 2 _ rfl).recorded _ List.mem_cons_self
  have hsuccesses := hrecorded.successes
  simp [Outcome.isReturned] at hsuccesses

/-- The helper never closes a breaker. -/
theorem step_not_closed {l : Label α} (h : step s l = some s') (hs : s.breaker.state ≠ .closed) :
    s'.breaker.state ≠ .closed := by
  obtain ⟨maxAttempts, base, maxWait, now, -, rfl⟩ | ⟨i, x, told, c, n, -, -, -, rfl⟩ :=
    step_cases h
  · show (s.breaker.allowRequest config now).2.state ≠ .closed
    rcases allowRequest_cases (c := config) now s.breaker with hstill | ⟨-, hhalf, -⟩
    · rwa [hstill.1]
    · rw [hhalf]
      nofun
  · show (Outbound.attempt x.outcome told s.breaker).1.state ≠ .closed
    cases hx : x.outcome with
    | returned value => exact hs
    | baseException => exact hs
    | raised e =>
      rcases recordFailure_cases (c := config) told true s.breaker with hstill | hopened
      · rwa [Outbound.attempt, hstill.1]
      · rw [Outbound.attempt, hopened]
        nofun

/-- Once a breaker has opened it is never closed again, however many calls succeed. -/
theorem stays_open {ls : List (Label α)} (h : run step s ls = some s')
    (hs : s.breaker.state ≠ .closed) : s'.breaker.state ≠ .closed :=
  run_preserves (I := fun s : System α => s.breaker.state ≠ .closed)
    (fun _ _ _ hs h => step_not_closed h hs) hs h

end Marty.Resilience.Outbound
