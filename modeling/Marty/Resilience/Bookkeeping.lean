import Marty.Resilience.ClientInterceptor

/-! What the bookkeeping of a client interceptor does to a call that succeeds. -/

namespace Marty.Resilience.Bookkeeping

open CircuitBreaker Resilience.Errors Metrics ClientInterceptor Interceptor

variable {x : Interceptor} {method : String} {start now : Time} {s : State}

/-- With metrics enabled, recording them raises. -/
theorem record_spec (success : Bool) (e : Option Error) :
    (x.record method start now success e s).2 = s.metrics.isSome ∧
      (x.record method start now success e s).1.metrics.isSome = s.metrics.isSome := by
  obtain ⟨breakers, _ | m⟩ := s
  · exact ⟨rfl, rfl⟩
  · refine ⟨?_, rfl⟩
    simp [record, recordRequestMetrics, MetricsCollector.incrementCounter]

theorem handle_spec (e : Error) :
    (x.handle method start now e s).1.metrics.isSome = s.metrics.isSome ∧
      (x.handle method start now e s).2.1.length ≤ 1 := by
  unfold handle
  refine ⟨?_, ?_⟩
  · refine (record_spec _ _).2.trans ?_
    split <;> rfl
  · dsimp only
    split <;> simp

theorem handle_typeError : (x.handle method start now typeError s).2.1 = [false] := by
  have hrpc : x.isRpcError typeError = false := by
    cases h : x.isAsync <;> simp [isRpcError, h, Error.isInstance, typeError]
  simp [handle, hrpc]

/-- What is recorded of attempt `n`, with metrics enabled or not, and how it ends. -/
structure Accounted (enabled : Bool) (n : Nat) (m : Made) (r : Result) : Prop where
  attempt : m.attempt = n
  other : m.outcome ≠ some .returned → m.service.length ≤ 1 ∧ m.method.length ≤ 1
  whenEnabled : enabled = true → m.outcome = some .returned → m.service = [true, false]
  whenDisabled : enabled = false → m.outcome = some .returned →
    m.service = [true] ∧ m.method = [true] ∧ r = .returned n

theorem callContinuation_spec (n : Nat) (a : Attempt) :
    (x.callContinuation method start n a s).1.metrics.isSome = s.metrics.isSome ∧
      Accounted s.metrics.isSome n (x.callContinuation method start n a s).2.1
        (x.callContinuation method start n a s).2.2 := by
  unfold callContinuation
  cases a.outcome with
  | returned =>
    have hsame : (x.recordSuccess method a.told s).metrics = s.metrics := rfl
    obtain ⟨hraised, hmetrics⟩ := @record_spec x method start a.told
      (x.recordSuccess method a.told s) true none
    rw [hsame] at hraised hmetrics
    dsimp only
    rw [hraised]
    split
    case isTrue henabled =>
      refine ⟨(handle_spec _).1.trans hmetrics, rfl, fun h => absurd rfl h, fun _ _ => ?_,
        fun h => ?_⟩
      · exact congrArg (true :: ·) handle_typeError
      · rw [henabled] at h
        cases h
    case isFalse hdisabled =>
      refine ⟨hmetrics, rfl, fun h => absurd rfl h, fun h => absurd h hdisabled, fun _ _ => ?_⟩
      exact ⟨rfl, rfl, rfl⟩
  | raised e =>
    obtain ⟨hmetrics, hlength⟩ := @handle_spec x method start a.told s e
    exact ⟨hmetrics, rfl, fun _ => ⟨hlength, hlength⟩, fun _ h => (nomatch h),
      fun _ h => (nomatch h)⟩
  | baseException =>
    exact ⟨rfl, rfl, fun _ => ⟨Nat.zero_le _, Nat.zero_le _⟩, fun _ h => (nomatch h),
      fun _ h => (nomatch h)⟩

theorem makeCall_spec (n : Nat) (a : Attempt) :
    (x.makeCall method start n a s).1.metrics.isSome = s.metrics.isSome ∧
      Accounted s.metrics.isSome n (x.makeCall method start n a s).2.1
        (x.makeCall method start n a s).2.2 := by
  have hrejected : ∀ {b r}, Accounted b n { attempt := n } r := fun {_ _} =>
    ⟨rfl, fun _ => ⟨Nat.zero_le _, Nat.zero_le _⟩, fun _ h => (nomatch h), fun _ h => (nomatch h)⟩
  unfold makeCall
  dsimp only
  split
  · exact ⟨rfl, hrejected⟩
  · split
    · exact ⟨rfl, hrejected⟩
    · exact callContinuation_spec n a

theorem tellRetry_metrics (e : Option Error) :
    (x.tellRetry now e s).metrics = s.metrics := by
  unfold tellRetry
  split <;> rfl

/-- At most one attempt is made at a time, and it is accounted for. -/
theorem attemptCall_spec (n : Nat) (a : Attempt) :
    (x.attemptCall method start n a s).1.metrics.isSome = s.metrics.isSome ∧
      ((x.attemptCall method start n a s).2.1 = [] ∨
        ∃ m, (x.attemptCall method start n a s).2.1 = [m] ∧
          Accounted s.metrics.isSome n m (x.attemptCall method start n a s).2.2) := by
  unfold attemptCall
  split
  · exact ⟨rfl, .inl rfl⟩
  · obtain ⟨hmetrics, haccounted⟩ := @makeCall_spec x method start s n a
    exact ⟨hmetrics, .inr ⟨_, rfl, haccounted⟩⟩

/-- Every attempt is accounted for; with metrics disabled, one that succeeds is the last one and its
call is returned. -/
structure Reported (enabled : Bool) (out : List Made × Result) : Prop where
  accounted : ∀ m ∈ out.1, ∃ r, Accounted enabled m.attempt m r
  returned : enabled = false → ∀ m ∈ out.1, m.outcome = some .returned →
    out.2 = .returned m.attempt ∧ out.1.getLast? = some m

theorem reported_nil {enabled : Bool} {r : Result} : Reported enabled ([], r) :=
  ⟨List.forall_mem_nil _, fun _ => List.forall_mem_nil _⟩

theorem retryLoop_spec (attempts : Nat → Attempt) (left n : Nat) (s : State) :
    Reported s.metrics.isSome (x.retryLoop method start attempts left n s).2 := by
  induction left generalizing n s with
  | zero => exact reported_nil
  | succ left ih =>
    obtain ⟨hmetrics, hmade⟩ := @attemptCall_spec x method start s n (attempts n)
    unfold retryLoop
    dsimp only
    split
    case isTrue => exact reported_nil
    case isFalse =>
      generalize x.attemptCall method start n (attempts n) s = called at hmetrics hmade ⊢
      obtain ⟨s₁, made, result⟩ := called
      -- Of the attempt itself.
      have hthis : ∀ m ∈ made, Accounted s.metrics.isSome m.attempt m result ∧
          made.getLast? = some m := by
        intro m hm
        rcases hmade with rfl | ⟨m', rfl, haccounted⟩
        · cases hm
        · obtain rfl := List.mem_singleton.mp hm
          exact ⟨haccounted.attempt ▸ haccounted, rfl⟩
      have haccounted : ∀ m ∈ made, ∃ r, Accounted s.metrics.isSome m.attempt m r :=
        fun m hm => ⟨result, (hthis m hm).1⟩
      have hreturned : s.metrics.isSome = false → ∀ m ∈ made, m.outcome = some .returned →
          result = .returned m.attempt ∧ made.getLast? = some m :=
        fun hb m hm ho => ⟨((hthis m hm).1.whenDisabled hb ho).2.2, (hthis m hm).2⟩
      cases result with
      | returned k => exact ⟨haccounted, hreturned⟩
      | baseException => exact ⟨haccounted, hreturned⟩
      | raised e =>
        dsimp only
        split
        case isTrue => exact ⟨haccounted, hreturned⟩
        case isFalse =>
          have hmetrics' : (x.tellRetry (attempts n).told (some e) s₁).metrics.isSome =
              s.metrics.isSome := by
            rw [tellRetry_metrics]
            exact hmetrics
          obtain ⟨hrest, hlast⟩ := ih (n + 1) (x.tellRetry (attempts n).told (some e) s₁)
          rw [hmetrics'] at hrest hlast
          refine ⟨fun m hm => ?_, fun hb m hm ho => ?_⟩
          · rcases List.mem_append.mp hm with hm | hm
            · exact haccounted m hm
            · exact hrest m hm
          · rcases List.mem_append.mp hm with hm | hm
            · cases (hreturned hb m hm ho).1
            · obtain ⟨hresult, hlast⟩ := hlast hb m hm ho
              exact ⟨hresult, by rw [List.getLast?_append, hlast]; rfl⟩

/-- A call that succeeds is returned at once; an attempt records at most one outcome in a breaker,
and a success as one. -/
structure Faithful (made : List Made) (result : Result) : Prop where
  returned : ∀ m ∈ made, m.outcome = some .returned →
    result = .returned m.attempt ∧ made.getLast? = some m
  once : ∀ m ∈ made, m.service.length ≤ 1 ∧ m.method.length ≤ 1
  success : ∀ m ∈ made, m.outcome = some .returned → m.service = [true] ∧ m.method = [true]

theorem interceptUnaryUnary_spec (attempts : Nat → Attempt) (s : State) :
    Reported s.metrics.isSome (x.interceptUnaryUnary method start attempts s).2 := by
  have hmetrics : ∀ s : State, (x.checkCircuitBreaker start s).2.metrics = s.metrics := by
    intro s
    unfold checkCircuitBreaker
    split <;> rfl
  unfold interceptUnaryUnary
  dsimp only
  split
  case isTrue =>
    have hspec := @retryLoop_spec x method start attempts x.retry.maxAttempts.toNat 0
      (x.checkCircuitBreaker start (setMethod method (getMethodCircuitBreaker method s start) s)).2
    rw [hmetrics] at hspec
    exact hspec
  case isFalse => exact reported_nil

/-- Both interceptors leave the calls that succeed as they are exactly when metrics are disabled or
no attempt succeeds. -/
theorem faithful_iff (x : Interceptor) (method : String) (start : Time) (attempts : Nat → Attempt)
    (s : State) :
    Faithful (x.interceptUnaryUnary method start attempts s).2.1
      (x.interceptUnaryUnary method start attempts s).2.2 ↔
      s.metrics = none ∨ ∀ m ∈ (x.interceptUnaryUnary method start attempts s).2.1,
        m.outcome ≠ some .returned := by
  obtain ⟨haccounted, hreturned⟩ := @interceptUnaryUnary_spec x method start attempts s
  constructor
  · intro h
    refine or_iff_not_imp_left.mpr fun hmetrics m hm ho => ?_
    obtain ⟨r, hr⟩ := haccounted m hm
    have htwice := hr.whenEnabled (Option.isSome_iff_ne_none.mpr hmetrics) ho
    rw [(h.success m hm ho).1] at htwice
    cases htwice
  · rintro (hmetrics | hnone)
    · have hb : s.metrics.isSome = false := by rw [hmetrics]; rfl
      have hsuccess : ∀ m ∈ (x.interceptUnaryUnary method start attempts s).2.1,
          m.outcome = some .returned → m.service = [true] ∧ m.method = [true] := by
        intro m hm ho
        obtain ⟨r, hr⟩ := haccounted m hm
        exact ⟨(hr.whenDisabled hb ho).1, (hr.whenDisabled hb ho).2.1⟩
      refine ⟨hreturned hb, fun m hm => ?_, hsuccess⟩
      by_cases ho : m.outcome = some .returned
      · rw [(hsuccess m hm ho).1, (hsuccess m hm ho).2]
        exact ⟨le_rfl, le_rfl⟩
      · exact (haccounted m hm).choose_spec.other ho
    · refine ⟨fun m hm ho => absurd ho (hnone m hm), fun m hm => ?_,
        fun m hm ho => absurd ho (hnone m hm)⟩
      exact (haccounted m hm).choose_spec.other (hnone m hm)

/-- A client with the default configurations. -/
def client : Interceptor where
  isAsync := false
  serviceName := "pki"

def fresh : State where
  breakers := { service := .init 0, retry := .init 0 }
  metrics := some {}

/-- The first attempt succeeds. -/
def succeeding (_ : Nat) : Attempt where
  asked := 0
  told := 1
  opened := { typeName := "RpcError" }
  outcome := .returned

theorem success_raises :
    (client.interceptUnaryUnary "Sign" 0 succeeding fresh).2 =
      ([⟨0, some .returned, [true, false], [true, false]⟩], .raised typeError) ∧
      ¬ Faithful (client.interceptUnaryUnary "Sign" 0 succeeding fresh).2.1
        (client.interceptUnaryUnary "Sign" 0 succeeding fresh).2.2 := by
  have hrun : (client.interceptUnaryUnary "Sign" 0 succeeding fresh).2 =
      ([⟨0, some .returned, [true, false], [true, false]⟩], .raised typeError) := rfl
  refine ⟨hrun, fun h => ?_⟩
  rw [hrun] at h
  cases (h.returned _ List.mem_cons_self rfl).1

end Marty.Resilience.Bookkeeping
