import Marty.Resilience.Slots

/-! How many wrapped functions run at once.  A breaker admits a call in one critical section and
counts it in the next, so a call that has been admitted and not yet counted is not seen by the
calls that ask after it. -/

namespace Marty.Resilience.Admission

open Lib Lib.Run CircuitBreaker Slots

/-- The calls that have been admitted and not yet counted. -/
def admitted (s : System) : Nat := s.calls.countP (· = .allowed)

/-- The calls whose wrapped function is running. -/
def executing (s : System) : Nat := s.calls.countP (· = .running)

variable {c : Config} {s s' : System} {l : Label}

theorem executing_le_slots : executing s ≤ s.slots := by
  refine List.countP_mono_left fun call _ h => ?_
  obtain rfl : call = .running := by simpa using h
  rfl

theorem canMakeRequest_lt {b : Breaker} (h : (b.canMakeRequest c).1 = true) :
    b.concurrentRequests < c.maxConcurrentRequests := by
  unfold Breaker.canMakeRequest at h
  split at h
  case isTrue => cases h
  case isFalse hlt => exact Int.not_le.mp hlt

theorem allowRequest_lt {b : Breaker} {now : Time} (h : (b.allowRequest c now).1 = true) :
    b.concurrentRequests < c.maxConcurrentRequests := by
  unfold Breaker.allowRequest at h
  split at h
  · split at h
    · simpa using canMakeRequest_lt h
    · cases h
  · exact canMakeRequest_lt h
  · split at h
    · have hlt := canMakeRequest_lt h
      exact hlt
    · exact canMakeRequest_lt h

theorem admitted_set {i : Nat} {call : Call} (hi : s.calls[i]? = some call) (breaker : Breaker)
    (call' : Call) :
    admitted ⟨breaker, s.calls.set i call'⟩ + (if call = .allowed then 1 else 0) =
      admitted s + (if call' = .allowed then 1 else 0) := by
  simpa [admitted] using Pool.countP_set hi call' (· = .allowed)

/-- A step admits a call, counts an admitted one, or does neither. -/
theorem step_admitted (h : step c s l = some s') :
    match l with
    | .allow _ _ => admitted s' = admitted s ∨
        s.breaker.concurrentRequests < c.maxConcurrentRequests ∧ admitted s' = admitted s + 1
    | .enter _ => admitted s' + 1 = admitted s
    | _ => admitted s' = admitted s := by
  cases l with
  | call =>
    obtain rfl := Option.some.inj h
    simp [admitted]
  | allow i now =>
    simp only [step] at h
    split at h
    case h_2 => cases h
    case h_1 hi =>
      obtain rfl := Option.some.inj h
      have hset := admitted_set hi (s.breaker.allowRequest c now).2
      by_cases hallowed : (s.breaker.allowRequest c now).1 = true
      · exact .inr ⟨allowRequest_lt hallowed, by simpa [hallowed] using hset .allowed⟩
      · exact .inl (by simpa [hallowed] using hset .rejected)
  | enter i =>
    simp only [step] at h
    split at h
    case h_2 => cases h
    case h_1 hi =>
      obtain rfl := Option.some.inj h
      simpa using admitted_set hi s.breaker.takeSlot .running
  | finish i ending =>
    simp only [step] at h
    split at h
    case h_2 => cases h
    case h_1 hi =>
      obtain rfl := Option.some.inj h
      have hset := admitted_set hi s.breaker (afterFunc ending)
      cases ending <;> simpa [afterFunc] using hset
  | record i now trips =>
    simp only [step] at h
    split at h
    case h_3 => cases h
    case h_1 hi =>
      obtain rfl := Option.some.inj h
      simpa using admitted_set hi _ (.ended .value)
    case h_2 hi =>
      obtain rfl := Option.some.inj h
      simpa using admitted_set hi _ (.ended .exception)
  | reset now =>
    obtain rfl := Option.some.inj h
    rfl

/-- No `reset`, and no call that its wrapper does not see end. -/
def Ordinary (s : System) (l : Label) : Prop := Handled s l ∧ ∀ now, l ≠ .reset now

/-- A call that finds room finds it beside the calls that have been admitted before it. -/
def Roomy (c : Config) (s : System) : Label → Prop
  | .allow _ _ => s.breaker.concurrentRequests < c.maxConcurrentRequests →
    admitted s + s.breaker.concurrentRequests < c.maxConcurrentRequests
  | _ => True

/-- There is a slot for every call that has been admitted. -/
def Reserved (c : Config) (s : System) : Prop :=
  Slots.Balanced s ∧ (admitted s + s.slots : Int) ≤ c.maxConcurrentRequests

theorem step_reserved (hi : Reserved c s) (hg : Ordinary s l ∧ Roomy c s l)
    (h : step c s l = some s') : Reserved c s' := by
  obtain ⟨hbalanced, hle⟩ := hi
  have hbalanced' : Slots.Balanced s' :=
    step_balanced hbalanced ⟨hg.1.1, fun now hl => absurd hl (hg.1.2 now)⟩ h
  refine ⟨hbalanced', ?_⟩
  have hadmitted := step_admitted h
  unfold Slots.Balanced at hbalanced
  cases step_accounts h with
  | same hcount hslots =>
    cases l with
    | allow i now =>
      rcases hadmitted with hadmitted | ⟨hfree, hadmitted⟩
      · omega
      · have hroom : admitted s + s.breaker.concurrentRequests < c.maxConcurrentRequests :=
          hg.2 hfree
        omega
    | enter i =>
      simp only at hadmitted
      omega
    | call | finish | record | reset =>
      simp only at hadmitted
      omega
  | take hcount hslots =>
    simp only at hadmitted
    omega
  | release hcount hslots =>
    simp only at hadmitted
    omega
  | leak => exact absurd rfl (hg.1.1 _)
  | reset => exact absurd rfl (hg.1.2 _)

/-- While every call that is admitted leaves room for those admitted before it, no more functions
run at once than the limit says. -/
theorem executing_le_of_roomy {start : Time} {ls : List Label}
    (hmax : 0 ≤ c.maxConcurrentRequests)
    (hordinary : Guarded (step c) Ordinary (System.init start) ls)
    (hroomy : Guarded (step c) (Roomy c) (System.init start) ls)
    (hr : run (step c) (System.init start) ls = some s) :
    (executing s : Int) ≤ c.maxConcurrentRequests := by
  have hinit : Reserved c (System.init start) := ⟨rfl, hmax⟩
  obtain ⟨-, hle⟩ :=
    run_invariant (fun _ _ _ => step_reserved) hinit (hordinary.and hroomy) hr
  have hslots := executing_le_slots (s := s)
  omega

/-- Two calls, the second of which asks when the first is counted. -/
def inTurn : List Label := [.call, .allow 0 0, .enter 0, .call, .allow 1 0, .enter 1]

theorem executing_le_inTurn :
    ∃ s, run (step { maxConcurrentRequests := 2 }) (System.init 0) inTurn = some s ∧
      executing s = 2 ∧ (executing s : Int) ≤ 2 := by
  obtain ⟨s, hr, hexecuting⟩ : ∃ s,
      run (step { maxConcurrentRequests := 2 }) (System.init 0) inTurn = some s ∧
        executing s = 2 :=
    ⟨_, rfl, rfl⟩
  have hordinary : ∀ s, ∀ l ∈ inTurn, Ordinary s l := by simp [inTurn, Ordinary, Handled]
  have hroomy : Guarded (step { maxConcurrentRequests := 2 })
      (Roomy { maxConcurrentRequests := 2 }) (System.init 0) inTurn := by
    simp [Guarded, inTurn, step, Roomy, admitted, System.init, Breaker.init, Breaker.takeSlot,
      Breaker.allowRequest, Breaker.canMakeRequest]
  exact ⟨s, hr, hexecuting,
    executing_le_of_roomy (by decide) (guarded_of_mem hordinary _) hroomy hr⟩

/-- Two calls ask before either is counted: both run under a limit of one. -/
theorem two_executing_under_one :
    ∃ s, run (step { maxConcurrentRequests := 1 }) (System.init 0)
        [.call, .call, .allow 0 0, .allow 1 0, .enter 0, .enter 1] = some s ∧
      executing s = 2 ∧ ¬ (executing s : Int) ≤ 1 :=
  ⟨_, rfl, rfl, by decide⟩

end Marty.Resilience.Admission
