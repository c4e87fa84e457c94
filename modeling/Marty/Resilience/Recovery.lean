import Marty.Resilience.States

/-! What the recovery of a breaker rests on.  A success that is recorded while the breaker is half
open counts towards its recovery, whenever the call was admitted; the half-open periods are numbered
here, and each call is marked with the one in which it was admitted. -/

namespace Marty.Resilience.Recovery

open Lib.Run CircuitBreaker States

/-- The call whose success the step records in a half-open breaker. -/
def counted (s : System) : Label → Option Nat
  | .record i _ _ =>
    if s.breaker.state = .halfOpen ∧ s.calls[i]? = some .returned then some i else none
  | _ => none

/-- The step records no success in a half-open breaker, and is no reset. -/
def Quiet (s : System) (l : Label) : Prop := counted s l = none ∧ ∀ now, l ≠ .reset now

/-- The state and the number of successes stay. -/
def Still (b b' : Breaker) : Prop := b'.state = b.state ∧ b'.successCount = b.successCount

/-- A step as the successes of a half-open breaker see it. -/
inductive Turn (c : Config) (s s' : System) (l : Label) : Prop
  | same (hquiet : Quiet s l) (hstill : Still s.breaker s'.breaker)
  | probe (hquiet : Quiet s l) (hopened : s.breaker.state = .opened)
      (hstate : s'.breaker.state = .halfOpen) (hcount : s'.breaker.successCount = 0)
  | counted {i : Nat} (hi : counted s l = some i) (hhalf : s.breaker.state = .halfOpen)
      (hstate : s'.breaker.state = .halfOpen)
      (hcount : s'.breaker.successCount = s.breaker.successCount + 1)
      (hfew : s.breaker.successCount + 1 < c.halfOpenSuccessThreshold)
  | recovered {i : Nat} (hi : counted s l = some i) (hhalf : s.breaker.state = .halfOpen)
      (hstate : s'.breaker.state = .closed)
      (hmany : c.halfOpenSuccessThreshold ≤ s.breaker.successCount + 1)
  | opens (hquiet : Quiet s l) (hstate : s'.breaker.state = .opened)
  | reset {now : Time} (hl : l = .reset now) (hstate : s'.breaker.state = .closed)

variable {c : Config}

theorem canMakeRequest_still (b : Breaker) : Still b (b.canMakeRequest c).2 :=
  ⟨(canMakeRequest_agrees b).state, (canMakeRequest_agrees b).successCount⟩

theorem allowRequest_cases (now : Time) (b : Breaker) :
    Still b (b.allowRequest c now).2 ∨ b.state = .opened ∧
      (b.allowRequest c now).2.state = .halfOpen ∧ (b.allowRequest c now).2.successCount = 0 := by
  unfold Breaker.allowRequest
  split
  case h_1 hopened =>
    split
    case isTrue =>
      obtain ⟨hstate, hcount⟩ := canMakeRequest_still (c := c)
        { b.transitionTo .halfOpen now with failureCount := 0, successCount := 0 }
      exact .inr ⟨hopened, hstate.trans (transitionTo_state b .halfOpen now), hcount⟩
    case isFalse => exact .inl ⟨rfl, rfl⟩
  case h_2 => exact .inl (canMakeRequest_still b)
  case h_3 =>
    split
    case isTrue => exact .inl (canMakeRequest_still (c := c) { b with failureCount := 0 })
    case isFalse => exact .inl (canMakeRequest_still b)

theorem recordSuccess_still (now : Time) {b : Breaker} (h : b.state ≠ .halfOpen) :
    Still b (b.recordSuccess c now) := by
  simp only [Breaker.recordSuccess]
  split
  case h_1 hhalf => exact absurd hhalf h
  case h_2 => exact ⟨rfl, rfl⟩

theorem recordSuccess_halfOpen (now : Time) {b : Breaker} (h : b.state = .halfOpen) :
    (b.successCount + 1 < c.halfOpenSuccessThreshold ∧
      (b.recordSuccess c now).state = .halfOpen ∧
      (b.recordSuccess c now).successCount = b.successCount + 1) ∨
    (c.halfOpenSuccessThreshold ≤ b.successCount + 1 ∧
      (b.recordSuccess c now).state = .closed) := by
  simp only [Breaker.recordSuccess]
  split
  case h_1 =>
    split
    case isTrue hmany => exact .inr ⟨hmany, transitionTo_state _ _ _⟩
    case isFalse hfew => exact .inl ⟨Int.not_le.mp hfew, h, rfl⟩
  case h_2 hnot => exact absurd h hnot

theorem recordFailure_cases (now : Time) (trips : Bool) (b : Breaker) :
    Still b (b.recordFailure c now trips) ∨ (b.recordFailure c now trips).state = .opened := by
  simp only [Breaker.recordFailure]
  split
  case isTrue => exact .inl ⟨rfl, rfl⟩
  case isFalse =>
    split
    case h_1 => exact .inr (transitionTo_state _ _ _)
    case h_2 =>
      split
      case isTrue => exact .inr (transitionTo_state _ _ _)
      case isFalse => exact .inl ⟨rfl, rfl⟩
    case h_3 => exact .inl ⟨rfl, rfl⟩

theorem counted_eq_some {s : System} {l : Label} {i : Nat} (h : counted s l = some i) :
    s.breaker.state = .halfOpen ∧ s.calls[i]? = some .returned ∧
      ∃ now trips, l = .record i now trips := by
  cases l with
  | record j now trips =>
    simp only [counted] at h
    split at h
    case isTrue hcond =>
      obtain rfl := Option.some.inj h
      exact ⟨hcond.1, hcond.2, now, trips, rfl⟩
    case isFalse => cases h
  | call | allow | enter | finish | reset => cases h

theorem turn_of_step {s s' : System} {l : Label} (h : CircuitBreaker.step c s l = some s') :
    Turn c s s' l := by
  cases l with
  | call =>
    obtain rfl := Option.some.inj h
    exact .same ⟨rfl, nofun⟩ ⟨rfl, rfl⟩
  | allow i now =>
    simp only [CircuitBreaker.step] at h
    split at h
    case h_2 => cases h
    case h_1 =>
      obtain rfl := Option.some.inj h
      rcases allowRequest_cases now s.breaker with hstill | ⟨hopened, hstate, hcount⟩
      · exact .same ⟨rfl, nofun⟩ hstill
      · exact .probe ⟨rfl, nofun⟩ hopened hstate hcount
  | enter i =>
    simp only [CircuitBreaker.step] at h
    split at h
    case h_2 => cases h
    case h_1 =>
      obtain rfl := Option.some.inj h
      exact .same ⟨rfl, nofun⟩ ⟨rfl, rfl⟩
  | finish i ending =>
    simp only [CircuitBreaker.step] at h
    split at h
    case h_2 => cases h
    case h_1 =>
      obtain rfl := Option.some.inj h
      exact .same ⟨rfl, nofun⟩ ⟨rfl, rfl⟩
  | record i now trips =>
    simp only [CircuitBreaker.step] at h
    split at h
    case h_3 => cases h
    case h_1 hi =>
      obtain rfl := Option.some.inj h
      by_cases hhalf : s.breaker.state = .halfOpen
      · have hcounted : counted s (.record i now trips) = some i := if_pos ⟨hhalf, hi⟩
        rcases recordSuccess_halfOpen now hhalf with ⟨hfew, hstate, hcount⟩ | ⟨hmany, hstate⟩
        · exact .counted hcounted hhalf hstate hcount hfew
        · exact .recovered hcounted hhalf hstate hmany
      · exact .same ⟨if_neg fun hcond => hhalf hcond.1, nofun⟩ (recordSuccess_still now hhalf)
    case h_2 hi =>
      obtain rfl := Option.some.inj h
      have hnone : counted s (.record i now trips) = none := by simp [counted, hi]
      rcases recordFailure_cases now trips s.breaker with hstill | hstate
      · exact .same ⟨hnone, nofun⟩ hstill
      · exact .opens ⟨hnone, nofun⟩ hstate
  | reset now =>
    obtain rfl := Option.some.inj h
    exact .reset rfl rfl

/-! The periods and the calls admitted in them. -/

structure Tracked where
  system : System
  /-- How often the breaker has become half open. -/
  period : Nat := 0
  /-- Of each call, the half-open period in which it was admitted. -/
  admitted : List (Option Nat) := []
  /-- The successes recorded in this period of calls admitted in it. -/
  trials : Nat := 0
  /-- That number at each recovery. -/
  recoveries : List Nat := []

namespace Tracked

def init (now : Time) : Tracked := { system := .init now }

variable (s : Tracked) (l : Label) (after : System)

/-- The step begins a half-open period. -/
def Probes : Prop := s.system.breaker.state = .opened ∧ after.breaker.state = .halfOpen

instance : Decidable (s.Probes after) := inferInstanceAs (Decidable (_ ∧ _))

/-- The step records the success of a call that was admitted in this half-open period. -/
def isTrial : Bool := (counted s.system l).any fun i => s.admitted[i]? == some (some s.period)

def nextPeriod : Nat := if s.Probes after then s.period + 1 else s.period

def nextTrials : Nat :=
  if s.Probes after then 0 else if s.isTrial l then s.trials + 1 else s.trials

def nextAdmitted : List (Option Nat) :=
  match l with
  | .call => s.admitted ++ [none]
  | .allow i _ =>
    if after.calls[i]? = some .allowed ∧ after.breaker.state = .halfOpen then
      s.admitted.set i (some (s.nextPeriod after))
    else s.admitted
  | _ => s.admitted

def track : Tracked where
  system := after
  period := s.nextPeriod after
  admitted := s.nextAdmitted l after
  trials := s.nextTrials l after
  recoveries :=
    if s.system.breaker.state = .halfOpen ∧ after.breaker.state = .closed then
      s.recoveries ++ [s.nextTrials l after]
    else s.recoveries

end Tracked

def step (c : Config) (s : Tracked) (l : Label) : Option Tracked :=
  (CircuitBreaker.step c s.system l).map fun after => s.track l after

/-- The runs are those of the breaker. -/
theorem run_system (c : Config) (s : Tracked) (ls : List Label) :
    (run (step c) s ls).map (·.system) = run (CircuitBreaker.step c) s.system ls := by
  induction ls generalizing s with
  | nil => rfl
  | cons l ls ih =>
    simp only [run, step]
    cases CircuitBreaker.step c s.system l with
    | none => rfl
    | some after => exact ih (s.track l after)

/-- Every recovery so far rests on enough trial calls, and only trial calls are counted. -/
structure Proved (c : Config) (s : Tracked) : Prop where
  recoveries : ∀ n ∈ s.recoveries, c.halfOpenSuccessThreshold ≤ n
  counted : s.system.breaker.state = .halfOpen → s.system.breaker.successCount = s.trials

/-- A success that is recorded while the breaker is half open is that of a call admitted in this
period, where the threshold asks for any; and a half-open breaker is not reset before. -/
def ByTrial (c : Config) (s : Tracked) (l : Label) : Prop :=
  (∀ i ∈ counted s.system l, 1 ≤ c.halfOpenSuccessThreshold →
    s.admitted[i]? = some (some s.period)) ∧
  ∀ now, l = .reset now → s.system.breaker.state = .halfOpen → c.halfOpenSuccessThreshold ≤ s.trials

section step

variable {s : Tracked} {l : Label} {after : System}

theorem nextTrials_of_none (hprobe : ¬ s.Probes after) (hnone : counted s.system l = none) :
    s.nextTrials l after = s.trials := by
  rw [Tracked.nextTrials, if_neg hprobe, Tracked.isTrial, hnone]
  rfl

theorem nextTrials_of_trial {i : Nat} (hprobe : ¬ s.Probes after)
    (hi : counted s.system l = some i) (htrial : s.admitted[i]? = some (some s.period)) :
    s.nextTrials l after = s.trials + 1 := by
  rw [Tracked.nextTrials, if_neg hprobe, Tracked.isTrial, hi, Option.any_some, htrial]
  simp

theorem nextTrials_of_stale {i : Nat} (hprobe : ¬ s.Probes after)
    (hi : counted s.system l = some i) (hstale : s.admitted[i]? ≠ some (some s.period)) :
    s.nextTrials l after = s.trials := by
  rw [Tracked.nextTrials, if_neg hprobe, Tracked.isTrial, hi, Option.any_some, if_neg]
  simpa using hstale

theorem not_probes (h : s.system.breaker.state ≠ .opened) : ¬ s.Probes after :=
  fun hprobe => h hprobe.1

theorem recoveries_of_halfOpen (h : after.breaker.state ≠ .closed) :
    (s.track l after).recoveries = s.recoveries := if_neg fun hcond => h hcond.2

theorem recoveries_of_closed (hhalf : s.system.breaker.state = .halfOpen)
    (hclosed : after.breaker.state = .closed) :
    (s.track l after).recoveries = s.recoveries ++ [s.nextTrials l after] :=
  if_pos ⟨hhalf, hclosed⟩

theorem recoveries_of_still (h : Still s.system.breaker after.breaker) :
    (s.track l after).recoveries = s.recoveries := by
  refine if_neg fun hcond => ?_
  have heq : after.breaker.state = .halfOpen := h.1.trans hcond.1
  rw [hcond.2] at heq
  cases heq

/-- A recovery is a good one exactly when it rests on enough trial calls. -/
theorem proved_closed_iff (hp : Proved c s) (hhalf : s.system.breaker.state = .halfOpen)
    (hclosed : after.breaker.state = .closed) :
    Proved c (s.track l after) ↔ c.halfOpenSuccessThreshold ≤ s.nextTrials l after := by
  have hrecoveries := recoveries_of_closed (l := l) hhalf hclosed
  constructor
  · intro h
    refine h.recoveries _ ?_
    rw [hrecoveries]
    exact List.mem_append_right _ List.mem_cons_self
  · intro h
    constructor
    case recoveries =>
      intro n hn
      rw [hrecoveries] at hn
      rcases List.mem_append.mp hn with hold | hnew
      · exact hp.recoveries n hold
      · exact List.mem_singleton.mp hnew ▸ h
    case counted =>
      intro hstate
      have hstate : after.breaker.state = .halfOpen := hstate
      rw [hclosed] at hstate
      cases hstate

/-- A step that leaves the breaker half open is a good one exactly when the trial calls are still
counted. -/
theorem proved_halfOpen_iff (hp : Proved c s) (hstate : after.breaker.state = .halfOpen) :
    Proved c (s.track l after) ↔ after.breaker.successCount = s.nextTrials l after := by
  constructor
  · exact fun h => h.counted hstate
  · intro h
    refine ⟨?_, fun _ => h⟩
    rw [recoveries_of_halfOpen (by simp [hstate])]
    exact hp.recoveries

/-- So is one after which it is not half open, unless it recovers. -/
theorem proved_of_not_halfOpen (hp : Proved c s) (hstate : after.breaker.state ≠ .halfOpen)
    (hrecoveries : (s.track l after).recoveries = s.recoveries) : Proved c (s.track l after) := by
  refine ⟨?_, fun hhalf => absurd hhalf hstate⟩
  rw [hrecoveries]
  exact hp.recoveries

theorem proved_of_still (hp : Proved c s) (hstill : Still s.system.breaker after.breaker)
    (hnone : counted s.system l = none) : Proved c (s.track l after) := by
  have hprobe : ¬ s.Probes after := by
    rintro ⟨hopened, hhalf⟩
    rw [hstill.1, hopened] at hhalf
    cases hhalf
  by_cases hhalf : after.breaker.state = .halfOpen
  · apply (proved_halfOpen_iff hp hhalf).mpr
    calc
      after.breaker.successCount = s.system.breaker.successCount := hstill.2
      _ = s.trials := hp.counted (hstill.1.symm.trans hhalf)
      _ = s.nextTrials l after := by rw [nextTrials_of_none hprobe hnone]
  · exact proved_of_not_halfOpen hp hhalf (recoveries_of_still hstill)

/-- Fewer successes are counted than the threshold asks for. -/
def Below (c : Config) (s : System) : Prop :=
  s.breaker.state = .halfOpen → 1 ≤ c.halfOpenSuccessThreshold →
    s.breaker.successCount < c.halfOpenSuccessThreshold

theorem below_step {s s' : System} {l : Label} (hb : Below c s)
    (h : CircuitBreaker.step c s l = some s') : Below c s' := by
  intro hhalf hpositive
  cases turn_of_step h with
  | same hquiet hstill =>
    rw [hstill.2]
    exact hb (hstill.1.symm.trans hhalf) hpositive
  | probe hquiet hopened hstate hcount =>
    rw [hcount]
    omega
  | counted hi hbefore hstate hcount hfew => omega
  | recovered hi hbefore hstate => simp [hstate] at hhalf
  | opens hquiet hstate => simp [hstate] at hhalf
  | reset hl hstate => simp [hstate] at hhalf

theorem byTrial_of_quiet (h : Quiet s.system l) : ByTrial c s l := by
  refine ⟨fun i hi => ?_, fun now hl => absurd hl (h.2 now)⟩
  rw [h.1] at hi
  cases hi

theorem byTrial_of_counted {i : Nat} (hi : counted s.system l = some i) :
    ByTrial c s l ↔
      (1 ≤ c.halfOpenSuccessThreshold → s.admitted[i]? = some (some s.period)) := by
  obtain ⟨-, -, now, trips, rfl⟩ := counted_eq_some hi
  constructor
  · exact fun h => h.1 i hi
  · intro h
    refine ⟨fun j hj => ?_, nofun⟩
    obtain rfl : i = j := Option.some.inj (hi.symm.trans hj)
    exact h

/-- A success that is counted, and is not the last that is asked for. -/
theorem proved_counted_iff {i : Nat} (hp : Proved c s) (hi : counted s.system l = some i)
    (hhalf : s.system.breaker.state = .halfOpen) (hstate : after.breaker.state = .halfOpen)
    (hcount : after.breaker.successCount = s.system.breaker.successCount + 1) :
    Proved c (s.track l after) ↔ s.admitted[i]? = some (some s.period) := by
  have hprobe : ¬ s.Probes after := not_probes (by simp [hhalf])
  rw [proved_halfOpen_iff hp hstate, hcount, hp.counted hhalf]
  constructor
  · intro hnext
    by_contra hstale
    rw [nextTrials_of_stale hprobe hi hstale] at hnext
    omega
  · intro htrial
    rw [nextTrials_of_trial hprobe hi htrial]
    rfl

/-- The last one. -/
theorem proved_recovered_iff {i : Nat} (hb : Below c s.system) (hp : Proved c s)
    (hi : counted s.system l = some i) (hhalf : s.system.breaker.state = .halfOpen)
    (hstate : after.breaker.state = .closed)
    (hmany : c.halfOpenSuccessThreshold ≤ s.system.breaker.successCount + 1) :
    Proved c (s.track l after) ↔
      (1 ≤ c.halfOpenSuccessThreshold → s.admitted[i]? = some (some s.period)) := by
  have hprobe : ¬ s.Probes after := not_probes (by simp [hhalf])
  have hold := hp.counted hhalf
  rw [proved_closed_iff hp hhalf hstate]
  constructor
  · intro hnext hpositive
    by_contra hstale
    rw [nextTrials_of_stale hprobe hi hstale] at hnext
    have := hb hhalf hpositive
    omega
  · intro htrial
    by_cases hpositive : 1 ≤ c.halfOpenSuccessThreshold
    · rw [nextTrials_of_trial hprobe hi (htrial hpositive)]
      omega
    · omega

theorem proved_reset_iff {now : Time} (hp : Proved c s) (hstate : after.breaker.state = .closed) :
    Proved c (s.track (.reset now) after) ↔ ByTrial c s (.reset now) := by
  by_cases hhalf : s.system.breaker.state = .halfOpen
  · have hprobe : ¬ s.Probes after := not_probes (by simp [hhalf])
    rw [proved_closed_iff hp hhalf hstate, nextTrials_of_none hprobe rfl]
    exact ⟨fun h => ⟨nofun, fun _ _ _ => h⟩, fun h => h.2 now rfl hhalf⟩
  · refine iff_of_true ?_ ⟨nofun, fun _ _ h => absurd h hhalf⟩
    apply proved_of_not_halfOpen hp
    · simp [hstate]
    · exact if_neg fun hcond => hhalf hcond.1

/-- One step is a good one exactly when what it counts is a trial call. -/
theorem proved_step_iff (hb : Below c s.system) (hp : Proved c s)
    (h : CircuitBreaker.step c s.system l = some after) :
    Proved c (s.track l after) ↔ ByTrial c s l := by
  cases turn_of_step h with
  | same hquiet hstill =>
    exact iff_of_true (proved_of_still hp hstill hquiet.1) (byTrial_of_quiet hquiet)
  | probe hquiet hopened hstate hcount =>
    have htrials : s.nextTrials l after = 0 := if_pos ⟨hopened, hstate⟩
    apply iff_of_true _ (byTrial_of_quiet hquiet)
    rw [proved_halfOpen_iff hp hstate, htrials]
    exact hcount
  | @counted i hi hhalf hstate hcount hfew =>
    have hold := hp.counted hhalf
    have hpositive : 1 ≤ c.halfOpenSuccessThreshold := by omega
    rw [byTrial_of_counted hi, imp_iff_right hpositive]
    exact proved_counted_iff hp hi hhalf hstate hcount
  | @recovered i hi hhalf hstate hmany =>
    rw [byTrial_of_counted hi]
    exact proved_recovered_iff hb hp hi hhalf hstate hmany
  | opens hquiet hstate =>
    apply iff_of_true _ (byTrial_of_quiet hquiet)
    apply proved_of_not_halfOpen hp
    · simp [hstate]
    · exact recoveries_of_halfOpen (by simp [hstate])
  | @reset now hl hstate =>
    subst hl
    exact proved_reset_iff hp hstate

/-- A step that is not possible would record nothing. -/
theorem quiet_of_step_none {s : System} {l : Label} (h : CircuitBreaker.step c s l = none) :
    Quiet s l := by
  constructor
  · by_contra hsome
    obtain ⟨i, hi⟩ := Option.ne_none_iff_exists'.mp hsome
    obtain ⟨-, hreturned, now, trips, rfl⟩ := counted_eq_some hi
    simp [CircuitBreaker.step, hreturned] at h
  · rintro now rfl
    cases h

end step

theorem step_eq_some {s s' : Tracked} {l : Label} (h : step c s l = some s') :
    ∃ after, CircuitBreaker.step c s.system l = some after ∧ s.track l after = s' :=
  Option.map_eq_some_iff.mp h

/-- In the course of a run every recovery rests on trial calls exactly when each success recorded in
a half-open breaker is that of a call admitted in the same period. -/
theorem recovery_proved_iff (c : Config) (start : Time) (ls : List Label) :
    (∀ n s, run (step c) (Tracked.init start) (ls.take n) = some s → Proved c s) ↔
      Guarded (step c) (ByTrial c) (Tracked.init start) ls := by
  have hinit : Below c (System.init start) ∧ Proved c (Tracked.init start) :=
    ⟨nofun, nofun, nofun⟩
  have hstep (s : Tracked) (l : Label) (hs : Below c s.system ∧ Proved c s) :
      ByTrial c s l ↔ ∀ s', step c s l = some s' → Below c s'.system ∧ Proved c s' := by
    constructor
    · intro hg s' hs'
      obtain ⟨after, hafter, rfl⟩ := step_eq_some hs'
      exact ⟨below_step hs.1 hafter, (proved_step_iff hs.1 hs.2 hafter).mpr hg⟩
    · intro h
      cases hafter : CircuitBreaker.step c s.system l with
      | none => exact byTrial_of_quiet (quiet_of_step_none hafter)
      | some after =>
        have hs' : step c s l = some (s.track l after) :=
          Option.map_eq_some_iff.mpr ⟨after, hafter, rfl⟩
        exact (proved_step_iff hs.1 hs.2 hafter).mp (h _ hs').2
  have hbelow {ls : List Label} {s : Tracked} (hr : run (step c) (Tracked.init start) ls = some s) :
      Below c s.system := by
    refine run_preserves (I := fun s : Tracked => Below c s.system) ?_ hinit.1 hr
    intro s l s' hb hs'
    obtain ⟨after, hafter, rfl⟩ := step_eq_some hs'
    exact below_step hb hafter
  rw [← forall_take_iff_guarded hstep hinit]
  refine forall₃_congr fun n s hr => ?_
  exact (and_iff_right (hbelow hr)).symm

/-- Two calls: the second trips the breaker while the first is running, a third probes it, and then
the first returns. -/
def lateSuccessRun : List Label :=
  [.call, .allow 0 0, .enter 0, .call, .allow 1 1, .enter 1, .finish 1 .exception, .record 1 2 true,
    .call, .allow 2 32, .finish 0 .value, .record 0 33 true]

def oneTrial : Config where
  failureThreshold := 1
  halfOpenSuccessThreshold := 1

/-- The breaker is closed by a success from before its failure, without any trial call. -/
theorem closed_without_trial : ∃ s,
    run (step oneTrial) (Tracked.init 0) lateSuccessRun = some s ∧
      s.system.breaker.state = .closed ∧ s.period = 1 ∧ s.admitted = [none, none, some 1] ∧
      s.recoveries = [0] ∧ ¬ Proved oneTrial s := by
  refine ⟨_, rfl, by decide +kernel, by decide +kernel, by decide +kernel, ?_, fun h => ?_⟩
  · decide +kernel
  · exact absurd (h.recoveries 0 (by decide +kernel)) (by decide)

end Marty.Resilience.Recovery
