import Marty.Resilience.RetryLoop
import Marty.Resilience.Slots
import Marty.Resilience.States

/-! The retry manager and its open circuit.  Once a failed attempt has opened the breaker, the
attempts after it are made with the breaker open. -/

namespace Marty.Resilience.RetryCircuit

open CircuitBreaker Resilience.Errors AdvancedRetry AdvancedRetryManager RetryLoop Slots States

section breaker

variable (c : Config)

/-- When `allowRequest` admits. -/
def Admits (now : Time) (b : Breaker) : Prop :=
  b.concurrentRequests < c.maxConcurrentRequests ∧
    (b.state = .opened → c.recoveryTimeout ≤ now - b.openedAt)

/-- The failures after which a breaker that is not open opens. -/
def failuresLeft (b : Breaker) : Int :=
  match b.state with
  | .closed => max 1 (c.failureThreshold - b.failureCount)
  | _ => 1

/-- The failures after which a breaker opens that is asked first; it forgets those that are long
ago. -/
def failuresNeeded (now : Time) (b : Breaker) : Int :=
  if b.state = .closed ∧ b.failureCount > 0 ∧ now - b.lastFailureAt > c.failureResetTimeout then
    max 1 c.failureThreshold
  else failuresLeft c b

variable {c} {b : Breaker} {now : Time}

theorem canMakeRequest_iff : (b.canMakeRequest c).1 = true ↔
    b.concurrentRequests < c.maxConcurrentRequests := by
  simp only [Breaker.canMakeRequest]
  split
  case isTrue hfull => simpa using hfull
  case isFalse hfree => simpa using hfree

theorem canMakeRequest_admitted (h : b.concurrentRequests < c.maxConcurrentRequests) :
    (b.canMakeRequest c).2 = b := by
  simp only [Breaker.canMakeRequest, if_neg (Int.not_le.mpr h)]

theorem allowRequest_iff : (b.allowRequest c now).1 = true ↔ Admits c now b := by
  unfold Breaker.allowRequest Admits
  split
  case h_1 hopened =>
    split
    case isTrue hover => simp [canMakeRequest_iff, hover]
    case isFalse hearly => simp [hopened, hearly]
  case h_2 hhalf => simp [canMakeRequest_iff, hhalf]
  case h_3 hclosed =>
    split
    · simp [canMakeRequest_iff, hclosed]
    · simp [canMakeRequest_iff, hclosed]

theorem allowRequest_admitted (h : Admits c now b) :
    (b.allowRequest c now).2.state ≠ .opened ∧
      failuresLeft c (b.allowRequest c now).2 = failuresNeeded c now b := by
  unfold Breaker.allowRequest
  split
  case h_1 hopened =>
    rw [if_pos (h.2 hopened), canMakeRequest_admitted (by simpa using h.1)]
    simp [failuresLeft, failuresNeeded, hopened]
  case h_2 hhalf =>
    rw [canMakeRequest_admitted h.1]
    simp [failuresNeeded, hhalf]
  case h_3 hclosed =>
    split
    case isTrue hstale =>
      rw [canMakeRequest_admitted (by simpa using h.1)]
      simp [failuresLeft, failuresNeeded, hclosed, hstale]
    case isFalse hrecent =>
      rw [canMakeRequest_admitted h.1]
      simp [failuresNeeded, hclosed, hrecent]

theorem failuresLeft_pos : 1 ≤ failuresLeft c b := by
  unfold failuresLeft
  split
  · exact le_max_left _ _
  · exact le_rfl

theorem recordFailure_of_opened (now : Time) (h : b.state = .opened) (trips : Bool) :
    (b.recordFailure c now trips).state = .opened ∧
      (b.recordFailure c now trips).openedAt = b.openedAt := by
  cases trips with
  | false => exact ⟨h, rfl⟩
  | true => simp [Breaker.recordFailure, Breaker.releaseSlot, h]

/-- A failure that trips opens a breaker, or there are fewer failures left. -/
theorem recordFailure_trips (now : Time) (h : b.state ≠ .opened) :
    (failuresLeft c b = 1 ∧ (b.recordFailure c now true).state = .opened ∧
      (b.recordFailure c now true).openedAt = now) ∨
    ((b.recordFailure c now true).state ≠ .opened ∧
      failuresLeft c (b.recordFailure c now true) + 1 = failuresLeft c b) := by
  cases hstate : b.state with
  | opened => exact absurd hstate h
  | halfOpen => simp [Breaker.recordFailure, Breaker.releaseSlot, failuresLeft, hstate]
  | closed =>
    by_cases hmany : c.failureThreshold ≤ b.failureCount + 1
    · have hlast : max 1 (c.failureThreshold - b.failureCount) = 1 := by omega
      simp [Breaker.recordFailure, Breaker.releaseSlot, failuresLeft, hstate, hmany, hlast]
    · have hleft : max 1 (c.failureThreshold - (b.failureCount + 1)) + 1 =
          max 1 (c.failureThreshold - b.failureCount) := by omega
      simp [Breaker.recordFailure, Breaker.releaseSlot, failuresLeft, hstate, hmany, hleft]

end breaker

variable {α : Type}

section reached

variable (x : AdvancedRetryManager) (attempts : Nat → Attempt α)

/-- The window of the delays and their sum, after `n` attempts. -/
def delays (m : AdvancedRetryMetrics) : Nat → List Time × Time
  | 0 => (m.recentDelays, 0)
  | n + 1 =>
    let w := delays m n
    let delay := x.config.calculateDelay { m with recentDelays := w.1 } (attempts (n + 1)).draws
      (n + 1) x.config.baseDelay
    if delay > 0 then (remember delay w.1, w.2 + delay) else w

variable (start : Time) (m : AdvancedRetryMetrics)

/-- Attempt `n` is made. -/
structure Reached (n : Nat) : Prop where
  pos : 0 < n
  le : n ≤ x.config.maxAttempts
  retried : ∀ i, 0 < i → i < n → Retries x (attempts i)
  inTime : ∀ i, i < n → x.timedOut start (attempts (i + 1)) (delays x attempts m i).2 = false

end reached

variable {x : AdvancedRetryManager} {attempts : Nat → Attempt α}

section reached

/-- A delay is calculated from the two windows. -/
theorem calculateDelay_congr (c : AdvancedRetryConfig) (m m' : AdvancedRetryMetrics)
    (houtcomes : m.recentOutcomes = m'.recentOutcomes) (hdelays : m.recentDelays = m'.recentDelays)
    (draws : AdvancedRetryConfig.Draws) (n : Nat) (baseDelay : Time) :
    c.calculateDelay m draws n baseDelay = c.calculateDelay m' draws n baseDelay := by
  have hrate : m.getSuccessRate = m'.getSuccessRate := by
    simp only [AdvancedRetryMetrics.getSuccessRate, houtcomes]
  have haverage : m.getAverageDelay = m'.getAverageDelay := by
    simp only [AdvancedRetryMetrics.getAverageDelay, hdelays]
  have hadaptive : c.adaptiveDelay m n baseDelay = c.adaptiveDelay m' n baseDelay := by
    simp only [AdvancedRetryConfig.adaptiveDelay, hrate, haverage]
  have hstrategy : c.strategyDelay m draws n baseDelay = c.strategyDelay m' draws n baseDelay := by
    unfold AdvancedRetryConfig.strategyDelay
    rw [hadaptive]
  unfold AdvancedRetryConfig.calculateDelay
  rw [hstrategy]

theorem recordAttempt_windows (m : AdvancedRetryMetrics) (delay : Time) :
    (m.recordAttempt delay).recentOutcomes = m.recentOutcomes ∧
      (m.recordAttempt delay).recentDelays =
        if delay > 0 then remember delay m.recentDelays else m.recentDelays := by
  simp only [AdvancedRetryMetrics.recordAttempt]
  split
  · exact ⟨rfl, rfl⟩
  · exact ⟨rfl, rfl⟩

theorem delay_windows (n : Nat) (a : Attempt α) (p : State × Time) :
    (x.delay n a p).1.metrics.recentOutcomes = p.1.metrics.recentOutcomes ∧
      ((x.delay n a p).1.metrics.recentDelays, (x.delay n a p).2) =
        let delay := x.config.calculateDelay p.1.metrics a.draws n x.config.baseDelay
        if delay > 0 then (remember delay p.1.metrics.recentDelays, p.2 + delay)
        else (p.1.metrics.recentDelays, p.2) := by
  simp only [AdvancedRetryManager.delay]
  split
  case isTrue =>
    split
    case isTrue hdelay => simp [recordAttempt_windows, hdelay]
    case isFalse => exact ⟨rfl, rfl⟩
  case isFalse hfirst =>
    simp [recordAttempt_windows, AdvancedRetryConfig.calculateDelay, Nat.not_lt.mp hfirst]

@[simp]
theorem afterAttempt_windows (n : Nat) (a : Attempt α) (p : State × Time) :
    (afterAttempt x n a p).1.metrics.recentOutcomes = (x.delay n a p).1.metrics.recentOutcomes ∧
      (afterAttempt x n a p).1.metrics.recentDelays = (x.delay n a p).1.metrics.recentDelays ∧
      (afterAttempt x n a p).2 = (x.delay n a p).2 := by
  simp only [afterAttempt]
  split
  · exact ⟨rfl, rfl, rfl⟩
  · exact ⟨rfl, rfl, rfl⟩

theorem after_delays (s : State) (n : Nat) :
    (after x attempts s n).1.metrics.recentOutcomes = s.metrics.recentOutcomes ∧
      ((after x attempts s n).1.metrics.recentDelays, (after x attempts s n).2) =
        delays x attempts s.metrics n := by
  induction n with
  | zero => exact ⟨rfl, rfl⟩
  | succ n ih =>
    obtain ⟨houtcomes, hwindow⟩ := ih
    obtain ⟨hkept, hlater, htotal⟩ := afterAttempt_windows (x := x) (n + 1) (attempts (n + 1))
      (after x attempts s n)
    have hdelay := delay_windows (x := x) (n + 1) (attempts (n + 1)) (after x attempts s n)
    have hcalculated := calculateDelay_congr x.config (after x attempts s n).1.metrics
      { s.metrics with recentDelays := (delays x attempts s.metrics n).1 } houtcomes
      (congrArg Prod.fst hwindow) (attempts (n + 1)).draws (n + 1) x.config.baseDelay
    refine ⟨(hkept.trans hdelay.1).trans houtcomes, ?_⟩
    rw [after, hlater, htotal, hdelay.2, delays, ← hwindow]
    rw [← hwindow] at hcalculated
    simp only [hcalculated]

theorem after_total (s : State) (n : Nat) :
    (after x attempts s n).2 = (delays x attempts s.metrics n).2 :=
  congrArg Prod.snd (after_delays s n).2

theorem reached_iff {start : Time} {s : State} {k : Nat} {r : Run α} {n : Nat}
    (hcourse : Course x start attempts s 0 k r) (hk : k ≤ x.config.maxAttempts) :
    Reached x attempts start s.metrics n ↔ 0 < n ∧ n ≤ k := by
  constructor
  · intro hreached
    refine ⟨hreached.pos, Nat.le_of_not_lt fun hkn => ?_⟩
    have hended := hcourse.ended
    generalize r.result = result at hended
    cases hended with
    | returned hpos hvalue =>
      obtain ⟨e, herror, -⟩ := hreached.retried k hpos hkn
      rw [hvalue] at herror
      cases herror
    | raised hpos herror hlast =>
      obtain ⟨e, herror', hretryable⟩ := hreached.retried k hpos hkn
      obtain rfl := Except.error.inj (herror.symm.trans herror')
      have hle := hreached.le
      rcases hlast with hfatal | hmax
      · rw [hretryable] at hfatal
        cases hfatal
      · omega
    | timeout _ _ htime =>
      have hintime := hreached.inTime k hkn
      rw [after_total, hintime] at htime
      cases htime
  · intro ⟨hpos, hle⟩
    refine ⟨hpos, by omega, fun i hi hin => hcourse.retried i hi (by omega), fun i hin => ?_⟩
    rw [← after_total]
    exact hcourse.inTime i i.zero_le (by omega)

end reached

section opens

variable (x attempts)

/-- The attempt fails and trips the breaker. -/
def trips (a : Attempt α) : Bool :=
  match a.outcome with
  | .ok _ => false
  | .error e => x.config.breakerConfig.trips e

def tripped (n : Nat) : Nat := (List.range n).countP fun i => trips x (attempts (i + 1))

/-- Attempt `n` is the one whose failure opens a breaker that opens after `needed` of them. -/
structure Opens (needed : Int) (n : Nat) : Prop where
  trips : trips x (attempts n) = true
  pos : 0 < n
  count : (tripped x attempts n : Int) = needed

/-- The breaker after `n` attempts. -/
inductive Stage (needed : Int) (n : Nat) (b : Breaker) : Prop
  | counting (hstate : b.state ≠ .opened)
      (hleft : tripped x attempts n + failuresLeft x.config.breakerConfig.config b = needed)
  | opened {m : Nat} (hstate : b.state = .opened) (hm : m ≤ n) (hopens : Opens x attempts needed m)
      (hat : b.openedAt = (attempts m).told)

variable {x attempts}

variable (x attempts) in
theorem tripped_succ (n : Nat) : tripped x attempts (n + 1) =
    tripped x attempts n + (if trips x (attempts (n + 1)) then 1 else 0) := by
  simp [tripped, List.range_succ, List.countP_append, List.countP_singleton]

variable (x attempts) in
theorem tripped_mono {m n : Nat} (h : m ≤ n) : tripped x attempts m ≤ tripped x attempts n := by
  induction h with
  | refl => exact le_rfl
  | step _ ih => exact ih.trans (tripped_succ x attempts _ ▸ Nat.le_add_right _ _)

variable {needed : Int} {m n : Nat}

theorem Opens.lt_of_lt (h : Opens x attempts needed m) (hn : n < m) :
    (tripped x attempts n : Int) < needed := by
  obtain ⟨i, rfl⟩ : ∃ i, m = i + 1 := ⟨m - 1, (Nat.sub_add_cancel h.pos).symm⟩
  have hmono := tripped_mono x attempts (Nat.le_of_lt_succ hn)
  have hsucc := tripped_succ x attempts i
  have hcount := h.count
  rw [if_pos h.trips] at hsucc
  omega

theorem Opens.unique {m' : Nat} (h : Opens x attempts needed m) (h' : Opens x attempts needed m') :
    m = m' := by
  rcases Nat.lt_trichotomy m m' with hlt | heq | hlt
  · have hfew := h'.lt_of_lt hlt
    rw [h.count] at hfew
    exact absurd hfew (Int.lt_irrefl _)
  · exact heq
  · have hfew := h.lt_of_lt hlt
    rw [h'.count] at hfew
    exact absurd hfew (Int.lt_irrefl _)

theorem Stage.of_passes {b b' : Breaker} (h : Stage x attempts needed n b)
    (hpasses : trips x (attempts (n + 1)) = false) (hstate : b'.state = b.state)
    (hopened : b'.openedAt = b.openedAt) (hleft : failuresLeft x.config.breakerConfig.config b' =
      failuresLeft x.config.breakerConfig.config b) : Stage x attempts needed (n + 1) b' := by
  cases h with
  | counting hcounting hneeded =>
    refine .counting (hstate ▸ hcounting) ?_
    rw [tripped_succ, hpasses, hleft]
    simpa using hneeded
  | opened hopen hm hopens hat =>
    exact .opened (hstate.trans hopen) (hm.trans n.le_succ) hopens (hopened.trans hat)

theorem Stage.of_trips {b : Breaker} (h : Stage x attempts needed n b)
    (htrips : trips x (attempts (n + 1)) = true) :
    Stage x attempts needed (n + 1) (b.recordFailure x.config.breakerConfig.config
      (attempts (n + 1)).told true) := by
  have hsucc := tripped_succ x attempts n
  rw [if_pos htrips] at hsucc
  cases h with
  | counting hstate hleft =>
    rcases recordFailure_trips (c := x.config.breakerConfig.config) (attempts (n + 1)).told hstate
      with ⟨hlast, hopened, hat⟩ | ⟨hcounting, hfewer⟩
    · exact .opened hopened le_rfl ⟨htrips, n.succ_pos, by omega⟩ hat
    · exact .counting hcounting (by omega)
  | opened hstate hm hopens hat =>
    obtain ⟨hopened, hsame⟩ := recordFailure_of_opened (c := x.config.breakerConfig.config)
      (attempts (n + 1)).told hstate true
    exact .opened hopened (hm.trans n.le_succ) hopens (hsame.trans hat)

variable (attempts) in
theorem after_stage {s : State} {b : Breaker} (hs : s.circuitBreaker = some b)
    (hstate : b.state ≠ .opened) (n : Nat) :
    ∃ b', (after x attempts s n).1.circuitBreaker = some b' ∧
      Stage x attempts (failuresLeft x.config.breakerConfig.config b) n b' := by
  induction n with
  | zero => exact ⟨b, hs, .counting hstate (by simp [tripped])⟩
  | succ n ih =>
    obtain ⟨b', hb', hstage⟩ := ih
    cases houtcome : (attempts (n + 1)).outcome with
    | ok value =>
      refine ⟨b', ?_, hstage.of_passes (by simp [trips, houtcome]) rfl rfl rfl⟩
      simpa [after, afterAttempt, houtcome] using hb'
    | error e =>
      have htrips : trips x (attempts (n + 1)) = x.config.breakerConfig.trips e := by
        simp [trips, houtcome]
      refine ⟨b'.recordFailure x.config.breakerConfig.config (attempts (n + 1)).told
        (x.config.breakerConfig.trips e), ?_, ?_⟩
      · simp [after, afterAttempt, houtcome, AdvancedRetryManager.fail, hb']
      · rw [← htrips]
        cases hpasses : trips x (attempts (n + 1)) with
        | false => exact hstage.of_passes hpasses rfl rfl rfl
        | true => exact hstage.of_trips hpasses

end opens

/-- No attempt is made with the breaker open and its timeout not over. -/
def RespectsOpen (x : AdvancedRetryManager) (r : Run α) : Prop :=
  ∀ n now b, .invoked n now (some b) ∈ r.events → b.state = .opened →
    x.config.breakerConfig.config.recoveryTimeout ≤ now - b.openedAt

section respects

variable {start : Time} {s : State} {k : Nat} {r : Run α}

theorem mem_invoked_iff (hcourse : Course x start attempts s 0 k r) {n : Nat} {now : Time}
    {b : Option Breaker} : .invoked n now b ∈ r.events ↔
      ∃ i, i < k ∧ n = i + 1 ∧ now = (attempts n).started ∧
        (after x attempts s i).1.circuitBreaker = b := by
  have hmem : .invoked n now b ∈ r.events ↔ (n, now, b) ∈ r.events.filterMap invocation := by
    rw [List.mem_filterMap]
    constructor
    · intro h
      exact ⟨_, h, rfl⟩
    · rintro ⟨event, h, hevent⟩
      cases event with
      | invoked n' now' b' =>
        obtain ⟨rfl, rfl, rfl⟩ : n' = n ∧ now' = now ∧ b' = b := by simpa [invocation] using hevent
        exact h
      | outcome | failure | success => cases hevent
  rw [hmem, hcourse.invoked, List.mem_map]
  constructor
  · rintro ⟨i, hi, heq⟩
    obtain ⟨rfl, rfl, rfl⟩ : i + 1 = n ∧ (attempts (i + 1)).started = now ∧
        (after x attempts s i).1.circuitBreaker = b := by simpa using heq
    exact ⟨i, (List.Ico.mem.mp hi).2, rfl, rfl, rfl⟩
  · rintro ⟨i, hi, rfl, rfl, rfl⟩
    exact ⟨i, List.Ico.mem.mpr ⟨i.zero_le, hi⟩, rfl⟩

theorem respectsOpen_of_none (hcourse : Course x start attempts s 0 k r)
    (hs : s.circuitBreaker = none) : RespectsOpen x r := by
  intro n now b hinvoked
  obtain ⟨i, -, -, -, hb⟩ := (mem_invoked_iff hcourse).mp hinvoked
  have hnone := (after_keeps x attempts s i).2
  simp [hb, hs] at hnone

/-- An attempt is made with the breaker open exactly when an earlier one has opened it. -/
theorem respectsOpen_iff_of_course (hcourse : Course x start attempts s 0 k r) {b : Breaker}
    (hs : s.circuitBreaker = some b) (hstate : b.state ≠ .opened) :
    RespectsOpen x r ↔ ∀ m n, m < n → n ≤ k →
      Opens x attempts (failuresLeft x.config.breakerConfig.config b) m →
      x.config.breakerConfig.config.recoveryTimeout ≤
        (attempts n).started - (attempts m).told := by
  constructor
  · intro hrespects m n hmn hnk hopens
    obtain ⟨i, rfl⟩ : ∃ i, n = i + 1 := ⟨n - 1, by omega⟩
    obtain ⟨b', hb', hstage⟩ := after_stage attempts hs hstate i
    have hinvoked := (mem_invoked_iff hcourse).mpr ⟨i, by omega, rfl, rfl, hb'⟩
    cases hstage with
    | counting _ hleft =>
      have hpos := failuresLeft_pos (c := x.config.breakerConfig.config) (b := b')
      have hmono := tripped_mono x attempts (Nat.le_of_lt_succ hmn)
      have hcount := hopens.count
      omega
    | opened hopened _ hopens' hat =>
      obtain rfl := hopens.unique hopens'
      rw [← hat]
      exact hrespects _ _ _ hinvoked hopened
  · intro hwaits n now b' hinvoked hopened
    obtain ⟨i, hi, rfl, rfl, hb'⟩ := (mem_invoked_iff hcourse).mp hinvoked
    obtain ⟨b'', hb'', hstage⟩ := after_stage attempts hs hstate i
    obtain rfl := Option.some.inj (hb'.symm.trans hb'')
    cases hstage with
    | counting hcounting => exact absurd hopened hcounting
    | opened _ hm hopens hat =>
      rw [hat]
      exact hwaits _ _ (Nat.lt_succ_of_le hm) (by omega) hopens

theorem respectsOpen_of_few (x : AdvancedRetryManager) (asked start finish : Time)
    (attempts : Nat → Attempt α) (s : State) (hmax : x.config.maxAttempts < 1) :
    RespectsOpen x (x.retry start finish attempts asked s) := by
  have hzero : x.config.maxAttempts.toNat = 0 := by omega
  intro n now b hinvoked
  simp only [retry, hzero, retryLoop] at hinvoked
  split at hinvoked <;> simp [exhausted] at hinvoked

theorem respectsOpen_of_refused (x : AdvancedRetryManager) (asked start finish : Time)
    (attempts : Nat → Attempt α) (s : State)
    (hrefused : (x.checkCircuitBreaker asked s).1 = false) :
    RespectsOpen x (x.retry start finish attempts asked s) := by
  intro n now b hinvoked
  simp [retry, hrefused] at hinvoked

theorem checkCircuitBreaker_of_none (x : AdvancedRetryManager) (asked : Time)
    (hs : s.circuitBreaker = none) : x.checkCircuitBreaker asked s = (true, s) := by
  simp [checkCircuitBreaker, hs]

theorem checkCircuitBreaker_of_some (x : AdvancedRetryManager) (asked : Time) {b : Breaker}
    (hs : s.circuitBreaker = some b) :
    ((x.checkCircuitBreaker asked s).1 = true ↔ Admits x.config.breakerConfig.config asked b) ∧
      (Admits x.config.breakerConfig.config asked b →
        (x.checkCircuitBreaker asked s).2.metrics = s.metrics ∧
        (x.checkCircuitBreaker asked s).2.circuitBreaker =
          some (b.allowRequest x.config.breakerConfig.config asked).2) := by
  rw [← allowRequest_iff]
  simp only [checkCircuitBreaker, hs]
  split
  case isTrue hadmits => exact ⟨iff_of_true rfl hadmits, fun _ => ⟨rfl, rfl⟩⟩
  case isFalse hrefused =>
    exact ⟨iff_of_false Bool.false_ne_true hrefused, fun hadmits => absurd hadmits hrefused⟩

/-- A call that the breaker admits. -/
theorem respectsOpen_iff_of_admits {x : AdvancedRetryManager} {asked : Time} (finish : Time)
    {attempts : Nat → Attempt α} {b : Breaker} (hmax : 0 < x.config.maxAttempts.toNat)
    (hs : s.circuitBreaker = some b) (hadmits : Admits x.config.breakerConfig.config asked b) :
    RespectsOpen x (x.retry start finish attempts asked s) ↔ ∀ m n, m < n →
      Opens x attempts (failuresNeeded x.config.breakerConfig.config asked b) m →
      Reached x attempts start s.metrics n →
      x.config.breakerConfig.config.recoveryTimeout ≤
        (attempts n).started - (attempts m).told := by
  obtain ⟨hiff, hadmitted⟩ := checkCircuitBreaker_of_some x asked hs
  obtain ⟨hmetrics, hbreaker⟩ := hadmitted hadmits
  obtain ⟨hstate, hneeded⟩ := allowRequest_admitted hadmits
  obtain ⟨k, hk, hcourse⟩ := retryLoop_course x start attempts (x.checkCircuitBreaker asked s).2
    finish hmax (by omega) (.inl rfl)
  rw [retry_of_admitted (hiff.mpr hadmits), respectsOpen_iff_of_course hcourse hbreaker hstate,
    hneeded, ← hmetrics]
  simp only [reached_iff hcourse hk]
  constructor
  · intro hwaits m n hmn hopens hreached
    exact hwaits m n hmn hreached.2 hopens
  · intro hwaits m n hmn hnk hopens
    exact hwaits m n hmn hopens ⟨by omega, hnk⟩

end respects

theorem open_circuit_respected_iff (x : AdvancedRetryManager) (asked start finish : Time)
    (attempts : Nat → Attempt α) (s : State) :
    RespectsOpen x (x.retry start finish attempts asked s) ↔
      ∀ b, s.circuitBreaker = some b → Admits x.config.breakerConfig.config asked b →
        ∀ m n, m < n →
          Opens x attempts (failuresNeeded x.config.breakerConfig.config asked b) m →
          Reached x attempts start s.metrics n →
          x.config.breakerConfig.config.recoveryTimeout ≤
            (attempts n).started - (attempts m).told := by
  by_cases hfew : x.config.maxAttempts < 1
  · refine iff_of_true (respectsOpen_of_few x asked start finish attempts s hfew) ?_
    intro b _ _ m n _ _ hreached
    have hpos := hreached.pos
    have hle := hreached.le
    omega
  have hmax : 0 < x.config.maxAttempts.toNat := by omega
  cases hs : s.circuitBreaker with
  | none =>
    refine iff_of_true ?_ (by simp)
    have hcheck : x.checkCircuitBreaker asked s = (true, s) :=
      checkCircuitBreaker_of_none x asked hs
    obtain ⟨k, -, hcourse⟩ := retryLoop_course x start attempts s finish hmax (by omega) (.inl rfl)
    rw [retry_of_admitted (by rw [hcheck]), hcheck]
    exact respectsOpen_of_none hcourse hs
  | some b =>
    simp only [Option.some.injEq, forall_eq']
    by_cases hadmits : Admits x.config.breakerConfig.config asked b
    · rw [respectsOpen_iff_of_admits finish hmax hs hadmits]
      exact ⟨fun hwaits _ => hwaits, fun hwaits => hwaits hadmits⟩
    · have hrefused := Bool.eq_false_iff.mpr fun h =>
        hadmits ((checkCircuitBreaker_of_some x asked hs).1.mp h)
      exact iff_of_true (respectsOpen_of_refused x asked start finish attempts s hrefused)
        fun hadmits' => absurd hadmits' hadmits

def fragile : AdvancedRetryManager where
  name := "registry"
  isAsync := false
  config := { circuitBreakerConfig := some { config := { failureThreshold := 2 } } }

/-- Every attempt meets a `ConnectionError`, one a second. -/
def down (n : Nat) : Attempt Nat :=
  { flaky n with outcome := .error { typeName := "ConnectionError" } }

/-- An attempt that is made with the breaker open and its timeout not over. -/
def early (x : AdvancedRetryManager) : Event → Bool
  | .invoked _ now (some b) =>
    b.state = .opened && now - b.openedAt < x.config.breakerConfig.config.recoveryTimeout
  | _ => false

theorem third_attempt_early :
    ¬ RespectsOpen fragile (fragile.retry 0 9 down 0 (fragile.init 0)) := by
  intro hrespects
  have hearly : (fragile.retry 0 9 down 0 (fragile.init 0)).events.any (early fragile) = true := by
    decide +kernel
  obtain ⟨event, hmem, hevent⟩ := List.any_eq_true.mp hearly
  cases event with
  | invoked n now b =>
    cases b with
    | none => cases hevent
    | some b =>
      obtain ⟨hopened, hlt⟩ : b.state = .opened ∧
          now - b.openedAt < fragile.config.breakerConfig.config.recoveryTimeout := by
        simpa [early] using hevent
      exact absurd hlt (not_lt.mpr (hrespects n now b hmem hopened))
  | outcome | failure | success => cases hevent

end Marty.Resilience.RetryCircuit
