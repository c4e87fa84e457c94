import Mathlib.Tactic.FieldSimp
import Mathlib.Tactic.Ring
import Marty.RateLimit.Cleanup

/-! What the `retry_after` of a refused request is worth.  The wait for a token makes up the missing
part of it; the wait for a window ends before the requests that fill it are out of it. -/

namespace Marty.RateLimit.RetryAfter

open Lib.Run Limiter Backends Cleanup

/-- The times that a limiter over memory holds are past. -/
structure Past (s : System Store) : Prop where
  dated : ∀ clientId bucket, s.state.store clientId = some bucket → Dated s.clock bucket
  lastCleanup : s.state.lastCleanup ≤ s.clock

/-- When the refill has made up one token. -/
def readyAt (rule : RateLimitRule) (bucket : ClientBucket) : Time :=
  bucket.lastRefill + (1 - bucket.tokens) / rule.requestsPerSecond

/-- What is left of a bucket when nobody but the cleanup has come to it. -/
def Left (clock : Time) (bucket : ClientBucket) (found : Option ClientBucket) : Prop :=
  found = some bucket ∨ found = none ∧ bucket.lastRefill < clock - 3600

section store

variable {rules : Rules} {rule : RateLimitRule} {s s' : System Store} {call : Call} {now : Time}
  {found : Option ClientBucket} {bucket : ClientBucket}

theorem cleanup_store_cases (now : Time) (s : State Store) (clientId : String) :
    (Limiter.cleanup memoryBackend now s).store clientId = s.store clientId ∨
      (Limiter.cleanup memoryBackend now s).store clientId = none ∧
        ∀ bucket, s.store clientId = some bucket → bucket.lastRefill < now - 3600 := by
  unfold Limiter.cleanup
  split
  case isFalse => exact .inl rfl
  case isTrue =>
    show (s.store clientId).filter _ = _ ∨ (s.store clientId).filter _ = none ∧ _
    cases s.store clientId with
    | none => exact .inl rfl
    | some bucket =>
      rw [Option.filter_some]
      split
      case isTrue => exact .inl rfl
      case isFalse hold =>
        rw [decide_eq_true_eq, not_not] at hold
        refine .inr ⟨rfl, fun other hother => ?_⟩
        obtain rfl := Option.some.inj hother
        exact hold

theorem cleanup_lastCleanup {s : State Store} (h : s.lastCleanup ≤ now) :
    (Limiter.cleanup memoryBackend now s).lastCleanup ≤ now := by
  unfold Limiter.cleanup
  split
  · exact le_rfl
  · exact h

theorem dated_load (h : ∀ bucket, found = some bucket → Dated now bucket) :
    Dated now (loadBucket rule now found) ∧ (loadBucket rule now found).lastRefill = now := by
  cases found with
  | none =>
    rw [loadBucket_none]
    exact ⟨dated_new, rfl⟩
  | some bucket =>
    have hdated := h bucket rfl
    exact ⟨hdated.refill, refillBucket_lastRefill hdated.past⟩

theorem dated_cleanup {s : State Store} {clientId : String}
    (h : ∀ bucket, s.store clientId = some bucket → Dated now bucket) :
    ∀ bucket, (Limiter.cleanup memoryBackend now s).store clientId = some bucket →
      Dated now bucket := by
  rcases cleanup_store_cases now s clientId with hkept | ⟨hnone, -⟩
  · rwa [hkept]
  · rw [hnone]
    nofun

theorem past_init (start : Time) : Past (memoryInit start) := ⟨nofun, le_rfl⟩

theorem past_step (hs : Past s) (h : step rules memoryBackend s call = some s') : Past s' := by
  obtain ⟨hclock, rfl⟩ := step_cases h
  have hcleaned : ∀ clientId bucket,
      (Limiter.cleanup memoryBackend call.now s.state).store clientId = some bucket →
        Dated call.now bucket := fun clientId =>
    dated_cleanup fun bucket hbucket => (hs.dated clientId bucket hbucket).mono hclock
  refine ⟨fun clientId bucket hbucket => ?_, cleanup_lastCleanup (hs.lastCleanup.trans hclock)⟩
  by_cases hclient : clientId = call.clientId
  · subst hclient
    rw [memory_store_self] at hbucket
    obtain rfl := Option.some.inj hbucket
    rw [checkLimit_memory rfl]
    obtain ⟨hdated, hlast⟩ := dated_load (hcleaned call.clientId)
    exact hdated.decide hlast call.requestCost
  · rw [memory_store_of_ne s.state hclient] at hbucket
    exact hcleaned clientId bucket hbucket

theorem left_cleanup {s : State Store} {clientId : String}
    (h : Left now bucket (s.store clientId)) :
    Left now bucket ((Limiter.cleanup memoryBackend now s).store clientId) := by
  rcases cleanup_store_cases now s clientId with hkept | ⟨hnone, hidle⟩
  · rwa [hkept]
  · rw [hnone]
    rcases h with hsome | ⟨-, hidle'⟩
    · exact .inr ⟨rfl, hidle bucket hsome⟩
    · exact .inr ⟨rfl, hidle'⟩

theorem Left.mono {clock : Time} (h : Left clock bucket found) (hle : clock ≤ now) :
    Left now bucket found :=
  h.imp id fun ⟨hnone, hidle⟩ => ⟨hnone, by linarith⟩

/-- Calls of other clients. -/
theorem left_run {clientId : String} {calls : List Call}
    (hothers : ∀ call ∈ calls, call.clientId ≠ clientId)
    (hr : run (step rules memoryBackend) s calls = some s')
    (h : Left s.clock bucket (s.state.store clientId)) :
    Left s'.clock bucket (s'.state.store clientId) := by
  have hguarded : Guarded (step rules memoryBackend) (fun _ call => call.clientId ≠ clientId) s
      calls := guarded_of_mem (fun _ => hothers) s
  refine run_invariant (I := fun s : System Store => Left s.clock bucket (s.state.store clientId))
    ?_ h hguarded hr
  intro s call s' h hne hstep
  obtain ⟨hclock, rfl⟩ := step_cases hstep
  show Left call.now bucket ((checkLimit rules memoryBackend call s.state).2.store clientId)
  rw [memory_store_of_ne s.state hne.symm]
  exact left_cleanup (h.mono hclock)

end store

section decide

variable {rule : RateLimitRule} {now r : Time} {bucket : ClientBucket} {cost : Int}

/-- A call is allowed that finds the tokens and room in the window. -/
theorem allowed_iff (hrate : 0 < rule.requestsPerSecond) :
    (decideBucket rule now bucket cost).allowed = true ↔
      (cost : ℚ) ≤ bucket.tokens ∧ ¬ Full rule now bucket.requestsInWindow := by
  by_cases htokens : bucket.tokens < cost
  · obtain ⟨-, hflag, -⟩ : (decideBucket rule now bucket cost).bucket = bucket ∧ _ :=
      decideBucket_of_lt htokens
    refine iff_of_false ?_ fun h => not_lt.mpr h.1 htokens
    simp [Decision.allowed, hflag]
  · rw [and_iff_right (not_lt.mp htokens)]
    by_cases hfull : Full rule now bucket.requestsInWindow
    · have hflag := (decideBucket_of_full htokens hfull).2.1
      refine iff_of_false ?_ fun h => h hfull
      simp [Decision.allowed, hflag]
    · have hflag := (decideBucket_of_room htokens hfull).2.1
      refine iff_of_true ?_ hfull
      simp [Decision.allowed, hflag, divide, hrate.ne']

/-- The two ways to be refused, and what there is to wait for. -/
theorem refused_cases {status : RateLimitStatus}
    (h : (decideBucket rule now bucket cost).status = some status)
    (hrefused : status.allowed = false) (hretry : status.retryAfter = some r) :
    (bucket.tokens < cost ∧ r = (cost - bucket.tokens) / rule.requestsPerSecond) ∨
      (¬ bucket.tokens < cost ∧ ∃ retryAfterTime,
        (checkWindowLimits rule now bucket).1 = some retryAfterTime ∧
          r = retryAfterTime - now) := by
  unfold decideBucket at h
  split at h
  case isTrue htokens =>
    obtain ⟨wait, hwait, rfl⟩ := Option.map_eq_some_iff.mp h
    obtain rfl := Option.some.inj hretry
    simp only [divide] at hwait
    split at hwait
    · cases hwait
    · exact .inl ⟨htokens, (Option.some.inj hwait).symm⟩
  case isFalse htokens =>
    split at h
    case h_1 retryAfterTime after hcheck =>
      obtain rfl := Option.some.inj h
      simp only at hretry
      split at hretry
      · cases hretry
      · exact .inr ⟨htokens, retryAfterTime, by rw [hcheck], (Option.some.inj hretry).symm⟩
    case h_2 =>
      obtain ⟨wait, -, rfl⟩ := Option.map_eq_some_iff.mp h
      cases hrefused

/-- The oldest request that is kept is not older than an hour. -/
theorem le_of_recent_eq_cons {window rest : List Time} {oldest : Time}
    (h : recent now window = oldest :: rest) : now - 3600 ≤ oldest := by
  have hhead : (window.dropWhile (· < now - 3600)).head? = some oldest := congrArg List.head? h
  have hnot := List.head?_dropWhile_not (· < now - 3600) window
  rw [hhead] at hnot
  simpa using hnot

/-- The wait for a window ends within the hour, with the window still full. -/
theorem full_of_window {retryAfterTime : Time} (hdated : Dated now bucket)
    (hlast : bucket.lastRefill = now)
    (h : (checkWindowLimits rule now bucket).1 = some retryAfterTime) :
    now ≤ retryAfterTime ∧ retryAfterTime ≤ now + 3600 ∧
      Full rule retryAfterTime (recent now bucket.requestsInWindow) := by
  have hwindow : (bucket.requestsInWindow.dropWhile (· < now - 3600)) =
      recent now bucket.requestsInWindow := rfl
  simp only [checkWindowLimits, hwindow] at h
  split at h
  case isTrue hminute =>
    obtain rfl : now = retryAfterTime := by
      have := Option.some.inj h
      linarith
    refine ⟨le_rfl, by linarith, .inl ?_⟩
    rwa [recent_recent le_rfl]
  case isFalse =>
    split at h
    case isFalse => cases h
    case isTrue hhour =>
      have htime := Option.some.inj h
      cases hrecent : recent now bucket.requestsInWindow with
      | nil =>
        rw [hrecent] at hhour htime
        have htime : now + 3600 = retryAfterTime := htime
        exact ⟨by linarith, htime.ge, .inr hhour⟩
      | cons oldest rest =>
        rw [hrecent] at hhour htime
        have htime : oldest + 3600 = retryAfterTime := htime
        have hmem : oldest ∈ recent now bucket.requestsInWindow := by simp [hrecent]
        have hpast : oldest ≤ now := (hdated.window oldest (mem_of_mem_recent hmem)).trans_eq hlast
        have hyoung := le_of_recent_eq_cons hrecent
        refine ⟨by linarith, by linarith, .inr ?_⟩
        -- The oldest request is an hour old at that time, and is kept.
        have hkept : recent retryAfterTime (oldest :: rest) = oldest :: rest := by
          have hstays : ¬ oldest < retryAfterTime - 3600 := by linarith
          simp [recent, hstays]
        rwa [hkept]

/-- The tokens after the refill, short of a full bucket. -/
theorem refill_cases (hburst : 1 ≤ rule.burstSize) (hpast : bucket.lastRefill ≤ now) :
    (refillBucket rule now bucket).tokens =
        bucket.tokens + (now - bucket.lastRefill) * rule.requestsPerSecond ∨
      1 ≤ (refillBucket rule now bucket).tokens ∧
        1 ≤ bucket.tokens + (now - bucket.lastRefill) * rule.requestsPerSecond := by
  simp only [refillBucket]
  split
  case isTrue hpassed =>
    obtain rfl : bucket.lastRefill = now := le_antisymm hpast (by linarith)
    exact .inl (by simp)
  case isFalse =>
    have hone : (1 : ℚ) ≤ rule.burstSize := by exact_mod_cast hburst
    rcases le_total (rule.burstSize : ℚ)
      (bucket.tokens + (now - bucket.lastRefill) * rule.requestsPerSecond) with hle | hle
    · rw [min_eq_left hle]
      exact .inr ⟨hone, hone.trans hle⟩
    · exact .inl (min_eq_right hle)

theorem lt_readyAt_iff (hrate : 0 < rule.requestsPerSecond) : now < readyAt rule bucket ↔
    bucket.tokens + (now - bucket.lastRefill) * rule.requestsPerSecond < 1 := by
  rw [readyAt, ← sub_lt_iff_lt_add', lt_div_iff₀ hrate, lt_sub_iff_add_lt']

/-- A bucket has less than a token until it is ready. -/
theorem refill_lt_one_iff (hrate : 0 < rule.requestsPerSecond) (hburst : 1 ≤ rule.burstSize)
    (hpast : bucket.lastRefill ≤ now) :
    (refillBucket rule now bucket).tokens < 1 ↔ now < readyAt rule bucket := by
  rw [lt_readyAt_iff hrate]
  rcases refill_cases hburst hpast with htokens | ⟨htokens, hone⟩
  · rw [htokens]
  · exact iff_of_false (not_lt.mpr htokens) (not_lt.mpr hone)

/-- The wait for a token lasts until the bucket is ready. -/
theorem wait_eq (hrate : 0 < rule.requestsPerSecond) (hburst : 1 ≤ rule.burstSize)
    (hpast : bucket.lastRefill ≤ now) (h : (refillBucket rule now bucket).tokens < 1) :
    now + (1 - (refillBucket rule now bucket).tokens) / rule.requestsPerSecond =
      readyAt rule bucket := by
  have htokens := (refill_cases hburst hpast).resolve_right fun hfull => not_lt.mpr hfull.1 h
  rw [htokens, readyAt]
  field_simp
  ring

/-- The wait for a token is over when the bucket is ready; what it finds then is the window. -/
theorem allowed_after_wait {found : Option ClientBucket} (hrate : 0 < rule.requestsPerSecond)
    (hopen : ¬ Closed rule) (hburst : 1 ≤ rule.burstSize) (hdated : Dated now bucket)
    (hlast : bucket.lastRefill = now)
    (hleft : Left (readyAt rule bucket) bucket found) (hwait : now ≤ readyAt rule bucket) :
    (decideBucket rule (readyAt rule bucket) (loadBucket rule (readyAt rule bucket) found)
        1).allowed = true ↔
      ¬ Full rule (readyAt rule bucket) bucket.requestsInWindow := by
  rw [allowed_iff hrate]
  rcases hleft with rfl | ⟨rfl, hidle⟩
  · have htokens : ¬ (refillBucket rule (readyAt rule bucket) bucket).tokens < 1 := by
      rw [refill_lt_one_iff hrate hburst (hlast.trans_le hwait)]
      exact lt_irrefl _
    have hwindow : (loadBucket rule (readyAt rule bucket) (some bucket)).requestsInWindow =
        bucket.requestsInWindow := refillBucket_requestsInWindow bucket
    rw [hwindow, and_iff_right]
    show ((1 : Int) : ℚ) ≤ (refillBucket rule (readyAt rule bucket) bucket).tokens
    simpa using htokens
  · have hnew : ¬ Full rule (readyAt rule bucket) [] := fun hfull => hopen (full_nil.mp hfull)
    rw [loadBucket_none]
    refine iff_of_true ⟨?_, hnew⟩ ?_
    · show ((1 : Int) : ℚ) ≤ rule.burstSize
      exact_mod_cast hburst
    · rwa [Full, hdated.recent_of_idle hidle]

theorem not_allowed_after_window {found : Option ClientBucket} {later : Time}
    (hrate : 0 < rule.requestsPerSecond) (hlast : bucket.lastRefill = now)
    (hhour : later ≤ now + 3600) (hfull : Full rule later bucket.requestsInWindow)
    (hleft : Left later bucket found) :
    ¬ (decideBucket rule later (loadBucket rule later found) cost).allowed = true := by
  rcases hleft with rfl | ⟨-, hidle⟩
  · rw [allowed_iff hrate]
    have hwindow : (loadBucket rule later (some bucket)).requestsInWindow =
        bucket.requestsInWindow := refillBucket_requestsInWindow bucket
    rw [hwindow]
    exact fun h => h.2 hfull
  · linarith

end decide

/-- The bucket is short of tokens at `now`, and when it is ready its window has room. -/
def Clears (rule : RateLimitRule) (now : Time) (bucket : ClientBucket) : Prop :=
  now < readyAt rule bucket ∧ ¬ Full rule (readyAt rule bucket) bucket.requestsInWindow

section retry

variable {rule : RateLimitRule} {now r : Time} {bucket : ClientBucket}
  {found : Option ClientBucket} {status : RateLimitStatus}

/-- A client without a bucket is not refused. -/
theorem found_of_refused (hopen : ¬ Closed rule) (hburst : 1 ≤ rule.burstSize)
    (hstatus : (decideBucket rule now (loadBucket rule now found) 1).status = some status)
    (hrefused : status.allowed = false) (hretry : status.retryAfter = some r) :
    ∃ bucket, found = some bucket := by
  cases found with
  | some bucket => exact ⟨bucket, rfl⟩
  | none =>
    rw [loadBucket_none] at hstatus
    rcases refused_cases hstatus hrefused hretry with
      ⟨htokens, -⟩ | ⟨-, retryAfterTime, hcheck, -⟩
    · have hfull : (rule.burstSize : ℚ) < ((1 : Int) : ℚ) := htokens
      exact absurd (Int.cast_lt.mp hfull) (not_lt.mpr hburst)
    · obtain ⟨-, -, hfull⟩ := full_of_window dated_new rfl hcheck
      exact absurd (full_nil.mp hfull) hopen

/-- A request that is refused for want of a token. -/
theorem retry_of_short (hrate : 0 < rule.requestsPerSecond) (hopen : ¬ Closed rule)
    (hburst : 1 ≤ rule.burstSize) (hdated : Dated now bucket)
    (hshort : (refillBucket rule now bucket).tokens < 1)
    (hleft : Left (readyAt rule bucket) (refillBucket rule now bucket) found) :
    (decideBucket rule (readyAt rule bucket) (loadBucket rule (readyAt rule bucket) found)
        1).allowed = true ↔ Clears rule now bucket := by
  have hlast : (refillBucket rule now bucket).lastRefill = now :=
    refillBucket_lastRefill hdated.past
  have hwait := (refill_lt_one_iff hrate hburst hdated.past).mp hshort
  have hready : readyAt rule (refillBucket rule now bucket) = readyAt rule bucket := by
    rw [← wait_eq hrate hburst hdated.past hshort, readyAt, hlast]
  rw [← hready] at hleft
  have hallowed := allowed_after_wait hrate hopen hburst hdated.refill hlast hleft
    (hwait.le.trans_eq hready.symm)
  rw [hready, refillBucket_requestsInWindow] at hallowed
  rw [hallowed, Clears, and_iff_right hwait]

/-- A request that is refused for its window. -/
theorem retry_of_full {retryAfterTime : Time} (hrate : 0 < rule.requestsPerSecond)
    (hdated : Dated now bucket) (hlast : bucket.lastRefill = now)
    (htokens : ¬ bucket.tokens < ((1 : Int) : ℚ))
    (hcheck : (checkWindowLimits rule now bucket).1 = some retryAfterTime)
    (hleft : Left retryAfterTime (decideBucket rule now bucket 1).bucket found) :
    ¬ (decideBucket rule retryAfterTime (loadBucket rule retryAfterTime found) 1).allowed =
      true := by
  have hfull : Full rule now bucket.requestsInWindow := by
    by_contra hroom
    rw [checkWindowLimits_of_not_full hroom] at hcheck
    cases hcheck
  obtain ⟨-, hhour, hlater⟩ := full_of_window hdated hlast hcheck
  rw [(decideBucket_of_full htokens hfull).1] at hleft
  refine not_allowed_after_window hrate ?_ hhour ?_ hleft
  · exact hlast
  · exact hlater

/-- The retry of a refused request is admitted exactly when the request was short of a token that
the window does not keep from it. -/
theorem retry_iff {found' : Option ClientBucket} (hrate : 0 < rule.requestsPerSecond)
    (hopen : ¬ Closed rule) (hburst : 1 ≤ rule.burstSize) (hdated : Dated now bucket)
    (hstatus : (decideBucket rule now (refillBucket rule now bucket) 1).status = some status)
    (hrefused : status.allowed = false) (hretry : status.retryAfter = some r)
    (hleft : Left (now + r) (decideBucket rule now (refillBucket rule now bucket) 1).bucket
      found') :
    (decideBucket rule (now + r) (loadBucket rule (now + r) found') 1).allowed = true ↔
      Clears rule now bucket := by
  rcases refused_cases hstatus hrefused hretry with
    ⟨htokens, hwait⟩ | ⟨htokens, retryAfterTime, hcheck, hwait⟩
  · have hshort := htokens.trans_eq (Int.cast_one (R := ℚ))
    have htime : now + r = readyAt rule bucket := by
      rw [← wait_eq hrate hburst hdated.past hshort, hwait, Int.cast_one]
    rw [(decideBucket_of_lt htokens).1, htime] at hleft
    rw [htime]
    exact retry_of_short hrate hopen hburst hdated hshort hleft
  · have htime : now + r = retryAfterTime := by linarith
    have hlast : (refillBucket rule now bucket).lastRefill = now :=
      refillBucket_lastRefill hdated.past
    rw [htime] at hleft ⊢
    refine iff_of_false (retry_of_full hrate hdated.refill hlast htokens hcheck hleft) ?_
    intro hclears
    have hshort := (refill_lt_one_iff hrate hburst hdated.past).mpr hclears.1
    exact htokens (hshort.trans_eq Int.cast_one.symm)

end retry

/-- Under positive limits, a request of cost 1 that is refused with a time to retry after is
admitted at that time, other clients' requests apart, exactly when it was short of a token that the
window does not keep from it. -/
theorem retryAfter_honest_iff {rules : Rules} {rule : RateLimitRule} {start r : Time}
    {calls others : List Call} {s s' s'' : System Store} {call : Call} {status : RateLimitStatus}
    (hrule : rules.getRuleForClient call.clientType = rule)
    (hrate : 0 < rule.requestsPerSecond) (hminute : 0 < rule.requestsPerMinute)
    (hhour : 0 < rule.requestsPerHour) (hburst : 1 ≤ rule.burstSize)
    (hcalls : run (step rules memoryBackend) (memoryInit start) calls = some s)
    (hcost : call.requestCost = 1) (hstep : step rules memoryBackend s call = some s')
    (hstatus : (checkLimit rules memoryBackend call s.state).1.status = some status)
    (hrefused : status.allowed = false) (hretry : status.retryAfter = some r)
    (hne : ∀ other ∈ others, other.clientId ≠ call.clientId)
    (hothers : run (step rules memoryBackend) s' others = some s'')
    (hclock : s''.clock ≤ call.now + r) :
    (checkLimit rules memoryBackend { call with now := call.now + r } s''.state).1.allowed =
        true ↔
      ∃ bucket, s.state.store call.clientId = some bucket ∧ Clears rule call.now bucket := by
  have hs : Past s := run_preserves (fun _ _ _ => past_step) (past_init start) hcalls
  have hopen : ¬ Closed rule := by
    rintro (h | h) <;> linarith
  obtain ⟨hnow, rfl⟩ := step_cases hstep
  have hleft := left_cleanup
    ((left_run hne hothers (.inl (memory_store_self s.state))).mono hclock)
  have hdated : ∀ bucket,
      (Limiter.cleanup memoryBackend call.now s.state).store call.clientId = some bucket →
        Dated call.now bucket :=
    dated_cleanup fun bucket hbucket => (hs.dated call.clientId bucket hbucket).mono hnow
  rw [checkLimit_memory hrule, hcost] at hleft hstatus
  rw [@checkLimit_memory rules rule { call with now := call.now + r } hrule, hcost]
  obtain ⟨bucket, hfound⟩ := found_of_refused hopen hburst hstatus hrefused hretry
  have hsome : s.state.store call.clientId = some bucket := by
    rcases cleanup_store_cases call.now s.state call.clientId with hkept | ⟨hnone, -⟩
    · exact hkept.symm.trans hfound
    · cases hnone.symm.trans hfound
  rw [hfound] at hleft hstatus
  have hiff := retry_iff hrate hopen hburst (hdated bucket hfound) hstatus hrefused hretry hleft
  simp [hiff, hsome]

def oneToken : RateLimitRule where
  requestsPerSecond := 1
  requestsPerMinute := 100
  requestsPerHour := 100
  burstSize := 1

/-- The bucket is empty, and a second later it holds a token. -/
theorem admitted_second_later : ∃ s s' s'',
    run (step { defaultRule := oneToken } memoryBackend) (memoryInit 1)
        [⟨"a", "default", 1, 1⟩] = some s ∧
      step { defaultRule := oneToken } memoryBackend s ⟨"a", "default", 1, 1⟩ = some s' ∧
      run (step { defaultRule := oneToken } memoryBackend) s'
        [⟨"b", "default", 1, 2⟩] = some s'' ∧
      (checkLimit { defaultRule := oneToken } memoryBackend
        ⟨"a", "default", 1, 1 + 1⟩ s''.state).1.allowed = true := by
  let call : Call := ⟨"a", "default", 1, 1⟩
  obtain ⟨s, s', s'', hcalls, hstep, hothers, hstatus, hbucket, hclock⟩ : ∃ s s' s'',
      run (step { defaultRule := oneToken } memoryBackend) (memoryInit 1) [call] = some s ∧
        step { defaultRule := oneToken } memoryBackend s call = some s' ∧
        run (step { defaultRule := oneToken } memoryBackend) s' [⟨"b", "default", 1, 2⟩] =
          some s'' ∧
        (checkLimit { defaultRule := oneToken } memoryBackend call s.state).1.status =
          some ⟨false, 0, 2, some 1, some .burstLimit⟩ ∧
        s.state.store "a" = some ⟨0, 1, [1], 1⟩ ∧ s''.clock ≤ 1 + 1 :=
    ⟨_, _, _, rfl, rfl, rfl, by decide +kernel, by decide +kernel, by decide +kernel⟩
  refine ⟨s, s', s'', hcalls, hstep, hothers, ?_⟩
  have hclears : Clears oneToken 1 ⟨0, 1, [1], 1⟩ := by
    constructor <;> norm_num [readyAt, oneToken, Full, recent]
  have hne : ∀ other ∈ [(⟨"b", "default", 1, 2⟩ : Call)], other.clientId ≠ call.clientId := by
    simp [call]
  have hrule : Rules.getRuleForClient { defaultRule := oneToken } call.clientType = oneToken := rfl
  refine (retryAfter_honest_iff hrule ?_ ?_ ?_ ?_ hcalls rfl hstep hstatus rfl rfl hne hothers
    hclock).mpr ⟨_, hbucket, hclears⟩
  all_goals norm_num [oneToken]

/-- The wait for the minute is over at once, and that for the hour while the oldest request still
counts. -/
theorem window_retry_refused :
    (decisions { defaultRule := minuteRule } memoryBackend ⟨fun _ => none, 1⟩
        [⟨"a", "default", 1, 1⟩, ⟨"a", "default", 1, 1⟩, ⟨"a", "default", 1, 1 + 0⟩]).map
      (fun decision => decision.status.map fun status => (status.allowed, status.retryAfter)) =
        [some (true, none), some (false, some 0), some (false, some 0)] := by
  decide +kernel

end Marty.RateLimit.RetryAfter
