import Mathlib.Algebra.Order.Floor.Semiring
import Mathlib.Data.Rat.Floor
import Marty.Lib.TokenBucket
import Marty.RateLimit.Limiter

/-! What a limiter over the memory of one process guarantees. -/

namespace Marty.RateLimit.Guarantee

open Lib.Run Lib.Events Lib.TokenBucket Limiter

variable (rule : RateLimitRule)

/-- What the backend holds of a client explains the requests admitted up to `clock`: a bucket has
paid for them, and where there is none the refill alone has. -/
def Explains (clock : Time) (admitted : List Time) : Option ClientBucket → Prop
  | none => Settled rule.requestsPerSecond clock admitted ∧ Keeps (clock - 3600) [] admitted
  | some bucket =>
    Accounts rule.requestsPerSecond rule.burstSize bucket.tokens bucket.lastRefill admitted ∧
      bucket.lastRefill ≤ clock ∧ Keeps (clock - 3600) bucket.requestsInWindow admitted

/-- The bounds that a rule puts on the requests of one client. -/
structure Bounded (admitted : List Time) : Prop where
  limited : Limited rule.requestsPerSecond rule.burstSize admitted
  minute : Sparse 60 ⌈rule.requestsPerMinute⌉₊ admitted
  hour : Sparse 3600 ⌈rule.requestsPerHour⌉₊ admitted

variable {rule} {clock now : Time} {admitted : List Time} {found : Option ClientBucket}
  {bucket : ClientBucket}

theorem bounded_nil (hrate : 0 ≤ rule.requestsPerSecond) (hburst : 0 ≤ rule.burstSize) :
    Bounded rule [] :=
  ⟨limited_nil hrate (by exact_mod_cast hburst), sparse_nil _ _, sparse_nil _ _⟩

theorem Explains.mono (hrate : 0 ≤ rule.requestsPerSecond)
    (h : Explains rule clock admitted found) (hle : clock ≤ now) :
    Explains rule now admitted found := by
  have hhour : clock - 3600 ≤ now - 3600 := sub_le_sub_right hle _
  cases found with
  | none => exact ⟨h.1.mono hrate hle, h.2.mono hhour⟩
  | some bucket => exact ⟨h.1, h.2.1.trans hle, h.2.2.mono hhour⟩

/-- A bucket that the cleanup deletes was full again and its window was over. -/
theorem Explains.cleanup (hrate : 0 ≤ rule.requestsPerSecond)
    (hfill : (rule.burstSize : ℚ) ≤ 3600 * rule.requestsPerSecond)
    (h : Explains rule now admitted found) :
    Explains rule now admitted
      (found.filter fun bucket => ¬ bucket.lastRefill < now - 3600) := by
  cases found with
  | none => exact h
  | some bucket =>
    rw [Option.filter_some]
    split
    case isTrue => exact h
    case isFalse hold =>
      have hold : bucket.lastRefill < now - 3600 := by
        simpa only [decide_eq_true_eq, not_not] using hold
      obtain ⟨haccounts, hpast, -⟩ := h
      have hidle : 3600 ≤ now - bucket.lastRefill := by linarith
      have hgain := mul_le_mul_of_nonneg_right hidle hrate
      refine ⟨haccounts.settled hrate hpast (by linarith [haccounts.nonneg]),
        keeps_nil fun a ha => ?_⟩
      exact (haccounts.past a ha).trans_lt hold

/-- The bucket that a call decides on has paid for what was admitted before. -/
structure Ready (rule : RateLimitRule) (now : Time) (admitted : List Time) (bucket : ClientBucket) :
    Prop where
  accounts : Accounts rule.requestsPerSecond rule.burstSize bucket.tokens now admitted
  lastRefill : bucket.lastRefill = now
  keeps : Keeps (now - 3600) bucket.requestsInWindow admitted

theorem Explains.ready (hrate : 0 ≤ rule.requestsPerSecond) (hburst : 0 ≤ rule.burstSize)
    (h : Explains rule now admitted found) :
    Ready rule now admitted (loadBucket rule now found) := by
  cases found with
  | none =>
    rw [loadBucket_none]
    exact ⟨h.1.accounts (by exact_mod_cast hburst), rfl, h.2⟩
  | some bucket =>
    obtain ⟨haccounts, hpast, hkeeps⟩ := h
    refine ⟨?_, refillBucket_lastRefill hpast, ?_⟩
    · have htokens := refillBucket_tokens hpast haccounts.le_burst
      simpa [loadBucket, htokens] using haccounts.refill hrate hpast
    · simpa [loadBucket, refillBucket_requestsInWindow] using hkeeps

/-- The tokens after one call of cost 1 have paid for what is admitted after it. -/
theorem decide_accounts (hrate : 0 ≤ rule.requestsPerSecond)
    (h : Accounts rule.requestsPerSecond rule.burstSize bucket.tokens now admitted)
    (hlimited : Limited rule.requestsPerSecond rule.burstSize admitted) :
    let decision := decideBucket rule now bucket 1
    let admitted := if decision.allowed then admitted ++ [now] else admitted
    Accounts rule.requestsPerSecond rule.burstSize decision.bucket.tokens now admitted ∧
      Limited rule.requestsPerSecond rule.burstSize admitted := by
  intro decision admitted'
  by_cases htokens : bucket.tokens < ((1 : Int) : ℚ)
  · obtain ⟨hbucket, hflag, -⟩ : decision.bucket = bucket ∧ _ := decideBucket_of_lt htokens
    have hrefused : admitted' = admitted := by
      simp [admitted', decision, Decision.allowed, hflag]
    rw [hrefused, hbucket]
    exact ⟨h, hlimited⟩
  · have htoken : 1 ≤ bucket.tokens := by simpa using htokens
    by_cases hfull : Full rule now bucket.requestsInWindow
    · obtain ⟨hbucket, hflag, -⟩ := decideBucket_of_full htokens hfull
      have hrefused : admitted' = admitted := by
        simp [admitted', decision, Decision.allowed, hflag]
      rw [hrefused, hbucket]
      exact ⟨h, hlimited⟩
    · obtain ⟨hbucket, -⟩ := decideBucket_of_room htokens hfull
      have htokens' : decision.bucket.tokens = bucket.tokens - 1 := by
        simp [decision, hbucket]
      rw [htokens']
      -- A rate of zero takes the token and raises.
      by_cases hallowed : decision.allowed
      · have hadmitted : admitted' = admitted ++ [now] := if_pos hallowed
        rw [hadmitted]
        exact ⟨h.take htoken, hlimited.append hrate (h.take htoken)⟩
      · have hrefused : admitted' = admitted := if_neg hallowed
        rw [hrefused]
        exact ⟨h.waste htoken, hlimited⟩

/-- A window that is not full has room for a request under both limits. -/
theorem room_of_not_full (h : Keeps (now - 3600) bucket.requestsInWindow admitted)
    (hroom : ¬ Full rule now bucket.requestsInWindow) :
    since (now - 60) admitted < ⌈rule.requestsPerMinute⌉₊ ∧
      since (now - 3600) admitted < ⌈rule.requestsPerHour⌉₊ := by
  rw [Full, not_or, not_le, not_le] at hroom
  have hkeeps : Keeps (now - 3600) (recent now bucket.requestsInWindow) admitted :=
    h.dropWhile le_rfl
  constructor
  · rw [← hkeeps.since_eq (by linarith : now - 3600 ≤ now - 60)]
    exact Nat.lt_ceil.mpr hroom.1
  · rw [← hkeeps.since_eq le_rfl]
    exact List.countP_le_length.trans_lt (Nat.lt_ceil.mpr hroom.2)

/-- The window after one call holds what is admitted after it, within its two limits. -/
theorem decide_keeps (hrate : 0 < rule.requestsPerSecond)
    (h : Keeps (now - 3600) bucket.requestsInWindow admitted)
    (hminute : Sparse 60 ⌈rule.requestsPerMinute⌉₊ admitted)
    (hhour : Sparse 3600 ⌈rule.requestsPerHour⌉₊ admitted) (requestCost : Int) :
    let decision := decideBucket rule now bucket requestCost
    let admitted := if decision.allowed then admitted ++ [now] else admitted
    Keeps (now - 3600) decision.bucket.requestsInWindow admitted ∧
      Sparse 60 ⌈rule.requestsPerMinute⌉₊ admitted ∧
      Sparse 3600 ⌈rule.requestsPerHour⌉₊ admitted := by
  intro decision admitted'
  have hrecent : Keeps (now - 3600) (recent now bucket.requestsInWindow) admitted :=
    h.dropWhile le_rfl
  by_cases htokens : bucket.tokens < requestCost
  · obtain ⟨hbucket, hflag, -⟩ : decision.bucket = bucket ∧ _ := decideBucket_of_lt htokens
    have hrefused : admitted' = admitted := by
      simp [admitted', decision, Decision.allowed, hflag]
    rw [hrefused, hbucket]
    exact ⟨h, hminute, hhour⟩
  · by_cases hfull : Full rule now bucket.requestsInWindow
    · obtain ⟨hbucket, hflag, -⟩ := decideBucket_of_full htokens hfull
      have hrefused : admitted' = admitted := by
        simp [admitted', decision, Decision.allowed, hflag]
      rw [hrefused, hbucket]
      exact ⟨hrecent, hminute, hhour⟩
    · obtain ⟨hbucket, hflag, -⟩ := decideBucket_of_room htokens hfull
      have hadmitted : admitted' = admitted ++ [now] := by
        simp [admitted', decision, Decision.allowed, hflag, divide, hrate.ne']
      obtain ⟨hminute', hhour'⟩ := room_of_not_full h hfull
      rw [hadmitted, hbucket]
      exact ⟨hrecent.append now, hminute.append hminute', hhour.append hhour'⟩

/-- One call of cost 1: the bucket explains what is admitted after it, within the bounds. -/
theorem Ready.decide (hrate : 0 < rule.requestsPerSecond) (hbounded : Bounded rule admitted)
    (h : Ready rule now admitted bucket) :
    let decision := decideBucket rule now bucket 1
    let admitted := if decision.allowed then admitted ++ [now] else admitted
    Explains rule now admitted (some decision.bucket) ∧ Bounded rule admitted := by
  obtain ⟨haccounts, hlimited⟩ := decide_accounts hrate.le h.accounts hbounded.limited
  obtain ⟨hkeeps, hminute, hhour⟩ := decide_keeps hrate h.keeps hbounded.minute hbounded.hour 1
  have hlast := (decideBucket_lastRefill rule now bucket 1).trans h.lastRefill
  refine ⟨⟨?_, hlast.le, hkeeps⟩, hlimited, hminute, hhour⟩
  rw [hlast]
  exact haccounts

/-- What holds of every client of a limiter over memory. -/
def Guarantees (rule : RateLimitRule) (s : System (String → Option ClientBucket)) : Prop :=
  ∀ clientId, Explains rule s.clock (s.admitted clientId) (s.state.store clientId) ∧
    Bounded rule (s.admitted clientId)

theorem guarantees_init (hrate : 0 ≤ rule.requestsPerSecond) (hburst : 0 ≤ rule.burstSize)
    (start : Time) : Guarantees rule (memoryInit start) := fun _ =>
  ⟨⟨settled_nil hrate start, fun _ _ => rfl⟩, bounded_nil hrate hburst⟩

theorem Explains.cleanup_store (hrate : 0 ≤ rule.requestsPerSecond)
    (hfill : (rule.burstSize : ℚ) ≤ 3600 * rule.requestsPerSecond) {clientId : String}
    {s : State (String → Option ClientBucket)}
    (h : Explains rule now admitted (s.store clientId)) :
    Explains rule now admitted ((Limiter.cleanup memoryBackend now s).store clientId) := by
  unfold Limiter.cleanup
  split
  · exact h.cleanup hrate hfill
  · exact h

theorem guarantees_step {rules : Rules} {s s' : System (String → Option ClientBucket)} {call : Call}
    (hrate : 0 < rule.requestsPerSecond) (hburst : 0 ≤ rule.burstSize)
    (hfill : (rule.burstSize : ℚ) ≤ 3600 * rule.requestsPerSecond)
    (hs : Guarantees rule s) (hrule : rules.getRuleForClient call.clientType = rule)
    (hcost : call.requestCost = 1) (h : step rules memoryBackend s call = some s') :
    Guarantees rule s' := by
  obtain ⟨hclock, rfl⟩ := step_cases h
  intro clientId
  obtain ⟨hexplains, hbounded⟩ := hs clientId
  have hcleaned := (hexplains.mono hrate.le hclock).cleanup_store (s := s.state) hrate.le hfill
  by_cases hclient : clientId = call.clientId
  · subst hclient
    have hdecide := (hcleaned.ready hrate.le hburst).decide hrate hbounded
    rw [← hcost, ← checkLimit_memory hrule] at hdecide
    rw [memory_store_self]
    simpa only [recordAdmitted, true_and] using hdecide
  · rw [memory_store_of_ne s.state hclient]
    simpa only [recordAdmitted, hclient, false_and, if_false] using And.intro hcleaned hbounded

/-- In every state that a run of calls of cost 1 under one rule reaches, the bucket of a client
holds no less than nothing and no more than its size, the requests admitted in any interval are
paid for by the bucket and its refill, and the two windows keep their limits. -/
theorem bounds_of_run {rules : Rules} {start : Time} {calls : List Call}
    {s : System (String → Option ClientBucket)}
    (hrule : ∀ call ∈ calls, rules.getRuleForClient call.clientType = rule)
    (hrate : 0 < rule.requestsPerSecond) (hburst : 0 ≤ rule.burstSize)
    (hfill : (rule.burstSize : ℚ) ≤ 3600 * rule.requestsPerSecond)
    (hcost : ∀ call ∈ calls, call.requestCost = 1)
    (hr : run (step rules memoryBackend) (memoryInit start) calls = some s) (clientId : String) :
    (∀ bucket, s.state.store clientId = some bucket →
        0 ≤ bucket.tokens ∧ bucket.tokens ≤ rule.burstSize) ∧
      Limited rule.requestsPerSecond rule.burstSize (s.admitted clientId) ∧
      Sparse 60 ⌈rule.requestsPerMinute⌉₊ (s.admitted clientId) ∧
      Sparse 3600 ⌈rule.requestsPerHour⌉₊ (s.admitted clientId) := by
  have hguarded : Guarded (step rules memoryBackend)
      (fun _ call => rules.getRuleForClient call.clientType = rule ∧ call.requestCost = 1)
      (memoryInit start) calls :=
    guarded_of_mem (fun _ call hcall => ⟨hrule call hcall, hcost call hcall⟩) _
  have hs : Guarantees rule s := by
    refine run_invariant ?_ (guarantees_init hrate.le hburst start) hguarded hr
    intro s call s' hs hcall h
    exact guarantees_step hrate hburst hfill hs hcall.1 hcall.2 h
  obtain ⟨hexplains, hbounded⟩ := hs clientId
  refine ⟨fun bucket hbucket => ?_, hbounded.limited, hbounded.minute, hbounded.hour⟩
  rw [hbucket] at hexplains
  exact ⟨hexplains.1.nonneg, hexplains.1.le_burst⟩

def smallRule : RateLimitRule where
  requestsPerSecond := 1
  requestsPerMinute := 5 / 2
  requestsPerHour := 10
  burstSize := 2

/-- Two requests empty the bucket, a third finds it empty, the next the refill, and the last the
window of a minute full. -/
theorem bounds_of_smallRun :
    ∃ s, run (step { defaultRule := smallRule } memoryBackend) (memoryInit 0)
        [⟨"a", "default", 1, 0⟩, ⟨"a", "default", 1, 0⟩, ⟨"a", "default", 1, 0⟩,
          ⟨"a", "default", 1, 1⟩, ⟨"a", "default", 1, 9⟩] = some s ∧
      s.admitted "a" = [0, 0, 1] ∧ Limited 1 2 (s.admitted "a") ∧ Sparse 60 3 (s.admitted "a") := by
  obtain ⟨s, hr, hadmitted⟩ : ∃ s, run (step { defaultRule := smallRule } memoryBackend)
      (memoryInit 0) [⟨"a", "default", 1, 0⟩, ⟨"a", "default", 1, 0⟩, ⟨"a", "default", 1, 0⟩,
        ⟨"a", "default", 1, 1⟩, ⟨"a", "default", 1, 9⟩] = some s ∧ s.admitted "a" = [0, 0, 1] :=
    ⟨_, rfl, by decide +kernel⟩
  have hrule : ∀ t, Rules.getRuleForClient { defaultRule := smallRule } t = smallRule :=
    fun _ => rfl
  have hbounds := bounds_of_run (fun call _ => hrule call.clientType) (by decide +kernel)
    (by decide) (by decide +kernel) (by simp) hr "a"
  refine ⟨s, hr, hadmitted, by simpa [smallRule] using hbounds.2.1, ?_⟩
  have hceil : ⌈smallRule.requestsPerMinute⌉₊ = 3 := by
    rw [Nat.ceil_eq_iff (by decide)]
    norm_num [smallRule]
  simpa only [hceil] using hbounds.2.2.1

def negativeRule : RateLimitRule where
  requestsPerSecond := 1
  requestsPerMinute := -1
  requestsPerHour := 10
  burstSize := -1

/-- A rule may have negative limits; a client that was refused everything then exceeds them. -/
theorem negative_limits_exceeded :
    0 < negativeRule.requestsPerSecond ∧
      (negativeRule.burstSize : ℚ) ≤ 3600 * negativeRule.requestsPerSecond ∧
      ∃ s bucket, run (step { defaultRule := negativeRule } memoryBackend) (memoryInit 0)
          [⟨"a", "default", 1, 0⟩] = some s ∧
        s.state.store "a" = some bucket ∧ ¬ 0 ≤ bucket.tokens ∧
        ¬ (within 0 0 (s.admitted "a") : ℚ) ≤
          negativeRule.burstSize + negativeRule.requestsPerSecond * (0 - 0) ∧
        ¬ (within (0 - 60) 0 (s.admitted "a") : Int) ≤ ⌈negativeRule.requestsPerMinute⌉ := by
  refine ⟨by decide +kernel, by decide +kernel, _, _, rfl, rfl, ?_, ?_, ?_⟩
  · decide +kernel
  · decide +kernel
  · decide +kernel

end Marty.RateLimit.Guarantee
