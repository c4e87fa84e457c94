import Marty.RateLimit.Limiter

/-! The two backends under the same calls.  Redis keeps no window of requests, so the limiters
part at the first call that the window refuses. -/

universe u

namespace Marty.RateLimit.Backends

open Limiter

/-- The decisions of calls made one after another. -/
def decisions {σ : Type u} (rules : Rules) (backend : Backend σ) :
    State σ → List Call → List Decision
  | _, [] => []
  | s, call :: calls =>
    let result := checkLimit rules backend call s
    result.1 :: decisions rules backend result.2 calls

variable (rule : RateLimitRule)

/-- A rule that no window meets, not even an empty one. -/
def Closed : Prop := rule.requestsPerMinute ≤ 0 ∨ rule.requestsPerHour ≤ 0

instance : Decidable (Closed rule) := inferInstanceAs (Decidable (_ ∨ _))

/-- What the two backends hold of one client. -/
inductive Matches (clock : Time) : Option ClientBucket → Option RedisHash → Prop
  | unknown : Matches clock none none
  | deleted {hash : RedisHash} (expired : hash.expiresAt ≤ clock) : Matches clock none (some hash)
  | stored {bucket : ClientBucket} {hash : RedisHash} (tokens : hash.tokens = bucket.tokens)
      (lastRefill : hash.lastRefill = bucket.lastRefill)
      (expiresAt : hash.expiresAt = bucket.lastRefill + 3600) (past : bucket.lastRefill ≤ clock)
      (fills : (rule.burstSize : ℚ) ≤ bucket.tokens + 3600 * rule.requestsPerSecond) :
      Matches clock (some bucket) (some hash)

/-- The buckets that a call over memory and a call over Redis decide on. -/
structure Alike (now : Time) (bucket bucket' : ClientBucket) : Prop where
  tokens : bucket'.tokens = bucket.tokens
  lastRefill : bucket.lastRefill = now
  lastRefill' : bucket'.lastRefill = now
  window : bucket'.requestsInWindow = []
  fills : (rule.burstSize : ℚ) ≤ bucket.tokens + 3600 * rule.requestsPerSecond

variable {rule} {clock now : Time} {found : Option ClientBucket} {hash : Option RedisHash}
  {bucket bucket' : ClientBucket}

theorem Matches.mono (h : Matches rule clock found hash) (hle : clock ≤ now) :
    Matches rule now found hash := by
  cases h with
  | unknown => exact .unknown
  | deleted expired => exact .deleted (expired.trans hle)
  | stored tokens lastRefill expiresAt past fills =>
    exact .stored tokens lastRefill expiresAt (past.trans hle) fills

/-- What the cleanup deletes has expired in Redis. -/
theorem Matches.cleanup (h : Matches rule now found hash) :
    Matches rule now (found.filter fun bucket => ¬ bucket.lastRefill < now - 3600) hash := by
  cases h with
  | unknown => exact .unknown
  | deleted expired => exact .deleted expired
  | stored tokens lastRefill expiresAt past fills =>
    rw [Option.filter_some]
    split
    case isTrue => exact .stored tokens lastRefill expiresAt past fills
    case isFalse hold =>
      rw [decide_eq_true_eq, not_not] at hold
      exact .deleted (by linarith)

theorem refillBucket_tokens_congr (htokens : bucket'.tokens = bucket.tokens)
    (hlast : bucket'.lastRefill = bucket.lastRefill) :
    (refillBucket rule now bucket').tokens = (refillBucket rule now bucket).tokens := by
  simp only [refillBucket, htokens, hlast]
  split <;> simp only [htokens]

section rate

variable (hrate : 0 ≤ rule.requestsPerSecond)
  (hfill : (rule.burstSize : ℚ) ≤ 3600 * rule.requestsPerSecond)

include hrate in
theorem refillBucket_fills (hpast : bucket.lastRefill ≤ now)
    (hfills : (rule.burstSize : ℚ) ≤ bucket.tokens + 3600 * rule.requestsPerSecond) :
    (rule.burstSize : ℚ) ≤
      (refillBucket rule now bucket).tokens + 3600 * rule.requestsPerSecond := by
  simp only [refillBucket]
  split
  case isTrue => exact hfills
  case isFalse =>
    have hgain := mul_nonneg (sub_nonneg.mpr hpast) hrate
    rcases min_choice (rule.burstSize : ℚ)
      (bucket.tokens + (now - bucket.lastRefill) * rule.requestsPerSecond) with h | h <;>
    · rw [h]
      linarith

include hrate in
/-- An hour fills a bucket, as a new bucket in its place would be. -/
theorem refillBucket_full (hidle : bucket.lastRefill + 3600 ≤ now)
    (hfills : (rule.burstSize : ℚ) ≤ bucket.tokens + 3600 * rule.requestsPerSecond) :
    (refillBucket rule now bucket).tokens = rule.burstSize := by
  have hpassed : ¬ now - bucket.lastRefill ≤ 0 := by linarith
  have hgain := mul_le_mul_of_nonneg_right (by linarith : 3600 ≤ now - bucket.lastRefill) hrate
  simp only [refillBucket, hpassed, if_false]
  exact min_eq_left (by linarith)

include hrate in
theorem alike_new : Alike rule now (newBucket rule now) (newBucket rule now) := by
  refine ⟨rfl, rfl, rfl, rfl, ?_⟩
  simpa [newBucket] using mul_nonneg (by norm_num : (0 : ℚ) ≤ 3600) hrate

include hrate in
theorem Matches.alike (h : Matches rule now found hash) :
    Alike rule now (loadBucket rule now found) (loadBucket rule now (bucketOf hash now)) := by
  cases h with
  | unknown =>
    rw [bucketOf, Option.filter_none, Option.map_none, loadBucket_none]
    exact alike_new hrate
  | deleted expired =>
    rw [bucketOf_of_expired expired, loadBucket_none]
    exact alike_new hrate
  | @stored bucket hash tokens lastRefill expiresAt past fills =>
    have hfills := refillBucket_fills hrate past fills
    by_cases hlive : now < hash.expiresAt
    · rw [bucketOf_of_lt hlive]
      refine ⟨refillBucket_tokens_congr tokens lastRefill, refillBucket_lastRefill past,
        refillBucket_lastRefill (lastRefill.trans_le past), ?_, hfills⟩
      exact refillBucket_requestsInWindow _
    · have hidle : bucket.lastRefill + 3600 ≤ now := expiresAt ▸ not_lt.mp hlive
      rw [bucketOf_of_expired (not_lt.mp hlive), loadBucket_none]
      exact ⟨(refillBucket_full hrate hidle fills).symm, refillBucket_lastRefill past, rfl, rfl,
        hfills⟩

end rate

/-- An empty window is full under a closed rule only, and then every window is. -/
theorem full_nil : Full rule now [] ↔ Closed rule := by
  simp [Full, recent, Closed]

theorem Closed.full (h : Closed rule) (window : List Time) : Full rule now window :=
  h.imp (fun h => h.trans (Nat.cast_nonneg _)) (fun h => h.trans (Nat.cast_nonneg _))

theorem Alike.matches_hashOf (h : Alike rule now bucket bucket') :
    Matches rule now (some bucket) (some (hashOf bucket' now)) :=
  .stored h.tokens (h.lastRefill'.trans h.lastRefill.symm) (by rw [h.lastRefill]; rfl)
    h.lastRefill.le h.fills

theorem Alike.recent (h : Alike rule now bucket bucket') (window : List Time) :
    Alike rule now { bucket with requestsInWindow := window }
      { bucket' with requestsInWindow := recent now bucket'.requestsInWindow } :=
  ⟨h.tokens, h.lastRefill, h.lastRefill', by rw [h.window]; rfl, h.fills⟩

/-- The two decisions are the same and leave the backends alike, or the window refuses what Redis
does not. -/
theorem Alike.decide (hfill : (rule.burstSize : ℚ) ≤ 3600 * rule.requestsPerSecond)
    (h : Alike rule now bucket bucket') (requestCost : Int) :
    let decision := decideBucket rule now bucket requestCost
    let decision' := decideBucket rule now bucket' requestCost
    (decision'.flag = decision.flag ∧ (Closed rule ∨ decision.windowLimited = false) ∧
        Matches rule now (some decision.bucket) (some (hashOf decision'.bucket now))) ∨
      (decision'.flag ≠ decision.flag ∧ ¬ Closed rule ∧ decision.windowLimited = true) := by
  intro decision decision'
  by_cases htokens : bucket.tokens < requestCost
  · have htokens' : bucket'.tokens < requestCost := h.tokens ▸ htokens
    obtain ⟨hbucket, hflag, hlimited⟩ : decision.bucket = _ ∧ _ := decideBucket_of_lt htokens
    obtain ⟨hbucket', hflag', -⟩ : decision'.bucket = _ ∧ _ := decideBucket_of_lt htokens'
    refine .inl ⟨?_, .inr hlimited, ?_⟩
    · rw [hflag, hflag', h.tokens]
    · rw [hbucket, hbucket']
      exact h.matches_hashOf
  · have htokens' : ¬ bucket'.tokens < requestCost := h.tokens ▸ htokens
    by_cases hfull' : Full rule now bucket'.requestsInWindow
    · have hclosed : Closed rule := full_nil.mp (h.window ▸ hfull')
      obtain ⟨hbucket, hflag, -⟩ := decideBucket_of_full htokens (hclosed.full _)
      obtain ⟨hbucket', hflag', -⟩ := decideBucket_of_full htokens' hfull'
      refine .inl ⟨hflag'.trans hflag.symm, .inl hclosed, ?_⟩
      rw [hbucket, hbucket']
      exact (h.recent _).matches_hashOf
    · have hopen : ¬ Closed rule := fun hclosed => hfull' (hclosed.full _)
      obtain ⟨hbucket', hflag', -⟩ := decideBucket_of_room htokens' hfull'
      by_cases hfull : Full rule now bucket.requestsInWindow
      · obtain ⟨-, hflag, hlimited⟩ := decideBucket_of_full htokens hfull
        refine .inr ⟨?_, hopen, hlimited⟩
        rw [hflag, hflag']
        cases divide _ _ <;> simp
      · obtain ⟨hbucket, hflag, hlimited⟩ := decideBucket_of_room htokens hfull
        refine .inl ⟨?_, .inr hlimited, ?_⟩
        · rw [hflag, hflag', h.tokens]
        · rw [hbucket, hbucket']
          refine .stored ?_ ?_ ?_ h.lastRefill.le ?_
          · exact congrArg (· - (requestCost : ℚ)) h.tokens
          · exact h.lastRefill'.trans h.lastRefill.symm
          · rw [h.lastRefill]
            rfl
          · have hpaid : 0 ≤ bucket.tokens - requestCost := sub_nonneg.mpr (not_lt.mp htokens)
            exact le_add_of_nonneg_of_le hpaid hfill

/-- Two limiters after the same calls. -/
def Related (rule : RateLimitRule) (clock : Time) (memory : State (String → Option ClientBucket))
    (redis : State (String → Option RedisHash)) : Prop :=
  ∀ clientId, Matches rule clock (memory.store clientId) (redis.store (keyOf clientId))

theorem Matches.cleanup_store (memory : State (String → Option ClientBucket)) {clientId : String}
    (h : Matches rule now (memory.store clientId) hash) :
    Matches rule now ((Limiter.cleanup memoryBackend now memory).store clientId) hash := by
  unfold Limiter.cleanup
  split
  · exact h.cleanup
  · exact h

theorem Related.checkLimit {rules : Rules} {call : Call}
    {memory : State (String → Option ClientBucket)} {redis : State (String → Option RedisHash)}
    (hrate : 0 ≤ rule.requestsPerSecond)
    (hfill : (rule.burstSize : ℚ) ≤ 3600 * rule.requestsPerSecond)
    (hrule : rules.getRuleForClient call.clientType = rule) (hclock : clock ≤ call.now)
    (h : Related rule clock memory redis) :
    let result := Limiter.checkLimit rules memoryBackend call memory
    let result' := Limiter.checkLimit rules redisBackend call redis
    (result'.1.flag = result.1.flag ∧ (Closed rule ∨ result.1.windowLimited = false) ∧
        Related rule call.now result.2 result'.2) ∨
      (result'.1.flag ≠ result.1.flag ∧ ¬ Closed rule ∧ result.1.windowLimited = true) := by
  intro result result'
  have hcleaned := fun clientId => ((h clientId).mono hclock).cleanup_store memory
  have hdecide := ((hcleaned call.clientId).alike hrate).decide hfill call.requestCost
  rw [← checkLimit_memory hrule, ← checkLimit_redis hrule] at hdecide
  refine hdecide.imp (fun ⟨hflag, hlimited, hmatches⟩ => ⟨hflag, hlimited, ?_⟩) id
  intro clientId
  by_cases hclient : clientId = call.clientId
  · subst hclient
    rw [memory_store_self, redis_store_self]
    exact hmatches
  · rw [memory_store_of_ne memory hclient, redis_store_of_ne redis hclient]
    exact hcleaned clientId

theorem Related.decisions {rules : Rules} {calls : List Call}
    {memory : State (String → Option ClientBucket)} {redis : State (String → Option RedisHash)}
    (hrate : 0 ≤ rule.requestsPerSecond)
    (hfill : (rule.burstSize : ℚ) ≤ 3600 * rule.requestsPerSecond)
    (hrule : ∀ call ∈ calls, rules.getRuleForClient call.clientType = rule)
    (htimes : List.IsChain (· ≤ ·) (clock :: calls.map (·.now)))
    (h : Related rule clock memory redis) :
    (decisions rules redisBackend redis calls).map (·.flag) =
        (decisions rules memoryBackend memory calls).map (·.flag) ↔
      Closed rule ∨
        ∀ decision ∈ decisions rules memoryBackend memory calls,
          decision.windowLimited = false := by
  induction calls generalizing clock memory redis with
  | nil => simp [Backends.decisions]
  | cons call calls ih =>
    rw [List.map_cons, List.isChain_cons_cons] at htimes
    have hcall := hrule call List.mem_cons_self
    have hcalls := fun c hc => hrule c (List.mem_cons_of_mem _ hc)
    simp only [Backends.decisions, List.map_cons, List.cons.injEq, List.forall_mem_cons]
    rcases h.checkLimit hrate hfill hcall htimes.1 with
      ⟨hflag, hlimited, hrelated⟩ | ⟨hflag, hopen, hlimited⟩
    · rw [ih hcalls htimes.2 hrelated]
      tauto
    · simp [hflag, hopen, hlimited]

/-- Under one rule, the limiter over Redis returns the flags of the one over memory exactly when no
window refuses a call, or every window does. -/
theorem flags_agree_iff {rules : Rules} {start : Time} {calls : List Call}
    (hrate : 0 ≤ rule.requestsPerSecond)
    (hfill : (rule.burstSize : ℚ) ≤ 3600 * rule.requestsPerSecond)
    (hrule : ∀ call ∈ calls, rules.getRuleForClient call.clientType = rule)
    (htimes : List.IsChain (· ≤ ·) (start :: calls.map (·.now))) :
    (decisions rules redisBackend ⟨fun _ => none, start⟩ calls).map (·.flag) =
        (decisions rules memoryBackend ⟨fun _ => none, start⟩ calls).map (·.flag) ↔
      rule.requestsPerMinute ≤ 0 ∨ rule.requestsPerHour ≤ 0 ∨
        ∀ decision ∈ decisions rules memoryBackend ⟨fun _ => none, start⟩ calls,
          decision.windowLimited = false := by
  have hinit : Related rule start ⟨fun _ => none, start⟩ ⟨fun _ => none, start⟩ :=
    fun _ => .unknown
  rw [hinit.decisions hrate hfill hrule htimes, Closed, or_assoc]

/-- A client that comes back after its hash has expired finds its bucket full over both. -/
theorem flags_agree_after_expiry :
    (decisions {} redisBackend ⟨fun _ => none, 0⟩
        [⟨"a", "default", 20, 0⟩, ⟨"a", "default", 20, 3600⟩]).map (·.flag) =
      (decisions {} memoryBackend ⟨fun _ => none, 0⟩
        [⟨"a", "default", 20, 0⟩, ⟨"a", "default", 20, 3600⟩]).map (·.flag) := by
  refine (flags_agree_iff ?_ ?_ (fun _ _ => rfl) ?_).mpr (.inr (.inr ?_))
  · decide +kernel
  · decide +kernel
  · simp
  · decide +kernel

def minuteRule : RateLimitRule where
  requestsPerSecond := 10
  requestsPerMinute := 1
  requestsPerHour := 3600
  burstSize := 2

/-- A rate that takes tokens away; the cleanup and the TTL no longer put back what they found. -/
def drainRule : RateLimitRule where
  requestsPerSecond := -1
  requestsPerMinute := 100
  requestsPerHour := 100
  burstSize := -3600

/-- The second request of a minute is refused over memory and allowed over Redis.  Under a negative
rate the limiters part without the window. -/
theorem flags_differ :
    ((minuteRule.burstSize : ℚ) ≤ 3600 * minuteRule.requestsPerSecond ∧
      (decisions { defaultRule := minuteRule } memoryBackend ⟨fun _ => none, 0⟩
          [⟨"a", "default", 1, 0⟩, ⟨"a", "default", 1, 0⟩]).map (·.flag) = [some true, some false] ∧
      (decisions { defaultRule := minuteRule } redisBackend ⟨fun _ => none, 0⟩
          [⟨"a", "default", 1, 0⟩, ⟨"a", "default", 1, 0⟩]).map (·.flag) = [some true, some true]) ∧
    ((drainRule.burstSize : ℚ) ≤ 3600 * drainRule.requestsPerSecond ∧
      (decisions { defaultRule := drainRule } memoryBackend ⟨fun _ => none, 0⟩
          [⟨"a", "default", -3600, 0⟩, ⟨"b", "default", 1, 3400⟩,
            ⟨"a", "default", -3600, 3650⟩]).map (·.flag) = [some true, some false, some false] ∧
      (decisions { defaultRule := drainRule } redisBackend ⟨fun _ => none, 0⟩
          [⟨"a", "default", -3600, 0⟩, ⟨"b", "default", 1, 3400⟩,
            ⟨"a", "default", -3600, 3650⟩]).map (·.flag) = [some true, some false, some true]) := by
  refine ⟨⟨?_, ?_, ?_⟩, ?_, ?_, ?_⟩ <;> decide +kernel

end Marty.RateLimit.Backends
