import Mathlib.Algebra.Order.Ring.Rat
import Mathlib.Logic.Function.Basic
import Mathlib.Tactic.Linarith
import Marty.Lib.Run

/-! `RateLimiter.check_limit` and its two backends.  Times and rates are exact rationals. -/

universe u

namespace Marty.RateLimit.Limiter

/-- Seconds, as `time.time()` counts them. -/
abbrev Time := ℚ

structure RateLimitRule where
  requestsPerSecond : ℚ
  requestsPerMinute : ℚ
  requestsPerHour : ℚ
  burstSize : Int := 10
  clientType : String := "default"
  priority : Int := 0

inductive AppliedRule
  | burstLimit | windowLimit
  deriving DecidableEq

structure RateLimitStatus where
  allowed : Bool
  remainingRequests : Int
  resetTime : Time
  retryAfter : Option Time := none
  ruleApplied : Option AppliedRule := none
  deriving DecidableEq

structure ClientBucket where
  tokens : ℚ
  lastRefill : Time
  requestsInWindow : List Time := []
  totalRequests : ℕ := 0
  deriving DecidableEq

/-- What a backend stores, and how.  The time is the clock of the store. -/
structure Backend (σ : Type u) where
  getClientData : σ → String → Time → Option ClientBucket
  setClientData : σ → String → ClientBucket → Time → σ
  cleanupExpired : σ → Time → σ

/-- `MemoryRateLimitBackend`. -/
def memoryBackend : Backend (String → Option ClientBucket) where
  getClientData clients clientId _ := clients clientId
  setClientData clients clientId bucket _ := Function.update clients clientId (some bucket)
  cleanupExpired clients beforeTimestamp := fun clientId =>
    (clients clientId).filter fun bucket => ¬ bucket.lastRefill < beforeTimestamp

/-- The fields of a bucket that Redis keeps, with the end of their TTL. -/
structure RedisHash where
  tokens : ℚ
  lastRefill : Time
  totalRequests : ℕ
  expiresAt : Time

def hashOf (bucket : ClientBucket) (now : Time) : RedisHash :=
  ⟨bucket.tokens, bucket.lastRefill, bucket.totalRequests, now + 3600⟩

/-- The bucket read from a hash that has not expired; its window starts empty. -/
def bucketOf (hash : Option RedisHash) (now : Time) : Option ClientBucket :=
  (hash.filter fun h => now < h.expiresAt).map fun h =>
    { tokens := h.tokens, lastRefill := h.lastRefill, totalRequests := h.totalRequests }

theorem bucketOf_of_lt {hash : RedisHash} {now : Time} (h : now < hash.expiresAt) :
    bucketOf (some hash) now = some ⟨hash.tokens, hash.lastRefill, [], hash.totalRequests⟩ := by
  simp [bucketOf, h]

theorem bucketOf_of_expired {hash : RedisHash} {now : Time} (h : hash.expiresAt ≤ now) :
    bucketOf (some hash) now = none := by
  simpa [bucketOf] using h

def keyOf (clientId : String) : String := "marty:ratelimit:" ++ clientId

/-- `RedisRateLimitBackend`; the TTL does the cleanup. -/
def redisBackend : Backend (String → Option RedisHash) where
  getClientData hashes clientId now := bucketOf (hashes (keyOf clientId)) now
  setClientData hashes clientId bucket now :=
    Function.update hashes (keyOf clientId) (some (hashOf bucket now))
  cleanupExpired hashes _ := hashes

/-- The rules of a `RateLimiter`, in the order in which they were added. -/
structure Rules where
  rules : List (String × RateLimitRule) := []
  defaultRule : RateLimitRule :=
    { requestsPerSecond := 10, requestsPerMinute := 600, requestsPerHour := 3600, burstSize := 20 }

/-- Of equal priorities the first rule stays. -/
def highestPriority : RateLimitRule → List RateLimitRule → RateLimitRule
  | best, [] => best
  | best, rule :: rules =>
    highestPriority (if best.priority < rule.priority then rule else best) rules

def Rules.getRuleForClient (r : Rules) (clientType : String) : RateLimitRule :=
  match (r.rules.map (·.2)).filter fun rule =>
      rule.clientType = clientType ∨ rule.clientType = "default" with
  | [] => r.defaultRule
  | rule :: matching => highestPriority rule matching

section decide

variable (rule : RateLimitRule) (now : Time)

def refillBucket (bucket : ClientBucket) : ClientBucket :=
  let timePassed := now - bucket.lastRefill
  if timePassed ≤ 0 then bucket
  else
    let tokensToAdd := timePassed * rule.requestsPerSecond
    { bucket with
      tokens := min rule.burstSize (bucket.tokens + tokensToAdd)
      lastRefill := now }

/-- The time to retry after when a window is full, and the bucket with its window trimmed. -/
def checkWindowLimits (bucket : ClientBucket) : Option Time × ClientBucket :=
  let minuteAgo := now - 60
  let hourAgo := now - 3600
  let window := bucket.requestsInWindow.dropWhile (· < hourAgo)
  let bucket := { bucket with requestsInWindow := window }
  let requestsLastMinute := window.countP (minuteAgo ≤ ·)
  let requestsLastHour := window.length
  if rule.requestsPerMinute ≤ requestsLastMinute then (some (minuteAgo + 60), bucket)
  else if rule.requestsPerHour ≤ requestsLastHour then
    (some (window.headD now + 3600), bucket)
  else (none, bucket)

/-- `a / b`; `none` where it raises. -/
def divide (a b : ℚ) : Option ℚ := if b = 0 then none else some (a / b)

/-- `int(q)`. -/
def truncate (q : ℚ) : Int := q.num.tdiv q.den

/-- The bucket that a call stores and the status it returns; there is none when a rate of zero
makes it raise, which is after the bucket is stored. -/
structure Decision where
  bucket : ClientBucket
  status : Option RateLimitStatus

def newBucket : ClientBucket := { tokens := rule.burstSize, lastRefill := now }

/-- `check_limit` from the check of the tokens on. -/
def decideBucket (bucket : ClientBucket) (requestCost : Int) : Decision :=
  if bucket.tokens < requestCost then
    ⟨bucket, (divide (requestCost - bucket.tokens) rule.requestsPerSecond).map fun wait =>
      { allowed := false
        remainingRequests := truncate bucket.tokens
        resetTime := now + wait
        retryAfter := some wait
        ruleApplied := some .burstLimit }⟩
  else
    match checkWindowLimits rule now bucket with
    | (some retryAfterTime, bucket) =>
      ⟨bucket, some
        { allowed := false
          remainingRequests := 0
          resetTime := retryAfterTime
          retryAfter := if retryAfterTime = 0 then none else some (retryAfterTime - now)
          ruleApplied := some .windowLimit }⟩
    | (none, bucket) =>
      let bucket :=
        { bucket with
          tokens := bucket.tokens - requestCost
          requestsInWindow := bucket.requestsInWindow ++ [now]
          totalRequests := bucket.totalRequests + 1 }
      ⟨bucket, (divide (rule.burstSize - bucket.tokens) rule.requestsPerSecond).map fun wait =>
        { allowed := true
          remainingRequests := truncate bucket.tokens
          resetTime := now + wait }⟩

/-- The bucket that a call decides on. -/
def loadBucket (found : Option ClientBucket) : ClientBucket :=
  refillBucket rule now (found.getD (newBucket rule now))

/-- The body of `check_limit` between the read and the write of the bucket. -/
def decideRequest (found : Option ClientBucket) (requestCost : Int) : Decision :=
  decideBucket rule now (loadBucket rule now found) requestCost

/-- The window without the requests of more than an hour ago. -/
def recent (window : List Time) : List Time := window.dropWhile (· < now - 3600)

/-- One of the two window limits is reached. -/
def Full (window : List Time) : Prop :=
  rule.requestsPerMinute ≤ (recent now window).countP (now - 60 ≤ ·) ∨
    rule.requestsPerHour ≤ (recent now window).length

variable {rule now}

theorem refillBucket_requestsInWindow (bucket : ClientBucket) :
    (refillBucket rule now bucket).requestsInWindow = bucket.requestsInWindow := by
  simp only [refillBucket]
  split <;> rfl

theorem refillBucket_lastRefill {bucket : ClientBucket} (h : bucket.lastRefill ≤ now) :
    (refillBucket rule now bucket).lastRefill = now := by
  simp only [refillBucket]
  split
  case isTrue hpassed => exact le_antisymm h (by linarith)
  case isFalse => rfl

theorem refillBucket_tokens {bucket : ClientBucket} (h : bucket.lastRefill ≤ now)
    (hle : bucket.tokens ≤ rule.burstSize) :
    (refillBucket rule now bucket).tokens =
      min (rule.burstSize : ℚ)
        (bucket.tokens + (now - bucket.lastRefill) * rule.requestsPerSecond) := by
  simp only [refillBucket]
  split
  case isTrue hpassed =>
    obtain rfl : bucket.lastRefill = now := le_antisymm h (by linarith)
    simpa using hle
  case isFalse => rfl

/-- A new bucket is full; there is nothing to refill. -/
theorem loadBucket_none : loadBucket rule now none = newBucket rule now := by
  simp [loadBucket, refillBucket, newBucket]

theorem checkWindowLimits_of_full {bucket : ClientBucket}
    (h : Full rule now bucket.requestsInWindow) :
    ∃ retryAfterTime, checkWindowLimits rule now bucket =
      (some retryAfterTime,
        { bucket with requestsInWindow := recent now bucket.requestsInWindow }) := by
  by_cases hminute : rule.requestsPerMinute ≤
      (recent now bucket.requestsInWindow).countP (now - 60 ≤ ·)
  · exact ⟨_, if_pos hminute⟩
  · exact ⟨_, (if_neg hminute).trans (if_pos (h.resolve_left hminute))⟩

theorem checkWindowLimits_of_not_full {bucket : ClientBucket}
    (h : ¬ Full rule now bucket.requestsInWindow) :
    checkWindowLimits rule now bucket =
      (none, { bucket with requestsInWindow := recent now bucket.requestsInWindow }) := by
  rw [Full, not_or] at h
  exact (if_neg h.1).trans (if_neg h.2)

end decide

/-- The flag that a call returns, unless it raises. -/
def Decision.flag (d : Decision) : Option Bool := d.status.map (·.allowed)

def Decision.allowed (d : Decision) : Bool := d.flag = some true

/-- The call is refused for the requests in its window. -/
def Decision.windowLimited (d : Decision) : Bool :=
  d.status.any fun status => status.ruleApplied = some .windowLimit

section outcomes

variable {rule : RateLimitRule} {now : Time} {bucket : ClientBucket} {requestCost : Int}

theorem decideBucket_of_lt (h : bucket.tokens < requestCost) :
    (decideBucket rule now bucket requestCost).bucket = bucket ∧
      (decideBucket rule now bucket requestCost).flag =
        (divide (requestCost - bucket.tokens) rule.requestsPerSecond).map (fun _ => false) ∧
      (decideBucket rule now bucket requestCost).windowLimited = false := by
  have hd : decideBucket rule now bucket requestCost = _ := if_pos h
  rw [hd]
  refine ⟨rfl, ?_, ?_⟩
  · rw [Decision.flag, Option.map_map]
    rfl
  · simp [Decision.windowLimited, Option.any_map]

theorem decideBucket_of_full (h : ¬ bucket.tokens < requestCost)
    (hfull : Full rule now bucket.requestsInWindow) :
    (decideBucket rule now bucket requestCost).bucket =
        { bucket with requestsInWindow := recent now bucket.requestsInWindow } ∧
      (decideBucket rule now bucket requestCost).flag = some false ∧
      (decideBucket rule now bucket requestCost).windowLimited = true := by
  obtain ⟨retryAfterTime, hcheck⟩ := checkWindowLimits_of_full hfull
  have hd : decideBucket rule now bucket requestCost = _ := if_neg h
  rw [hd, hcheck]
  exact ⟨rfl, rfl, rfl⟩

theorem decideBucket_of_room (h : ¬ bucket.tokens < requestCost)
    (hroom : ¬ Full rule now bucket.requestsInWindow) :
    (decideBucket rule now bucket requestCost).bucket =
        { bucket with
          tokens := bucket.tokens - requestCost
          requestsInWindow := recent now bucket.requestsInWindow ++ [now]
          totalRequests := bucket.totalRequests + 1 } ∧
      (decideBucket rule now bucket requestCost).flag =
        (divide (rule.burstSize - (bucket.tokens - requestCost))
          rule.requestsPerSecond).map (fun _ => true) ∧
      (decideBucket rule now bucket requestCost).windowLimited = false := by
  have hd : decideBucket rule now bucket requestCost = _ := if_neg h
  rw [hd, checkWindowLimits_of_not_full hroom]
  refine ⟨rfl, ?_, ?_⟩
  · rw [Decision.flag, Option.map_map]
    rfl
  · simp [Decision.windowLimited, Option.any_map]

/-- The time of the last refill is left to `refillBucket`. -/
theorem decideBucket_lastRefill (rule : RateLimitRule) (now : Time) (bucket : ClientBucket)
    (requestCost : Int) :
    (decideBucket rule now bucket requestCost).bucket.lastRefill = bucket.lastRefill := by
  by_cases htokens : bucket.tokens < requestCost
  · rw [(decideBucket_of_lt htokens).1]
  · by_cases hfull : Full rule now bucket.requestsInWindow
    · rw [(decideBucket_of_full htokens hfull).1]
    · rw [(decideBucket_of_room htokens hfull).1]

end outcomes

structure Call where
  clientId : String
  clientType : String := "default"
  requestCost : Int := 1
  now : Time

/-- What a limiter and its backend remember. -/
structure State (σ : Type u) where
  store : σ
  lastCleanup : Time

variable {σ : Type u} (rules : Rules) (backend : Backend σ)

def cleanup (now : Time) (s : State σ) : State σ :=
  if now - s.lastCleanup > 300 then ⟨backend.cleanupExpired s.store (now - 3600), now⟩ else s

/-- `check_limit`, with the clock of the call for the limiter and the store. -/
def checkLimit (call : Call) (s : State σ) : Decision × State σ :=
  let s := cleanup backend call.now s
  let rule := rules.getRuleForClient call.clientType
  let bucket := backend.getClientData s.store call.clientId call.now
  let decision := decideRequest rule call.now bucket call.requestCost
  (decision, { s with
    store := backend.setClientData s.store call.clientId decision.bucket call.now })

section backends

variable {rules : Rules} {rule : RateLimitRule} {call : Call}

theorem checkLimit_memory (hrule : rules.getRuleForClient call.clientType = rule)
    (s : State (String → Option ClientBucket)) :
    (checkLimit rules memoryBackend call s).1 = decideBucket rule call.now
      (loadBucket rule call.now ((cleanup memoryBackend call.now s).store call.clientId))
      call.requestCost := by
  rw [checkLimit, hrule]
  rfl

theorem memory_store_self (s : State (String → Option ClientBucket)) :
    (checkLimit rules memoryBackend call s).2.store call.clientId =
      some (checkLimit rules memoryBackend call s).1.bucket := by
  simp [checkLimit, memoryBackend]

/-- A call leaves the other clients to the cleanup. -/
theorem memory_store_of_ne {clientId : String} (s : State (String → Option ClientBucket))
    (h : clientId ≠ call.clientId) :
    (checkLimit rules memoryBackend call s).2.store clientId =
      (cleanup memoryBackend call.now s).store clientId := by
  simp [checkLimit, memoryBackend, h]

theorem redis_cleanup_store (now : Time) (s : State (String → Option RedisHash)) :
    (cleanup redisBackend now s).store = s.store := by
  unfold cleanup
  split <;> rfl

theorem checkLimit_redis (hrule : rules.getRuleForClient call.clientType = rule)
    (s : State (String → Option RedisHash)) :
    (checkLimit rules redisBackend call s).1 = decideBucket rule call.now
      (loadBucket rule call.now (bucketOf (s.store (keyOf call.clientId)) call.now))
      call.requestCost := by
  simp only [checkLimit, hrule, redis_cleanup_store]
  rfl

theorem redis_store_self (s : State (String → Option RedisHash)) :
    (checkLimit rules redisBackend call s).2.store (keyOf call.clientId) =
      some (hashOf (checkLimit rules redisBackend call s).1.bucket call.now) := by
  simp [checkLimit, redisBackend]

theorem redis_store_of_ne {clientId : String} (s : State (String → Option RedisHash))
    (h : clientId ≠ call.clientId) :
    (checkLimit rules redisBackend call s).2.store (keyOf clientId) = s.store (keyOf clientId) := by
  have hkey : keyOf clientId ≠ keyOf call.clientId :=
    fun hkey => h ((String.append_right_inj _).mp hkey)
  simp only [checkLimit, redisBackend, Function.update_of_ne hkey]
  exact congrFun (redis_cleanup_store call.now s) _

end backends

/-- A limiter in use.  `admitted` holds the times of the requests a client got through. -/
structure System (σ : Type u) where
  state : State σ
  clock : Time
  admitted : String → List Time := fun _ => []

/-- The requests admitted after a call. -/
def recordAdmitted (admitted : String → List Time) (call : Call) (decision : Decision) :
    String → List Time := fun clientId =>
  if clientId = call.clientId ∧ decision.allowed then admitted clientId ++ [call.now]
  else admitted clientId

/-- One call at a time not before the last one. -/
def step (s : System σ) (call : Call) : Option (System σ) :=
  if call.now < s.clock then none
  else
    let result := checkLimit rules backend call s.state
    some ⟨result.2, call.now, recordAdmitted s.admitted call result.1⟩

theorem step_cases {rules : Rules} {backend : Backend σ} {s s' : System σ} {call : Call}
    (h : step rules backend s call = some s') :
    s.clock ≤ call.now ∧ s' =
      ⟨(checkLimit rules backend call s.state).2, call.now,
        recordAdmitted s.admitted call (checkLimit rules backend call s.state).1⟩ := by
  unfold step at h
  split at h
  case isTrue => cases h
  case isFalse hclock => exact ⟨not_lt.mp hclock, (Option.some.inj h).symm⟩

def memoryInit (start : Time) : System (String → Option ClientBucket) where
  state := ⟨fun _ => none, start⟩
  clock := start

end Marty.RateLimit.Limiter
