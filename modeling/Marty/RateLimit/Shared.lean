import Marty.Lib.Pool
import Marty.RateLimit.Guarantee

/-! Limiters of many processes over one Redis.  The calls for one client interleave at the read of
the clock, at `get_client_data` and at `set_client_data`. -/

namespace Marty.RateLimit.Shared

open Lib Lib.Run Lib.Pool Lib.Events Lib.TokenBucket Limiter Guarantee

/-- The next step of a call, with what it holds. -/
inductive Phase
  | getClientData (now : Time)
  | setClientData (now : Time) (decision : Decision)
  | done (status : Option RateLimitStatus)

def Phase.isDone : Phase → Bool
  | .done _ => true
  | _ => false

/-- The hash of the client, and the calls for it.  A request is admitted at the time its call has
read. -/
structure System where
  clock : Time
  hash : Option RedisHash := none
  calls : List Phase := []
  admitted : List Time := []

inductive Label
  | readClock
  | getClientData (i : Nat)
  | setClientData (i : Nat)
  | advance (now : Time)

variable (rule : RateLimitRule)

def afterDecision (admitted : List Time) (now : Time) (decision : Decision) : List Time :=
  if decision.allowed then admitted ++ [now] else admitted

def step (s : System) : Label → Option System
  | .readClock => some { s with calls := s.calls ++ [.getClientData s.clock] }
  | .getClientData i => do
    let .getClientData now ← s.calls[i]? | none
    let decision := decideRequest rule now (bucketOf s.hash s.clock) 1
    some { s with calls := s.calls.set i (.setClientData now decision) }
  | .setClientData i => do
    let .setClientData now decision ← s.calls[i]? | none
    some { s with
      hash := some (hashOf decision.bucket s.clock)
      calls := s.calls.set i (.done decision.status)
      admitted := afterDecision s.admitted now decision }
  | .advance now => if now < s.clock then none else some { s with clock := now }

/-- A hash that is gone by the clock held a bucket that would be full again at `now`. -/
def Refilled (clock now : Time) (hash : Option RedisHash) : Prop :=
  ∀ h ∈ hash, h.expiresAt ≤ clock →
    (rule.burstSize : ℚ) ≤ h.tokens + (now - h.lastRefill) * rule.requestsPerSecond

/-- What a call is about to read is not gone too early. -/
def Finds (s : System) : Phase → Prop
  | .getClientData now => Refilled rule s.clock now s.hash
  | _ => True

/-- No call starts before the last one has written its bucket, and none finds a bucket gone that
it would not have found full. -/
def Orderly (s : System) : Label → Prop
  | .readClock => ∀ call ∈ s.calls, call.isDone = true
  | .getClientData i => ∀ call ∈ s.calls[i]?, Finds rule s call
  | .setClientData _ | .advance _ => True

instance (s : System) : ∀ call, Decidable (Finds rule s call)
  | .getClientData _ => inferInstanceAs (Decidable (∀ h ∈ s.hash, _ → _))
  | .setClientData _ _ | .done _ => .isTrue trivial

instance (s : System) : ∀ l, Decidable (Orderly rule s l)
  | .readClock => inferInstanceAs (Decidable (∀ call ∈ s.calls, call.isDone = true))
  | .getClientData i => inferInstanceAs (Decidable (∀ call ∈ s.calls[i]?, Finds rule s call))
  | .setClientData _ | .advance _ => .isTrue trivial

/-- What Redis holds of the client covers the requests admitted. -/
def Covers (clock : Time) (admitted : List Time) : Option RedisHash → Prop
  | none => Settled rule.requestsPerSecond clock admitted
  | some hash =>
    Accounts rule.requestsPerSecond rule.burstSize hash.tokens hash.lastRefill admitted ∧
      hash.lastRefill ≤ clock

/-- What a call in progress has seen still stands. -/
def Pending (s : System) : Phase → Prop
  | .getClientData now => now ≤ s.clock ∧ Covers rule now s.admitted s.hash
  | .setClientData now decision =>
    now ≤ s.clock ∧ decision.bucket.lastRefill = now ∧
      Accounts rule.requestsPerSecond rule.burstSize decision.bucket.tokens now
        (afterDecision s.admitted now decision) ∧
      Limited rule.requestsPerSecond rule.burstSize (afterDecision s.admitted now decision)
  | .done _ => True

structure Sound (s : System) : Prop where
  limited : Limited rule.requestsPerSecond rule.burstSize s.admitted
  covers : Covers rule s.clock s.admitted s.hash
  pending : ∀ {i : Nat} {call}, s.calls[i]? = some call → Pending rule s call
  single : ∀ {i j : Nat} {call call'}, s.calls[i]? = some call → s.calls[j]? = some call' →
    call.isDone = false → call'.isDone = false → i = j

variable {rule} {s s' : System} {clock now : Time} {admitted : List Time} {hash : Option RedisHash}

theorem Covers.mono (hrate : 0 ≤ rule.requestsPerSecond) (h : Covers rule clock admitted hash)
    (hle : clock ≤ now) : Covers rule now admitted hash := by
  cases hash with
  | none => exact Settled.mono hrate h hle
  | some hash => exact ⟨h.1, h.2.trans hle⟩

/-- The bucket that a call decides on has paid for what was admitted. -/
theorem Covers.load (hrate : 0 ≤ rule.requestsPerSecond) (hburst : 0 ≤ rule.burstSize)
    (h : Covers rule now admitted hash) (hrefilled : Refilled rule clock now hash) :
    let bucket := loadBucket rule now (bucketOf hash clock)
    bucket.lastRefill = now ∧
      Accounts rule.requestsPerSecond rule.burstSize bucket.tokens now admitted := by
  have hburst : (0 : ℚ) ≤ rule.burstSize := by exact_mod_cast hburst
  cases hash with
  | none =>
    rw [bucketOf, Option.filter_none, Option.map_none, loadBucket_none]
    exact ⟨rfl, Settled.accounts hburst h⟩
  | some hash =>
    obtain ⟨haccounts, hpast⟩ := h
    by_cases hlive : clock < hash.expiresAt
    · rw [bucketOf_of_lt hlive]
      refine ⟨refillBucket_lastRefill hpast, ?_⟩
      have htokens : (loadBucket rule now (some ⟨hash.tokens, hash.lastRefill, [],
          hash.totalRequests⟩)).tokens = _ := refillBucket_tokens hpast haccounts.le_burst
      rw [htokens]
      exact haccounts.refill hrate hpast
    · have hexpired := not_lt.mp hlive
      rw [bucketOf_of_expired hexpired, loadBucket_none]
      exact ⟨rfl, (haccounts.settled hrate hpast (hrefilled hash rfl hexpired)).accounts hburst⟩

theorem sound_init (hrate : 0 ≤ rule.requestsPerSecond) (hburst : 0 ≤ rule.burstSize)
    (start : Time) : Sound rule { clock := start } where
  limited := limited_nil hrate (by exact_mod_cast hburst)
  covers := settled_nil hrate start
  pending h := by simp at h
  single h := by simp at h

theorem Sound.readClock (hs : Sound rule s) (horderly : Orderly rule s .readClock) :
    Sound rule { s with calls := s.calls ++ [.getClientData s.clock] } where
  limited := hs.limited
  covers := hs.covers
  pending := by
    intro i call hi
    rcases getElem?_append_cases hi with ⟨-, rfl⟩ | hi
    · exact ⟨le_rfl, hs.covers⟩
    · exact hs.pending hi
  single := by
    intro i j call call' hi hj hdone hdone'
    have hnew : ∀ {k : Nat} {c : Phase}, (s.calls ++ [.getClientData s.clock])[k]? = some c →
        c.isDone = false → k = s.calls.length := by
      intro k c hk hc
      rcases getElem?_append_cases hk with ⟨rfl, -⟩ | hk
      · rfl
      · simp [horderly c (List.mem_of_getElem? hk)] at hc
    exact (hnew hi hdone).trans (hnew hj hdone').symm

theorem Sound.getClientData {i : Nat} (hrate : 0 ≤ rule.requestsPerSecond)
    (hburst : 0 ≤ rule.burstSize) (hs : Sound rule s)
    (horderly : Orderly rule s (.getClientData i))
    (hi : s.calls[i]? = some (.getClientData now)) :
    Sound rule { s with
      calls := s.calls.set i
        (.setClientData now (decideRequest rule now (bucketOf s.hash s.clock) 1)) } where
  limited := hs.limited
  covers := hs.covers
  pending := by
    intro j call hj
    rcases getElem?_set_cases hj with ⟨-, rfl⟩ | ⟨-, hj⟩
    · obtain ⟨hnow, hcovers⟩ := hs.pending hi
      obtain ⟨hlast, haccounts⟩ := hcovers.load hrate hburst (horderly _ hi)
      exact ⟨hnow, (decideBucket_lastRefill rule now _ 1).trans hlast,
        decide_accounts hrate haccounts hs.limited⟩
    · exact hs.pending hj
  single := by
    intro j k call call' hj hk hdone hdone'
    have hold : ∀ {l : Nat} {c : Phase}, (s.calls.set i (.setClientData now
          (decideRequest rule now (bucketOf s.hash s.clock) 1)))[l]? = some c →
        c.isDone = false → l = i := by
      intro l c hl hc
      rcases getElem?_set_cases hl with ⟨rfl, -⟩ | ⟨-, hl⟩
      · rfl
      · exact hs.single hl hi hc rfl
    exact (hold hj hdone).trans (hold hk hdone').symm

theorem Sound.setClientData {i : Nat} {decision : Decision} (hs : Sound rule s)
    (hi : s.calls[i]? = some (.setClientData now decision)) :
    Sound rule { s with
      hash := some (hashOf decision.bucket s.clock)
      calls := s.calls.set i (.done decision.status)
      admitted := afterDecision s.admitted now decision } := by
  obtain ⟨hnow, hlast, haccounts, hlimited⟩ := hs.pending hi
  -- The call that writes was the only one in progress.
  have hdone : ∀ {j : Nat} {call}, (s.calls.set i (.done decision.status))[j]? = some call →
      call.isDone = true := by
    intro j call hj
    rcases getElem?_set_cases hj with ⟨-, rfl⟩ | ⟨hne, hj⟩
    · rfl
    · by_contra hcall
      exact hne (hs.single hj hi (by simpa using hcall) rfl)
  refine ⟨hlimited, ⟨?_, hlast.trans_le hnow⟩, fun {j call} hj => ?_, fun {j k call call'} hj => ?_⟩
  · subst hlast
    exact haccounts
  · cases call with
    | done status => trivial
    | getClientData | setClientData => cases hdone hj
  · intro _ hcall
    simp [hdone hj] at hcall

theorem Sound.advance (hrate : 0 ≤ rule.requestsPerSecond) (hs : Sound rule s)
    (hclock : s.clock ≤ now) : Sound rule { s with clock := now } where
  limited := hs.limited
  covers := hs.covers.mono hrate hclock
  pending := by
    intro i call hi
    cases call with
    | getClientData => exact ⟨(hs.pending hi).1.trans hclock, (hs.pending hi).2⟩
    | setClientData => exact ⟨(hs.pending hi).1.trans hclock, (hs.pending hi).2⟩
    | done => trivial
  single := hs.single

theorem sound_step {l : Label} (hrate : 0 ≤ rule.requestsPerSecond) (hburst : 0 ≤ rule.burstSize)
    (hs : Sound rule s) (horderly : Orderly rule s l) (h : step rule s l = some s') :
    Sound rule s' := by
  cases l with
  | readClock =>
    cases h
    exact hs.readClock horderly
  | getClientData i =>
    simp only [step, Option.bind_eq_bind, Option.bind_eq_some_iff] at h
    obtain ⟨call, hi, h⟩ := h
    cases call with
    | getClientData now =>
      cases h
      exact hs.getClientData hrate hburst horderly hi
    | setClientData | done => cases h
  | setClientData i =>
    simp only [step, Option.bind_eq_bind, Option.bind_eq_some_iff] at h
    obtain ⟨call, hi, h⟩ := h
    cases call with
    | setClientData now decision =>
      cases h
      exact hs.setClientData hi
    | getClientData | done => cases h
  | advance now =>
    simp only [step] at h
    split at h
    case isTrue => cases h
    case isFalse hclock =>
      cases h
      exact hs.advance hrate (not_lt.mp hclock)

/-- In every state of an orderly run the requests admitted in any interval are paid for by the
bucket and its refill. -/
theorem limited_of_orderly {start : Time} {labels : List Label}
    (hrate : 0 ≤ rule.requestsPerSecond) (hburst : 0 ≤ rule.burstSize)
    (horderly : Guarded (step rule) (Orderly rule) { clock := start } labels)
    (hr : run (step rule) { clock := start } labels = some s) :
    ∀ a b, a ≤ b → (within a b s.admitted : ℚ) ≤
      rule.burstSize + rule.requestsPerSecond * (b - a) := by
  have hsound : Sound rule s := by
    refine run_invariant ?_ (sound_init hrate hburst start) horderly hr
    intro s l s' hs hl h
    exact sound_step hrate hburst hs hl h
  exact hsound.limited

def singleRule : RateLimitRule where
  requestsPerSecond := 1
  requestsPerMinute := 100
  requestsPerHour := 1000
  burstSize := 1

/-- Three calls in turn, the second one refused. -/
def turns : List Label :=
  [.readClock, .getClientData 0, .setClientData 0, .readClock, .getClientData 1, .setClientData 1,
    .advance 1, .readClock, .getClientData 2, .setClientData 2]

theorem limited_of_turns :
    ∃ s, run (step singleRule) { clock := 0 } turns = some s ∧ s.admitted = [0, 1] ∧
      (within 0 1 s.admitted : ℚ) ≤ 1 + 1 * (1 - 0) := by
  obtain ⟨s, hr, hadmitted⟩ : ∃ s, run (step singleRule) { clock := 0 } turns = some s ∧
      s.admitted = [0, 1] := ⟨_, rfl, by decide +kernel⟩
  have horderly : Guarded (step singleRule) (Orderly singleRule) { clock := 0 } turns := by
    decide +kernel
  have hlimited := limited_of_orderly (by decide +kernel) (by decide) horderly hr 0 1 (by decide)
  exact ⟨s, hr, hadmitted, by simpa [singleRule] using hlimited⟩

/-- Two calls read the bucket before either writes it; both take its one token. -/
theorem overlapping_calls_exceed :
    ∃ s, run (step singleRule) { clock := 0 } [.readClock, .readClock, .getClientData 0,
        .getClientData 1, .setClientData 0, .setClientData 1] = some s ∧
      ¬ (within 0 0 s.admitted : ℚ) ≤
        singleRule.burstSize + singleRule.requestsPerSecond * (0 - 0) :=
  ⟨_, rfl, by decide +kernel⟩

end Marty.RateLimit.Shared
