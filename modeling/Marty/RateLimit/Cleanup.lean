import Mathlib.Algebra.Order.Field.Basic
import Mathlib.Data.List.TakeWhile
import Marty.RateLimit.Backends

/-! What the cleanup of the memory backend changes.  A client whose bucket it drops starts anew with
a full bucket and an empty window; the flags stay the same where an hour would have brought back
both. -/

namespace Marty.RateLimit.Cleanup

open Limiter Backends

abbrev Store := String → Option ClientBucket

/-- `check_limit` after its periodic cleanup. -/
def serve (rules : Rules) (call : Call) (store : Store) : Decision × Store :=
  let rule := rules.getRuleForClient call.clientType
  let decision := decideRequest rule call.now
    (memoryBackend.getClientData store call.clientId call.now) call.requestCost
  (decision, memoryBackend.setClientData store call.clientId decision.bucket call.now)

/-- The cleanups in between are made by whoever shares the backend. -/
inductive Step
  | check (call : Call)
  | cleanup (now : Time)

def Step.time : Step → Time
  | check call => call.now
  | cleanup now => now

/-- The flags of the calls with their own and all other cleanups. -/
def flags (rules : Rules) : State Store → List Step → List (Option Bool)
  | _, [] => []
  | s, .check call :: steps =>
    let result := checkLimit rules memoryBackend call s
    result.1.flag :: flags rules result.2 steps
  | s, .cleanup now :: steps =>
    flags rules { s with store := memoryBackend.cleanupExpired s.store (now - 3600) } steps

/-- The flags of the calls without any cleanup. -/
def uncleanedFlags (rules : Rules) : Store → List Step → List (Option Bool)
  | _, [] => []
  | store, .check call :: steps =>
    let result := serve rules call store
    result.1.flag :: uncleanedFlags rules result.2 steps
  | store, .cleanup _ :: steps => uncleanedFlags rules store steps

theorem serve_store_self (rules : Rules) (call : Call) (store : Store) :
    (serve rules call store).2 call.clientId = some (serve rules call store).1.bucket := by
  simp [serve, memoryBackend]

theorem serve_store_of_ne {clientId : String} (rules : Rules) {call : Call} (store : Store)
    (h : clientId ≠ call.clientId) : (serve rules call store).2 clientId = store clientId := by
  simp [serve, memoryBackend, h]

/-- The times that a bucket holds are past, those of its window no later than its last refill. -/
structure Dated (clock : Time) (bucket : ClientBucket) : Prop where
  past : bucket.lastRefill ≤ clock
  window : ∀ t ∈ bucket.requestsInWindow, t ≤ bucket.lastRefill

/-- A bucket that an hour fills. -/
structure Fills (rule : RateLimitRule) (clock : Time) (bucket : ClientBucket) : Prop
    extends Dated clock bucket where
  fills : (rule.burstSize : ℚ) ≤ bucket.tokens + 3600 * rule.requestsPerSecond

section dated

variable {rule : RateLimitRule} {clock now : Time} {bucket : ClientBucket}

theorem Dated.mono (h : Dated clock bucket) (hle : clock ≤ now) : Dated now bucket :=
  ⟨h.past.trans hle, h.window⟩

theorem mem_of_mem_recent {t : Time} {window : List Time} (h : t ∈ recent now window) :
    t ∈ window :=
  (List.dropWhile_sublist _).subset h

theorem recent_eq_nil {window : List Time} (h : ∀ t ∈ window, t < now - 3600) :
    recent now window = [] :=
  List.dropWhile_eq_nil_iff.mpr fun t ht => decide_eq_true (h t ht)

/-- The window of an idle bucket is over. -/
theorem Dated.recent_of_idle (h : Dated clock bucket) (hidle : bucket.lastRefill < now - 3600) :
    recent now bucket.requestsInWindow = [] :=
  recent_eq_nil fun t ht => (h.window t ht).trans_lt hidle

/-- Trimming a window that has been trimmed before. -/
theorem recent_recent (hle : clock ≤ now) (window : List Time) :
    recent now (recent clock window) = recent now window := by
  induction window with
  | nil => rfl
  | cons t window ih =>
    by_cases ht : t < clock - 3600
    · have ht' : t < now - 3600 := by linarith
      simpa [recent, List.dropWhile_cons, ht, ht'] using ih
    · simp [recent, List.dropWhile_cons, ht]

theorem dated_new : Dated now (newBucket rule now) := ⟨le_rfl, nofun⟩

theorem Dated.refill (h : Dated now bucket) : Dated now (refillBucket rule now bucket) := by
  have hlast : (refillBucket rule now bucket).lastRefill = now := refillBucket_lastRefill h.past
  refine ⟨hlast.le, fun t ht => ?_⟩
  rw [refillBucket_requestsInWindow] at ht
  exact (h.window t ht).trans (h.past.trans_eq hlast.symm)

theorem Dated.decide (h : Dated now bucket) (hlast : bucket.lastRefill = now) (cost : Int) :
    Dated now (decideBucket rule now bucket cost).bucket := by
  have hafter := (decideBucket_lastRefill rule now bucket cost).trans hlast
  refine ⟨hafter.le, ?_⟩
  have hwindow : ∀ t ∈ recent now bucket.requestsInWindow, t ≤ now := fun t ht =>
    (h.window t (mem_of_mem_recent ht)).trans h.past
  rw [hafter]
  by_cases htokens : bucket.tokens < cost
  · rw [(decideBucket_of_lt htokens).1]
    exact fun t ht => (h.window t ht).trans h.past
  · by_cases hfull : Full rule now bucket.requestsInWindow
    · rw [(decideBucket_of_full htokens hfull).1]
      exact hwindow
    · rw [(decideBucket_of_room htokens hfull).1]
      intro t ht
      rcases List.mem_append.mp ht with hold | hnew
      · exact hwindow t hold
      · exact (List.mem_singleton.mp hnew).le

end dated

/-- Two buckets that a call at `now` decides on alike. -/
structure Agree (now : Time) (bucket bucket' : ClientBucket) : Prop where
  tokens : bucket'.tokens = bucket.tokens
  lastRefill : bucket.lastRefill = now
  lastRefill' : bucket'.lastRefill = now
  window : recent now bucket'.requestsInWindow = recent now bucket.requestsInWindow

/-- What two stores hold of one client is the same for every call from `clock` on. -/
def SameView (rule : RateLimitRule) (clock : Time) (found found' : Option ClientBucket) : Prop :=
  ∀ now, clock ≤ now → Agree now (loadBucket rule now found) (loadBucket rule now found')

section decide

variable {rule : RateLimitRule} {clock now : Time} {bucket bucket' : ClientBucket}

theorem Agree.sameView (h : Agree now bucket bucket') :
    SameView rule now (some bucket) (some bucket') := by
  intro later hle
  refine ⟨?_, ?_, ?_, ?_⟩
  · exact refillBucket_tokens_congr h.tokens (h.lastRefill'.trans h.lastRefill.symm)
  · exact refillBucket_lastRefill (h.lastRefill.trans_le hle)
  · exact refillBucket_lastRefill (h.lastRefill'.trans_le hle)
  · show recent later (refillBucket rule later bucket').requestsInWindow =
      recent later (refillBucket rule later bucket).requestsInWindow
    rw [refillBucket_requestsInWindow, refillBucket_requestsInWindow,
      ← recent_recent hle bucket'.requestsInWindow, h.window, recent_recent hle]

/-- They are decided alike, and leave buckets that agree. -/
theorem Agree.decide (h : Agree now bucket bucket') (cost : Int) :
    (decideBucket rule now bucket' cost).flag = (decideBucket rule now bucket cost).flag ∧
      Agree now (decideBucket rule now bucket cost).bucket
        (decideBucket rule now bucket' cost).bucket := by
  by_cases htokens : bucket.tokens < cost
  · have htokens' : bucket'.tokens < cost := h.tokens ▸ htokens
    obtain ⟨hbucket, hflag, -⟩ : (decideBucket rule now bucket cost).bucket = bucket ∧ _ :=
      decideBucket_of_lt htokens
    obtain ⟨hbucket', hflag', -⟩ : (decideBucket rule now bucket' cost).bucket = bucket' ∧ _ :=
      decideBucket_of_lt htokens'
    rw [hflag, hflag', hbucket, hbucket', h.tokens]
    exact ⟨rfl, h⟩
  · have htokens' : ¬ bucket'.tokens < cost := h.tokens ▸ htokens
    by_cases hfull : Full rule now bucket.requestsInWindow
    · have hfull' : Full rule now bucket'.requestsInWindow := by
        rw [Full, h.window]
        exact hfull
      obtain ⟨hbucket, hflag, -⟩ := decideBucket_of_full htokens hfull
      obtain ⟨hbucket', hflag', -⟩ := decideBucket_of_full htokens' hfull'
      rw [hflag, hflag', hbucket, hbucket', h.window]
      exact ⟨rfl, h.tokens, h.lastRefill, h.lastRefill', rfl⟩
    · have hroom' : ¬ Full rule now bucket'.requestsInWindow := by
        rw [Full, h.window]
        exact hfull
      obtain ⟨hbucket, hflag, -⟩ := decideBucket_of_room htokens hfull
      obtain ⟨hbucket', hflag', -⟩ := decideBucket_of_room htokens' hroom'
      rw [hflag, hflag', hbucket, hbucket', h.tokens, h.window]
      exact ⟨rfl, rfl, h.lastRefill, h.lastRefill', rfl⟩

theorem Fills.refill (hrate : 0 ≤ rule.requestsPerSecond) (h : Fills rule now bucket) :
    Fills rule now (refillBucket rule now bucket) :=
  ⟨h.toDated.refill, refillBucket_fills hrate h.past h.fills⟩

theorem fills_new (hrate : 0 ≤ rule.requestsPerSecond) : Fills rule now (newBucket rule now) := by
  refine ⟨dated_new, ?_⟩
  simpa [newBucket] using mul_nonneg (by norm_num : (0 : ℚ) ≤ 3600) hrate

/-- A call takes no more tokens than there are, which an hour brings back where it fills a bucket at
all; under a closed rule it takes none. -/
theorem Fills.decide (hfits : (rule.burstSize : ℚ) ≤ 3600 * rule.requestsPerSecond ∨ Closed rule)
    (h : Fills rule now bucket) (hlast : bucket.lastRefill = now) (cost : Int) :
    Fills rule now (decideBucket rule now bucket cost).bucket := by
  refine ⟨h.toDated.decide hlast cost, ?_⟩
  by_cases htokens : bucket.tokens < cost
  · rw [(decideBucket_of_lt htokens).1]
    exact h.fills
  · by_cases hfull : Full rule now bucket.requestsInWindow
    · rw [(decideBucket_of_full htokens hfull).1]
      exact h.fills
    · have hfill := hfits.resolve_right fun hclosed => hfull (hclosed.full _)
      have hpaid : 0 ≤ bucket.tokens - cost := sub_nonneg.mpr (not_lt.mp htokens)
      rw [(decideBucket_of_room htokens hfull).1]
      exact le_add_of_nonneg_of_le hpaid hfill

/-- To drop a bucket that is idle for an hour changes nothing that a later call sees. -/
theorem SameView.drop {found' : Option ClientBucket} (hrate : 0 ≤ rule.requestsPerSecond)
    (h : SameView rule now (some bucket) found') (hfills : Fills rule now bucket)
    (hidle : bucket.lastRefill < now - 3600) : SameView rule now none found' := by
  intro later hle
  obtain ⟨htokens, -, hlast', hwindow'⟩ := h later hle
  have hidle' : bucket.lastRefill < later - 3600 := by linarith
  have hhour : bucket.lastRefill + 3600 ≤ later := by linarith
  have hfull : (loadBucket rule later (some bucket)).tokens = rule.burstSize :=
    refillBucket_full hrate hhour hfills.fills
  have hover : recent later (loadBucket rule later (some bucket)).requestsInWindow = [] := by
    have hwindow : (loadBucket rule later (some bucket)).requestsInWindow =
        bucket.requestsInWindow := refillBucket_requestsInWindow bucket
    rw [hwindow]
    exact hfills.recent_of_idle hidle'
  rw [loadBucket_none]
  exact ⟨htokens.trans hfull, rfl, hlast', hwindow'.trans hover⟩

end decide

/-- The store of a limiter, and that of one that is never cleaned. -/
structure Related (rule : RateLimitRule) (clock : Time) (store store' : Store) : Prop where
  fills : ∀ clientId bucket, store clientId = some bucket → Fills rule clock bucket
  same : ∀ clientId, SameView rule clock (store clientId) (store' clientId)

section related

variable {rules : Rules} {rule : RateLimitRule} {clock now : Time} {store store' : Store}

theorem related_init (start : Time) : Related rule start (fun _ => none) (fun _ => none) := by
  refine ⟨nofun, fun clientId now hle => ?_⟩
  rw [loadBucket_none]
  exact ⟨rfl, rfl, rfl, rfl⟩

theorem Related.mono (h : Related rule clock store store') (hle : clock ≤ now) :
    Related rule now store store' where
  fills clientId bucket hbucket :=
    have hfills := h.fills clientId bucket hbucket
    ⟨hfills.toDated.mono hle, hfills.fills⟩
  same clientId later hlater := h.same clientId later (hle.trans hlater)

theorem Related.cleanupExpired (hrate : 0 ≤ rule.requestsPerSecond)
    (h : Related rule now store store') :
    Related rule now (memoryBackend.cleanupExpired store (now - 3600)) store' := by
  constructor
  case fills =>
    intro clientId bucket hbucket
    exact h.fills clientId bucket (Option.filter_eq_some_iff.mp hbucket).1
  case same =>
    intro clientId
    have hsame := h.same clientId
    show SameView rule now ((store clientId).filter _) (store' clientId)
    cases hfound : store clientId with
    | none => rwa [hfound] at hsame
    | some bucket =>
      rw [hfound] at hsame
      rw [Option.filter_some]
      split
      case isTrue => exact hsame
      case isFalse hold =>
        rw [decide_eq_true_eq, not_not] at hold
        exact hsame.drop hrate (h.fills clientId bucket hfound) hold

theorem Related.cleanup {s : State Store} (hrate : 0 ≤ rule.requestsPerSecond)
    (h : Related rule now s.store store') :
    Related rule now (Limiter.cleanup memoryBackend now s).store store' := by
  unfold Limiter.cleanup
  split
  · exact h.cleanupExpired hrate
  · exact h

theorem Related.load (hrate : 0 ≤ rule.requestsPerSecond) (h : Related rule now store store')
    (clientId : String) : Fills rule now (loadBucket rule now (store clientId)) := by
  cases hfound : store clientId with
  | none =>
    rw [loadBucket_none]
    exact fills_new hrate
  | some bucket => exact (h.fills clientId bucket hfound).refill hrate

/-- A call on both stores. -/
theorem Related.check {call : Call} (hrate : 0 ≤ rule.requestsPerSecond)
    (hfits : (rule.burstSize : ℚ) ≤ 3600 * rule.requestsPerSecond ∨ Closed rule)
    (hrule : rules.getRuleForClient call.clientType = rule)
    (h : Related rule call.now store store') :
    (serve rules call store').1.flag = (serve rules call store).1.flag ∧
      Related rule call.now (serve rules call store).2 (serve rules call store').2 := by
  subst hrule
  have hagree := h.same call.clientId call.now le_rfl
  have hfills := (h.load hrate call.clientId).decide hfits hagree.lastRefill call.requestCost
  obtain ⟨hflag, hafter⟩ := hagree.decide call.requestCost
  refine ⟨hflag, fun clientId bucket hbucket => ?_, fun clientId => ?_⟩
  · by_cases hclient : clientId = call.clientId
    · subst hclient
      rw [serve_store_self] at hbucket
      obtain rfl := Option.some.inj hbucket
      exact hfills
    · rw [serve_store_of_ne rules store hclient] at hbucket
      exact h.fills clientId bucket hbucket
  · by_cases hclient : clientId = call.clientId
    · subst hclient
      rw [serve_store_self, serve_store_self]
      exact hafter.sameView
    · rw [serve_store_of_ne rules store hclient, serve_store_of_ne rules store' hclient]
      exact h.same clientId

theorem Related.flags_eq {s : State Store} {steps : List Step}
    (hrate : 0 ≤ rule.requestsPerSecond)
    (hfits : (rule.burstSize : ℚ) ≤ 3600 * rule.requestsPerSecond ∨ Closed rule)
    (hrule : ∀ call, .check call ∈ steps → rules.getRuleForClient call.clientType = rule)
    (htimes : List.IsChain (· ≤ ·) (clock :: steps.map Step.time))
    (h : Related rule clock s.store store') :
    flags rules s steps = uncleanedFlags rules store' steps := by
  induction steps generalizing clock s store' with
  | nil => rfl
  | cons step steps ih =>
    rw [List.map_cons, List.isChain_cons_cons] at htimes
    have hrules := fun call hcall => hrule call (List.mem_cons_of_mem _ hcall)
    have hnow := h.mono htimes.1
    cases step with
    | check call =>
      have hcall := hrule call List.mem_cons_self
      obtain ⟨hflag, hafter⟩ := (hnow.cleanup hrate).check hrate hfits hcall
      have hrest : flags rules (checkLimit rules memoryBackend call s).2 steps =
          uncleanedFlags rules (serve rules call store').2 steps := ih hrules htimes.2 hafter
      exact congrArg₂ List.cons hflag.symm hrest
    | cleanup now => exact ih hrules htimes.2 (hnow.cleanupExpired hrate)

end related

/-- Under the rule no cleanup changes the flag of a call. -/
def Invisible (rule : RateLimitRule) : Prop :=
  ∀ (rules : Rules) (start : Time) (steps : List Step),
    (∀ call, .check call ∈ steps → rules.getRuleForClient call.clientType = rule) →
    List.IsChain (· ≤ ·) (start :: steps.map Step.time) →
      flags rules ⟨fun _ => none, start⟩ steps = uncleanedFlags rules (fun _ => none) steps

section drained

variable {rules : Rules} {rule : RateLimitRule} {call : Call} {store : Store}

/-- A client without a bucket may spend a whole one. -/
theorem serve_new (hrate : 0 < rule.requestsPerSecond) (hopen : ¬ Closed rule)
    (hrule : rules.getRuleForClient call.clientType = rule)
    (hcost : call.requestCost = rule.burstSize) (hnone : store call.clientId = none) :
    (serve rules call store).1.flag = some true ∧
      (serve rules call store).1.bucket.tokens = 0 ∧
      (serve rules call store).1.bucket.lastRefill = call.now := by
  have hserve : (serve rules call store).1 =
      decideBucket rule call.now (newBucket rule call.now) call.requestCost := by
    rw [← loadBucket_none, ← hnone, ← hrule]
    rfl
  have htokens : ¬ (newBucket rule call.now).tokens < call.requestCost := by
    simp [newBucket, hcost]
  have hroom : ¬ Full rule call.now (newBucket rule call.now).requestsInWindow :=
    fun hfull => hopen (full_nil.mp hfull)
  obtain ⟨hbucket, hflag, -⟩ := decideBucket_of_room htokens hroom
  rw [hserve, hflag, hbucket]
  refine ⟨?_, ?_, rfl⟩
  · simp [divide, hrate.ne']
  · simp [newBucket, hcost]

/-- A client that has spent its bucket waits until it is full again. -/
theorem serve_drained {bucket : ClientBucket} (hrate : 0 < rule.requestsPerSecond)
    (hrule : rules.getRuleForClient call.clientType = rule)
    (hsome : store call.clientId = some bucket) (hempty : bucket.tokens = 0)
    (hlater : bucket.lastRefill < call.now)
    (hlittle : (call.now - bucket.lastRefill) * rule.requestsPerSecond < call.requestCost) :
    (serve rules call store).1.flag = some false := by
  have hserve : (serve rules call store).1 =
      decideBucket rule call.now (refillBucket rule call.now bucket) call.requestCost := by
    rw [← hrule]
    show decideRequest _ _ (store call.clientId) _ = _
    rw [hsome]
    rfl
  have hpassed : ¬ call.now - bucket.lastRefill ≤ 0 := by linarith
  have htokens : (refillBucket rule call.now bucket).tokens < call.requestCost := by
    simp only [refillBucket, hpassed, if_false, hempty, zero_add]
    exact (min_le_right _ _).trans_lt hlittle
  rw [hserve, (decideBucket_of_lt htokens).2.1]
  simp [divide, hrate.ne']

theorem cleanup_none {now : Time} {clientId : String} {s : State Store}
    (h : s.store clientId = none) :
    (Limiter.cleanup memoryBackend now s).store clientId = none := by
  unfold Limiter.cleanup
  split
  · show (s.store clientId).filter _ = none
    rw [h, Option.filter_none]
  · exact h

theorem cleanupExpired_idle {bucket : ClientBucket} {before : Time} {clientId : String}
    (h : store clientId = some bucket) (hidle : bucket.lastRefill < before) :
    memoryBackend.cleanupExpired store before clientId = none := by
  show (store clientId).filter _ = none
  rw [h, Option.filter_some, if_neg (by simpa using hidle)]

/-- Where an hour does not fill a bucket, a client that has spent it gets another one from the
cleanup first. -/
theorem not_invisible (hrate : 0 < rule.requestsPerSecond)
    (hslow : 3600 * rule.requestsPerSecond < rule.burstSize) (hopen : ¬ Closed rule) :
    ¬ Invisible rule := by
  intro h
  obtain ⟨later, hhour, hlater⟩ : ∃ later : Time, 3600 < later ∧
      later * rule.requestsPerSecond < rule.burstSize := by
    obtain ⟨later, hhour, hlater⟩ := exists_between ((lt_div_iff₀ hrate).mpr hslow)
    exact ⟨later, hhour, (lt_div_iff₀ hrate).mp hlater⟩
  let rules : Rules := { defaultRule := rule }
  let first : Call := ⟨"", "default", rule.burstSize, 0⟩
  let second : Call := ⟨"", "default", rule.burstSize, later⟩
  let cleaned := (checkLimit rules memoryBackend first ⟨fun _ => none, 0⟩).2
  let uncleaned := (serve rules first fun _ => none).2
  have hsecond : (checkLimit rules memoryBackend second
      { cleaned with
        store := memoryBackend.cleanupExpired cleaned.store (later - 3600) }).1.flag =
      some true := by
    have hempty :
        (Limiter.cleanup memoryBackend 0 ⟨fun _ => none, 0⟩).store first.clientId = none :=
      cleanup_none rfl
    obtain ⟨-, -, hlast⟩ : (serve rules first _).1.flag = some true ∧ _ :=
      serve_new hrate hopen rfl rfl hempty
    have hcleared : memoryBackend.cleanupExpired cleaned.store (later - 3600) second.clientId =
        none :=
      cleanupExpired_idle (serve_store_self rules first _) (hlast.trans_lt (sub_pos.mpr hhour))
    exact (serve_new hrate hopen rfl rfl (cleanup_none hcleared)).1
  have hdrained : (serve rules second uncleaned).1.flag = some false := by
    obtain ⟨-, hempty, hlast⟩ : (serve rules first fun _ => none).1.flag = some true ∧ _ :=
      serve_new hrate hopen rfl rfl rfl
    have hlater' : (0 : Time) < later := by linarith
    refine serve_drained hrate rfl (serve_store_self rules first _) hempty ?_ ?_
    · exact hlast.trans_lt hlater'
    · rw [hlast]
      simpa [first, second] using hlater
  have hflags := h rules 0 [.check first, .cleanup later, .check second] (fun _ _ => rfl)
    (by simp [Step.time, first, second]; linarith)
  simp only [flags, uncleanedFlags, List.cons.injEq] at hflags
  have hdiffer : some true = some false := hsecond.symm.trans (hflags.2.1.trans hdrained)
  cases hdiffer

end drained

/-- Under a rule with a positive rate the cleanup is invisible exactly when an hour fills a bucket,
or no window lets a request through. -/
theorem invisible_iff {rule : RateLimitRule} (hrate : 0 < rule.requestsPerSecond) :
    Invisible rule ↔ (rule.burstSize : ℚ) ≤ 3600 * rule.requestsPerSecond ∨
      rule.requestsPerMinute ≤ 0 ∨ rule.requestsPerHour ≤ 0 := by
  constructor
  · intro h
    by_contra hnot
    rw [not_or, not_le] at hnot
    exact not_invisible hrate hnot.1 hnot.2 h
  · intro hfits rules start steps hrule htimes
    exact (related_init start).flags_eq hrate.le hfits hrule htimes

theorem invisible_default :
    Invisible (RateLimitRule.mk 10 600 3600 20 "default" 0) := by
  refine (invisible_iff ?_).mpr (.inl ?_)
  · decide +kernel
  · decide +kernel

def slowRule : RateLimitRule where
  requestsPerSecond := 1 / 1000
  requestsPerMinute := 10
  requestsPerHour := 10

/-- Ten tokens take almost three hours; the cleanup puts them back after one. -/
theorem slow_visible : 0 < slowRule.requestsPerSecond ∧
    flags { defaultRule := slowRule } ⟨fun _ => none, 0⟩
      [.check ⟨"a", "default", 10, 0⟩, .cleanup 3700, .check ⟨"a", "default", 10, 3700⟩] =
        [some true, some true] ∧
    uncleanedFlags { defaultRule := slowRule } (fun _ => none)
      [.check ⟨"a", "default", 10, 0⟩, .cleanup 3700, .check ⟨"a", "default", 10, 3700⟩] =
        [some true, some false] := by
  refine ⟨?_, ?_, ?_⟩ <;> decide +kernel

end Marty.RateLimit.Cleanup
