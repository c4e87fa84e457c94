import Mathlib.Algebra.Order.Ring.Rat
import Mathlib.Logic.Function.Basic
import Marty.Idempotency.Redis
import Marty.Idempotency.Request

/-! `IdempotencyMiddleware.dispatch` without Redis.  The requests of one process switch at awaits
only: a step is what runs between two of them. -/

namespace Marty.Idempotency.Memory

open Lib Lib.Base64 Lib.Run Redis

/-- Seconds, as `time.monotonic()` counts them. -/
abbrev Time := ℚ

/-- An entry of `_cache`.  `owner` is the request that put it there; nothing reads it. -/
structure Entry where
  cached : CachedResponse
  createdAt : Time
  owner : Nat

/-- An entry of `_inflight`, with its owner. -/
structure Inflight where
  requestHash : String
  owner : Nat

/-- The next step of a request. -/
inductive Phase
  /-- Another method, or no key. -/
  | passThrough
  /-- Before the check of the two tables, in the read of its body. -/
  | readBody (cacheKey : String)
  | callNext (cacheKey : String)
  | collect (cacheKey : String) (r : Response)
  | done (result : Result)
  deriving DecidableEq

/-- `source` is the owner of the entry that answered the request; nothing reads it. -/
structure Thread where
  request : Request
  phase : Phase
  called : Option Called := none
  source : Option Nat := none
  deriving DecidableEq

structure System where
  cache : String → Option Entry := fun _ => none
  inflight : String → Option Inflight := fun _ => none
  lastEviction : Time
  threads : List Thread := []

inductive Label
  | arrive (request : Request)
  | check (i : Nat) (now : Time)
  | callNext (i : Nat) (result : Called)
  | collect (i : Nat) (ok : Bool) (now : Time)

variable (sha256 : Bytes → String) (ttl : Int)

def evictExpired (now : Time) (s : System) : System :=
  if now - s.lastEviction < 600 then s
  else
    { s with
      lastEviction := now
      cache := fun key => (s.cache key).filter fun entry => ¬ now - entry.createdAt > ttl }

def initialPhase (request : Request) : Phase :=
  match request.cacheKey with
  | some key => .readBody key
  | none => .passThrough

def System.set (s : System) (i : Nat) (t : Thread) : System :=
  { s with threads := s.threads.set i t }

def System.setInflight (s : System) (key : String) (value : Option Inflight) : System :=
  { s with inflight := Function.update s.inflight key value }

section tables

variable (s : System) (i : Nat) (t : Thread) (key : String) (value : Option Inflight)

@[simp] theorem set_threads : (s.set i t).threads = s.threads.set i t := rfl

@[simp] theorem set_cache : (s.set i t).cache = s.cache := rfl

@[simp] theorem set_inflight : (s.set i t).inflight = s.inflight := rfl

@[simp] theorem setInflight_threads : (s.setInflight key value).threads = s.threads := rfl

@[simp] theorem setInflight_cache : (s.setInflight key value).cache = s.cache := rfl

@[simp] theorem setInflight_self : (s.setInflight key value).inflight key = value :=
  Function.update_self _ _ _

theorem setInflight_of_ne {key key' : String} (h : key' ≠ key) (value : Option Inflight) :
    (s.setInflight key value).inflight key' = s.inflight key' :=
  Function.update_of_ne h _ _

@[simp] theorem evictExpired_threads (ttl : Int) (now : Time) :
    (evictExpired ttl now s).threads = s.threads := by
  unfold evictExpired
  split <;> rfl

@[simp] theorem evictExpired_inflight (ttl : Int) (now : Time) :
    (evictExpired ttl now s).inflight = s.inflight := by
  unfold evictExpired
  split <;> rfl

end tables

/-- The part of `dispatch` that runs once the body is read, up to `call_next`. -/
def check (i : Nat) (t : Thread) (key : String) (s : System) : System :=
  let requestHash := t.request.requestHash sha256
  match s.cache key with
  | some entry =>
    let result :=
      if entry.cached.requestHash ≠ requestHash then .error conflictResponse
      else .replay (responseFromCached entry.cached)
    s.set i { t with phase := .done result, source := some entry.owner }
  | none =>
    match s.inflight key with
    | some entry =>
      let result :=
        if entry.requestHash ≠ requestHash then .error conflictResponse
        else .error inProgressResponse
      s.set i { t with phase := .done result, source := some entry.owner }
    | none =>
      (s.setInflight key (some ⟨requestHash, i⟩)).set i { t with phase := .callNext key }

def finished : Called → Result
  | .returned r => .executed r
  | .raised => .raised

/-- The return of `call_next`; the `finally` runs when the body need not be collected. -/
def afterCallNext (i : Nat) (t : Thread) (key : String) (s : System) (result : Called) : System :=
  let t := { t with called := some result }
  match result with
  | .returned r =>
    if r.success then s.set i { t with phase := .collect key r }
    else (s.setInflight key none).set i { t with phase := .done (.executed r) }
  | .raised => (s.setInflight key none).set i { t with phase := .done .raised }

/-- The body is collected: the response is stored and the `finally` runs. -/
def afterCollect (i : Nat) (t : Thread) (key : String) (r : Response) (now : Time) (s : System) :
    System :=
  let cached := collected (t.request.requestHash sha256) r
  let s := { s with cache := Function.update s.cache key (some ⟨cached, now, i⟩) }
  (s.setInflight key none).set i { t with phase := .done (.executed (rebuilt cached)) }

def step (s : System) : Label → Option System
  | .arrive request =>
    some { s with threads := s.threads ++ [{ request := request, phase := initialPhase request }] }
  | .check i now => do
    let t ← s.threads[i]?
    let .readBody key := t.phase | none
    some (check sha256 i t key (evictExpired ttl now s))
  | .callNext i result => do
    let t ← s.threads[i]?
    match t.phase with
    | .passThrough =>
      some (s.set i { t with phase := .done (finished result), called := some result })
    | .callNext key => some (afterCallNext i t key s result)
    | _ => none
  | .collect i ok now => do
    let t ← s.threads[i]?
    let .collect key r := t.phase | none
    some (if ok then afterCollect sha256 i t key r now s
      else (s.setInflight key none).set i { t with phase := .done .raised })

/-- What a step does. -/
inductive Moves (s : System) : Label → System → Prop
  | arrive (request : Request) :
    Moves s (.arrive request)
      { s with threads := s.threads ++ [{ request := request, phase := initialPhase request }] }
  | check {i : Nat} {t : Thread} {key : String} (now : Time) (ht : s.threads[i]? = some t)
      (hphase : t.phase = .readBody key) :
    Moves s (.check i now) (check sha256 i t key (evictExpired ttl now s))
  | passed {i : Nat} {t : Thread} (result : Called) (ht : s.threads[i]? = some t)
      (hphase : t.phase = .passThrough) :
    Moves s (.callNext i result)
      (s.set i { t with phase := .done (finished result), called := some result })
  | called {i : Nat} {t : Thread} {key : String} (result : Called) (ht : s.threads[i]? = some t)
      (hphase : t.phase = .callNext key) :
    Moves s (.callNext i result) (afterCallNext i t key s result)
  | collected {i : Nat} {t : Thread} {key : String} {r : Response} (now : Time)
      (ht : s.threads[i]? = some t) (hphase : t.phase = .collect key r) :
    Moves s (.collect i true now) (afterCollect sha256 i t key r now s)
  | broken {i : Nat} {t : Thread} {key : String} {r : Response} (now : Time)
      (ht : s.threads[i]? = some t) (hphase : t.phase = .collect key r) :
    Moves s (.collect i false now)
      ((s.setInflight key none).set i { t with phase := .done .raised })

theorem step_moves {sha256 : Bytes → String} {ttl : Int} {s s' : System} {l : Label}
    (h : step sha256 ttl s l = some s') : Moves sha256 ttl s l s' := by
  cases l with
  | arrive request =>
    cases h
    exact .arrive request
  | check i now =>
    obtain ⟨t, ht, h⟩ := Option.bind_eq_some_iff.mp h
    split at h
    case h_1 key hphase =>
      cases h
      exact .check now ht hphase
    case h_2 => cases h
  | callNext i result =>
    obtain ⟨t, ht, h⟩ := Option.bind_eq_some_iff.mp h
    split at h
    case h_1 hphase =>
      cases h
      exact .passed result ht hphase
    case h_2 key hphase =>
      cases h
      exact .called result ht hphase
    case h_3 => cases h
  | collect i ok now =>
    obtain ⟨t, ht, h⟩ := Option.bind_eq_some_iff.mp h
    split at h
    case h_1 key r hphase =>
      cases ok with
      | true =>
        cases h
        exact .collected now ht hphase
      | false =>
        cases h
        exact .broken now ht hphase
    case h_2 => cases h

theorem check_threads (sha256 : Bytes → String) (i : Nat) (t : Thread) (key : String)
    (s : System) :
    ∃ t', (check sha256 i t key s).threads = s.threads.set i t' ∧ t'.request = t.request := by
  unfold check
  split
  · exact ⟨_, rfl, rfl⟩
  · split <;> exact ⟨_, rfl, rfl⟩

theorem afterCallNext_threads (i : Nat) (t : Thread) (key : String) (s : System)
    (result : Called) :
    ∃ t', (afterCallNext i t key s result).threads = s.threads.set i t' ∧
      t'.request = t.request := by
  unfold afterCallNext
  split
  · split <;> exact ⟨_, rfl, rfl⟩
  · exact ⟨_, rfl, rfl⟩

/-- A step adds a request, or moves one that has no answer yet. -/
theorem Moves.threads {sha256 : Bytes → String} {ttl : Int} {s s' : System} {l : Label}
    (h : Moves sha256 ttl s l s') :
    (∃ request, s'.threads =
        s.threads ++ [{ request := request, phase := initialPhase request }]) ∨
      ∃ (i : Nat) (t t' : Thread), s.threads[i]? = some t ∧ (∀ result, t.phase ≠ .done result) ∧
        s'.threads = s.threads.set i t' ∧ t'.request = t.request := by
  cases h with
  | arrive request => exact .inl ⟨request, rfl⟩
  | @check i t key now ht hphase =>
    obtain ⟨t', hthreads, hrequest⟩ := check_threads sha256 i t key (evictExpired ttl now s)
    rw [evictExpired_threads] at hthreads
    exact .inr ⟨i, t, t', ht, by simp [hphase], hthreads, hrequest⟩
  | passed result ht hphase => exact .inr ⟨_, _, _, ht, by simp [hphase], rfl, rfl⟩
  | @called i t key result ht hphase =>
    obtain ⟨t', hthreads, hrequest⟩ := afterCallNext_threads i t key s result
    exact .inr ⟨i, t, t', ht, by simp [hphase], hthreads, hrequest⟩
  | collected now ht hphase => exact .inr ⟨_, _, _, ht, by simp [hphase], rfl, rfl⟩
  | broken now ht hphase => exact .inr ⟨_, _, _, ht, by simp [hphase], rfl, rfl⟩

end Marty.Idempotency.Memory
