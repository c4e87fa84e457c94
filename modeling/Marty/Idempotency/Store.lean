import Mathlib.Logic.Function.Basic
import Marty.Idempotency.Redis
import Marty.Idempotency.Request

/-! `_dispatch_redis` for all keys at once.  A step of a request is a step on what is stored under
its two names in the one Redis that all processes share. -/

namespace Marty.Idempotency.Store

open Lib Lib.Base64 Lib.Text Redis

section names

variable (sha256 : Bytes → String)

def dataKey (cacheKey : String) : String := "idempotency" ++ ":" ++ sha256 (encode cacheKey)

def lockKey (cacheKey : String) : String := dataKey sha256 cacheKey ++ ":lock"

variable {sha256}

theorem dataKey_injective (hinj : Function.Injective sha256) :
    Function.Injective (dataKey sha256) := by
  intro a b h
  exact encode_injective (hinj ((String.append_right_inj _).mp h))

theorem lockKey_injective (hinj : Function.Injective sha256) :
    Function.Injective (lockKey sha256) := by
  intro a b h
  exact dataKey_injective hinj ((String.append_left_inj _).mp h)

/-- A digest has no colon, so no lock is stored under the name of a response. -/
theorem dataKey_ne_lockKey (hhex : ∀ data, ':' ∉ (sha256 data).toList) (a b : String) :
    dataKey sha256 a ≠ lockKey sha256 b := by
  intro h
  simp only [lockKey, dataKey, String.append_assoc, String.append_right_inj] at h
  have hcolon := hhex (encode a)
  rw [h] at hcolon
  simp at hcolon

/-- The names under which the requests with a key store something. -/
def Named (sha256 : Bytes → String) (name key : String) : Prop :=
  name = dataKey sha256 key ∨ name = lockKey sha256 key

theorem Named.unique (hinj : Function.Injective sha256) (hhex : ∀ data, ':' ∉ (sha256 data).toList)
    {name a b : String} (ha : Named sha256 name a) (hb : Named sha256 name b) : a = b := by
  rcases ha with rfl | rfl
  · rcases hb with h | h
    · exact dataKey_injective hinj h
    · exact absurd h (dataKey_ne_lockKey hhex a b)
  · rcases hb with h | h
    · exact absurd h.symm (dataKey_ne_lockKey hhex b a)
    · exact lockKey_injective hinj h

end names

inductive Value
  | data (payload : CachedPayload)
  | lock (payload : LockPayload)

/-- What `_deserialise_cached` is given; a lock has no `status_code` and counts as nothing. -/
def Value.asData : Value → Option CachedPayload
  | .data payload => some payload
  | .lock _ => none

def Value.asLock : Value → LockPayload
  | .data payload => ⟨payload.requestHash, ""⟩
  | .lock payload => payload

/-- A value in Redis.  `owner` is the request that put it there; nothing reads it. -/
structure Slot where
  value : Value
  owner : Nat

/-- A request with its key.  `sources` are the owners of the values it has looked at to decide its
answer; nothing reads them. -/
structure Thread where
  request : Request
  key : String
  inner : Redis.Thread
  sources : List Nat := []

structure System where
  store : String → Option Slot := fun _ => none
  tokens : List String := []
  threads : List Thread := []

inductive Label
  | arrive (request : Request)
  | move (i : Nat) (l : Redis.Label)
  | expire (name : String)

/-- The steps of a request that is alone in view. -/
def own : Redis.Label → Bool
  | .readData i | .tryLock i _ | .readLock i | .callNext i _ | .collect i _ | .writeData i
  | .stopRenewal i | .release i | .releaseGet i | .releaseDelete i | .renewGet i | .renewExpire i
  | .fault i | .renewFault i => i == 0
  | .arrive _ | .expireLock | .expireData => false

variable (sha256 : Bytes → String)

/-- What a request sees of the store. -/
def System.view (s : System) (t : Thread) : Redis.System where
  data := (s.store (dataKey sha256 t.key)).bind (·.value.asData)
  lock := (s.store (lockKey sha256 t.key)).map (·.value.asLock)
  tokens := s.tokens
  threads := [t.inner]

/-- A command that changes what it sees under a name has stored it there. -/
def put {α : Type} [DecidableEq α] (wrap : α → Value) (owner : Nat) (name : String)
    (before after : Option α) (store : String → Option Slot) : String → Option Slot :=
  if after = before then store
  else Function.update store name (after.map fun value => ⟨wrap value, owner⟩)

/-- The name whose value decides the answer of a step. -/
def decidedBy (key : String) : Redis.Label → Option String
  | .readData _ => some (dataKey sha256 key)
  | .tryLock _ _ | .readLock _ => some (lockKey sha256 key)
  | _ => none

def System.found (s : System) (key : String) (l : Redis.Label) : List Nat :=
  (((decidedBy sha256 key l).bind s.store).map (·.owner)).toList

/-- Requests without a key are passed on and do not come here. -/
def step (s : System) : Label → Option System
  | .arrive request => do
    let key ← request.cacheKey
    let inner := { requestHash := request.requestHash sha256 }
    some { s with threads := s.threads ++ [{ request := request, key := key, inner := inner }] }
  | .move i l => do
    let t ← s.threads[i]?
    if own l then
      let before := s.view sha256 t
      let after ← Redis.step before l
      let inner ← after.threads[0]?
      let store := put .data i (dataKey sha256 t.key) before.data after.data s.store
      some {
        store := put .lock i (lockKey sha256 t.key) before.lock after.lock store
        tokens := after.tokens
        threads := s.threads.set i
          { t with inner := inner, sources := t.sources ++ s.found sha256 t.key l } }
    else none
  | .expire name => some { s with store := Function.update s.store name none }

variable {sha256}

theorem put_eq_some {α : Type} [DecidableEq α] {wrap : α → Value} {owner : Nat}
    {name name' : String} {before after : Option α} {store : String → Option Slot} {slot : Slot}
    (h : put wrap owner name before after store name' = some slot) :
    name' = name ∧ slot.owner = owner ∨ store name' = some slot := by
  unfold put at h
  split at h
  · exact .inr h
  · by_cases hname : name' = name
    · subst hname
      rw [Function.update_self, Option.map_eq_some_iff] at h
      obtain ⟨value, -, rfl⟩ := h
      exact .inl ⟨rfl, rfl⟩
    · exact .inr (by rwa [Function.update_of_ne hname] at h)

theorem named_of_decidedBy {key name : String} {l : Redis.Label}
    (h : decidedBy sha256 key l = some name) : Named sha256 name key := by
  cases l with
  | readData i => exact .inl (Option.some.inj h).symm
  | tryLock i token => exact .inr (Option.some.inj h).symm
  | readLock i => exact .inr (Option.some.inj h).symm
  | _ => cases h

theorem mem_found {s : System} {key : String} {l : Redis.Label} {j : Nat}
    (h : j ∈ s.found sha256 key l) :
    ∃ name slot, Named sha256 name key ∧ s.store name = some slot ∧ slot.owner = j := by
  simp only [System.found, Option.mem_toList, Option.map_eq_some_iff, Option.bind_eq_some_iff] at h
  obtain ⟨slot, ⟨name, hname, hslot⟩, howner⟩ := h
  exact ⟨name, slot, named_of_decidedBy hname, hslot, howner⟩

theorem found_ne_nil {s : System} {key name : String} {l : Redis.Label}
    (hname : decidedBy sha256 key l = some name) (hslot : s.store name ≠ none) :
    s.found sha256 key l ≠ [] := by
  obtain ⟨slot, hslot⟩ := Option.ne_none_iff_exists'.mp hslot
  simp [System.found, hname, hslot]

/-- A step of a request, seen from the store. -/
theorem step_move {s s' : System} {i : Nat} {l : Redis.Label}
    (h : step sha256 s (.move i l) = some s') :
    ∃ t after inner, s.threads[i]? = some t ∧ own l = true ∧
      Redis.step (s.view sha256 t) l = some after ∧ after.threads[0]? = some inner ∧
      s' = {
        store := put .lock i (lockKey sha256 t.key) (s.view sha256 t).lock after.lock
          (put .data i (dataKey sha256 t.key) (s.view sha256 t).data after.data s.store)
        tokens := after.tokens
        threads := s.threads.set i
          { t with inner := inner, sources := t.sources ++ s.found sha256 t.key l } } := by
  obtain ⟨t, ht, h⟩ := Option.bind_eq_some_iff.mp h
  split at h
  case isTrue hown =>
    obtain ⟨after, hafter, h⟩ := Option.bind_eq_some_iff.mp h
    obtain ⟨inner, hinner, h⟩ := Option.bind_eq_some_iff.mp h
    exact ⟨t, after, inner, ht, hown, hafter, hinner, (Option.some.inj h).symm⟩
  case isFalse => cases h

end Marty.Idempotency.Store
