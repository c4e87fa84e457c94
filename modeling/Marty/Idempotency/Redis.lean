import Marty.Lib.Base64
import Marty.Lib.Dict
import Marty.Lib.Pool
import Marty.Lib.Run

/-! `IdempotencyMiddleware._dispatch_redis` on the requests that share one cache key.  Each Redis
call is one step, and so is the return of `call_next` and of the collection of the body; the
requests of any number of processes interleave at these steps.  A step may also be an error of
the pending call, or the expiry of a key. -/

namespace Marty.Idempotency.Redis

open Lib Lib.Base64

structure Response where
  statusCode : Int
  body : Bytes
  mediaType : Option String := none
  headers : List (String × String) := []
  deriving DecidableEq

def Response.success (r : Response) : Bool := 200 ≤ r.statusCode && r.statusCode < 300

/-- A `JSONResponse` of the middleware itself. -/
structure ErrorResponse where
  statusCode : Int
  error : String
  errorDescription : String
  retryAfter : Option String := none
  deriving DecidableEq

def conflictResponse : ErrorResponse where
  statusCode := 409
  error := "idempotency_conflict"
  errorDescription := "Idempotency-Key has already been used with a different request"

def inProgressResponse : ErrorResponse where
  statusCode := 409
  error := "idempotency_in_progress"
  errorDescription := "An operation with this Idempotency-Key is already in progress. " ++
    "Retry with the same key after the first request completes."
  retryAfter := some "1"

structure CachedResponse where
  statusCode : Int
  body : Bytes
  contentType : Option String
  headers : List (String × String)
  requestHash : String
  deriving DecidableEq

/-- The JSON object that `_serialise_cached` writes. -/
structure CachedPayload where
  statusCode : Int
  body : String
  contentType : Option String
  requestHash : String
  headers : List (String × String)
  deriving DecidableEq

def serialiseCached (cached : CachedResponse) : CachedPayload where
  statusCode := cached.statusCode
  body := b64encode cached.body
  contentType := cached.contentType
  requestHash := cached.requestHash
  headers := cached.headers

/-- An empty hash falls through to `body_hash`, which the payload does not have. -/
def deserialiseCached (payload : CachedPayload) : Option CachedResponse :=
  (b64decode payload.body).map fun body =>
    { statusCode := payload.statusCode
      body := body
      contentType := payload.contentType
      headers := payload.headers
      requestHash := if payload.requestHash = "" then "None" else payload.requestHash }

def replayHeader : String := "Idempotency-Replayed"

def responseFromCached (cached : CachedResponse) : Response where
  statusCode := cached.statusCode
  body := cached.body
  mediaType := cached.contentType
  headers := Dict.set replayHeader "true" cached.headers

/-- `dict(response.headers)`: of a repeated name the first value. -/
def headerDict : List (String × String) → List (String × String)
  | [] => []
  | h :: hs => h :: (headerDict hs).filter fun h' => h'.1 ≠ h.1

/-- What is stored of a response once its body has been collected. -/
def collected (requestHash : String) (r : Response) : CachedResponse where
  statusCode := r.statusCode
  body := r.body
  contentType := r.mediaType
  headers := headerDict r.headers
  requestHash := requestHash

/-- The response rebuilt from the collected parts. -/
def rebuilt (cached : CachedResponse) : Response where
  statusCode := cached.statusCode
  body := cached.body
  mediaType := cached.contentType
  headers := cached.headers

/-- The value of the lock key. -/
structure LockPayload where
  requestHash : String
  token : String
  deriving DecidableEq

inductive Called
  | returned (r : Response)
  | raised
  deriving DecidableEq

/-- What the client gets. -/
inductive Result
  | error (e : ErrorResponse)
  | replay (r : Response)
  | executed (r : Response)
  | raised
  deriving DecidableEq

/-- The next step of a request. -/
inductive Phase
  | readData
  | tryLock
  | readLock
  | callNext (token : String)
  | collect (token : String) (r : Response)
  | writeData (token : String) (cached : CachedResponse)
  | stopRenewal (token : String) (result : Result)
  | release (token : String) (result : Result)
  | releaseDelete (token : String) (result : Result)
  | done (result : Result)
  deriving DecidableEq

/-- The task of `_renew_redis_lock`: before its next read, or before its `EXPIRE`. -/
inductive Renewal
  | none
  | get (token : String)
  | expire (token : String)
  | stopped
  | failed
  deriving DecidableEq

structure Thread where
  requestHash : String
  phase : Phase := .readData
  renewal : Renewal := .none
  called : Option Called := Option.none
  deriving DecidableEq

structure System where
  data : Option CachedPayload := none
  lock : Option LockPayload := none
  /-- The values `uuid4` has given. -/
  tokens : List String := []
  threads : List Thread := []
  deriving DecidableEq

inductive Label
  | arrive (requestHash : String)
  | readData (i : Nat)
  | tryLock (i : Nat) (token : String)
  | readLock (i : Nat)
  | callNext (i : Nat) (result : Called)
  | collect (i : Nat) (ok : Bool)
  | writeData (i : Nat)
  | stopRenewal (i : Nat)
  | release (i : Nat)
  /-- The compare and delete of a client whose `eval` is missing or fails. -/
  | releaseGet (i : Nat)
  | releaseDelete (i : Nat)
  | renewGet (i : Nat)
  | renewExpire (i : Nat)
  /-- The pending Redis call of the request, or of its renewal task, raises. -/
  | fault (i : Nat)
  | renewFault (i : Nat)
  | expireLock
  | expireData

/-- The answer to the first read. -/
def afterReadData (data : Option CachedPayload) (requestHash : String) : Phase :=
  match data.bind deserialiseCached with
  | some cached =>
    if cached.requestHash ≠ requestHash then .done (.error conflictResponse)
    else .done (.replay (responseFromCached cached))
  | none => .tryLock

/-- The answer to a request that did not get the lock. -/
def afterReadLock (lock : Option LockPayload) (requestHash : String) : Phase :=
  match lock with
  | some payload =>
    if payload.requestHash ≠ "" ∧ payload.requestHash ≠ requestHash then
      .done (.error conflictResponse)
    else .done (.error inProgressResponse)
  | none => .done (.error inProgressResponse)

def afterCallNext (token : String) : Called → Phase
  | .returned r => if r.success then .collect token r else .stopRenewal token (.executed r)
  | .raised => .stopRenewal token .raised

/-- An error of the release is logged and dropped. -/
def afterFault : Phase → Option Phase
  | .readData | .tryLock | .readLock => some (.done .raised)
  | .writeData token _ => some (.stopRenewal token .raised)
  | .release _ result | .releaseDelete _ result => some (.done result)
  | _ => none

/-- The renewal task handles an error of `EXPIRE`, and no other. -/
def afterRenewFault : Renewal → Option Renewal
  | .get _ => some .failed
  | .expire _ => some .stopped
  | _ => Option.none

def lockToken (lock : Option LockPayload) : Option String := lock.map (·.token)

def System.set (s : System) (i : Nat) (t : Thread) : System :=
  { s with threads := s.threads.set i t }

def step (s : System) : Label → Option System
  | .arrive requestHash => some { s with threads := s.threads ++ [{ requestHash := requestHash }] }
  | .readData i => do
    let t ← s.threads[i]?
    let .readData := t.phase | none
    some (s.set i { t with phase := afterReadData s.data t.requestHash })
  | .tryLock i token => do
    let t ← s.threads[i]?
    let .tryLock := t.phase | none
    if token ∈ s.tokens then none
    else
      let s := { s with tokens := token :: s.tokens }
      match s.lock with
      | none =>
        let s := { s with lock := some ⟨t.requestHash, token⟩ }
        some (s.set i { t with phase := .callNext token, renewal := .get token })
      | some _ => some (s.set i { t with phase := .readLock })
  | .readLock i => do
    let t ← s.threads[i]?
    let .readLock := t.phase | none
    some (s.set i { t with phase := afterReadLock s.lock t.requestHash })
  | .callNext i result => do
    let t ← s.threads[i]?
    let .callNext token := t.phase | none
    some (s.set i { t with phase := afterCallNext token result, called := some result })
  | .collect i ok => do
    let t ← s.threads[i]?
    let .collect token r := t.phase | none
    some (s.set i { t with
      phase := if ok then .writeData token (collected t.requestHash r)
        else .stopRenewal token .raised })
  | .writeData i => do
    let t ← s.threads[i]?
    let .writeData token cached := t.phase | none
    let s := { s with data := some (serialiseCached cached) }
    some (s.set i { t with phase := .stopRenewal token (.executed (rebuilt cached)) })
  | .stopRenewal i => do
    let t ← s.threads[i]?
    let .stopRenewal token result := t.phase | none
    -- `await renew_task` passes on the error of a task that has failed
    some (s.set i (if t.renewal = .failed then { t with phase := .done .raised }
      else { t with phase := .release token result, renewal := .stopped }))
  | .release i => do
    let t ← s.threads[i]?
    let .release token result := t.phase | none
    let s := { s with lock := if lockToken s.lock = some token then none else s.lock }
    some (s.set i { t with phase := .done result })
  | .releaseGet i => do
    let t ← s.threads[i]?
    let .release token result := t.phase | none
    some (s.set i { t with
      phase := if lockToken s.lock = some token then .releaseDelete token result
        else .done result })
  | .releaseDelete i => do
    let t ← s.threads[i]?
    let .releaseDelete _ result := t.phase | none
    let s := { s with lock := none }
    some (s.set i { t with phase := .done result })
  | .renewGet i => do
    let t ← s.threads[i]?
    let .get token := t.renewal | none
    some (s.set i { t with
      renewal := if lockToken s.lock = some token then .expire token else .stopped })
  | .renewExpire i => do
    let t ← s.threads[i]?
    let .expire token := t.renewal | none
    some (s.set i { t with renewal := .get token })
  | .fault i => do
    let t ← s.threads[i]?
    let phase ← afterFault t.phase
    some (s.set i { t with phase := phase })
  | .renewFault i => do
    let t ← s.threads[i]?
    let renewal ← afterRenewFault t.renewal
    some (s.set i { t with renewal := renewal })
  | .expireLock => some { s with lock := none }
  | .expireData => some { s with data := none }

/-- What a step does, with the phase that allows it. -/
inductive Steps (s : System) : Label → System → Prop
  | arrive (requestHash : String) :
    Steps s (.arrive requestHash)
      { s with threads := s.threads ++ [{ requestHash := requestHash }] }
  | readData {i : Nat} {t : Thread} (ht : s.threads[i]? = some t) (hphase : t.phase = .readData) :
    Steps s (.readData i) (s.set i { t with phase := afterReadData s.data t.requestHash })
  | locked {i : Nat} {t : Thread} {token : String} (ht : s.threads[i]? = some t)
      (hphase : t.phase = .tryLock) (hfresh : token ∉ s.tokens) (hlock : s.lock = none) :
    Steps s (.tryLock i token)
      ({ s with tokens := token :: s.tokens, lock := some ⟨t.requestHash, token⟩ }.set i
        { t with phase := .callNext token, renewal := .get token })
  | blocked {i : Nat} {t : Thread} {token : String} {payload : LockPayload}
      (ht : s.threads[i]? = some t) (hphase : t.phase = .tryLock) (hfresh : token ∉ s.tokens)
      (hlock : s.lock = some payload) :
    Steps s (.tryLock i token)
      ({ s with tokens := token :: s.tokens }.set i { t with phase := .readLock })
  | readLock {i : Nat} {t : Thread} (ht : s.threads[i]? = some t) (hphase : t.phase = .readLock) :
    Steps s (.readLock i) (s.set i { t with phase := afterReadLock s.lock t.requestHash })
  | callNext {i : Nat} {t : Thread} {token : String} (result : Called)
      (ht : s.threads[i]? = some t) (hphase : t.phase = .callNext token) :
    Steps s (.callNext i result)
      (s.set i { t with phase := afterCallNext token result, called := some result })
  | collect {i : Nat} {t : Thread} {token : String} {r : Response} (ok : Bool)
      (ht : s.threads[i]? = some t) (hphase : t.phase = .collect token r) :
    Steps s (.collect i ok) (s.set i { t with
      phase := if ok then .writeData token (collected t.requestHash r)
        else .stopRenewal token .raised })
  | writeData {i : Nat} {t : Thread} {token : String} {cached : CachedResponse}
      (ht : s.threads[i]? = some t) (hphase : t.phase = .writeData token cached) :
    Steps s (.writeData i) ({ s with data := some (serialiseCached cached) }.set i
      { t with phase := .stopRenewal token (.executed (rebuilt cached)) })
  | stopRenewal {i : Nat} {t : Thread} {token : String} {result : Result}
      (ht : s.threads[i]? = some t) (hphase : t.phase = .stopRenewal token result) :
    Steps s (.stopRenewal i) (s.set i (if t.renewal = .failed then { t with phase := .done .raised }
      else { t with phase := .release token result, renewal := .stopped }))
  | release {i : Nat} {t : Thread} {token : String} {result : Result}
      (ht : s.threads[i]? = some t) (hphase : t.phase = .release token result) :
    Steps s (.release i)
      ({ s with lock := if lockToken s.lock = some token then none else s.lock }.set i
        { t with phase := .done result })
  | releaseGet {i : Nat} {t : Thread} {token : String} {result : Result}
      (ht : s.threads[i]? = some t) (hphase : t.phase = .release token result) :
    Steps s (.releaseGet i) (s.set i { t with
      phase := if lockToken s.lock = some token then .releaseDelete token result
        else .done result })
  | releaseDelete {i : Nat} {t : Thread} {token : String} {result : Result}
      (ht : s.threads[i]? = some t) (hphase : t.phase = .releaseDelete token result) :
    Steps s (.releaseDelete i) ({ s with lock := none }.set i { t with phase := .done result })
  | renewGet {i : Nat} {t : Thread} {token : String} (ht : s.threads[i]? = some t)
      (hrenewal : t.renewal = .get token) :
    Steps s (.renewGet i) (s.set i { t with
      renewal := if lockToken s.lock = some token then .expire token else .stopped })
  | renewExpire {i : Nat} {t : Thread} {token : String} (ht : s.threads[i]? = some t)
      (hrenewal : t.renewal = .expire token) :
    Steps s (.renewExpire i) (s.set i { t with renewal := .get token })
  | fault {i : Nat} {t : Thread} {phase : Phase} (ht : s.threads[i]? = some t)
      (hfault : afterFault t.phase = some phase) :
    Steps s (.fault i) (s.set i { t with phase := phase })
  | renewFault {i : Nat} {t : Thread} {renewal : Renewal} (ht : s.threads[i]? = some t)
      (hfault : afterRenewFault t.renewal = some renewal) :
    Steps s (.renewFault i) (s.set i { t with renewal := renewal })
  | expireLock : Steps s .expireLock { s with lock := none }
  | expireData : Steps s .expireData { s with data := none }

theorem steps_of_step {s s' : System} {l : Label} (h : step s l = some s') : Steps s l s' := by
  cases l with
  | arrive requestHash =>
    cases h
    exact .arrive requestHash
  | readData i =>
    obtain ⟨t, ht, h⟩ := Option.bind_eq_some_iff.mp h
    split at h
    case h_1 hphase =>
      cases h
      exact .readData ht hphase
    case h_2 => cases h
  | tryLock i token =>
    obtain ⟨t, ht, h⟩ := Option.bind_eq_some_iff.mp h
    split at h
    case h_1 hphase =>
      split at h
      case isTrue => cases h
      case isFalse hfresh =>
        dsimp only at h
        split at h
        case h_1 hlock =>
          cases h
          exact .locked ht hphase hfresh hlock
        case h_2 payload hlock =>
          cases h
          exact .blocked ht hphase hfresh hlock
    case h_2 => cases h
  | readLock i =>
    obtain ⟨t, ht, h⟩ := Option.bind_eq_some_iff.mp h
    split at h
    case h_1 hphase =>
      cases h
      exact .readLock ht hphase
    case h_2 => cases h
  | callNext i result =>
    obtain ⟨t, ht, h⟩ := Option.bind_eq_some_iff.mp h
    split at h
    case h_1 hphase =>
      cases h
      exact .callNext result ht hphase
    case h_2 => cases h
  | collect i ok =>
    obtain ⟨t, ht, h⟩ := Option.bind_eq_some_iff.mp h
    split at h
    case h_1 hphase =>
      cases h
      exact .collect ok ht hphase
    case h_2 => cases h
  | writeData i =>
    obtain ⟨t, ht, h⟩ := Option.bind_eq_some_iff.mp h
    split at h
    case h_1 hphase =>
      cases h
      exact .writeData ht hphase
    case h_2 => cases h
  | stopRenewal i =>
    obtain ⟨t, ht, h⟩ := Option.bind_eq_some_iff.mp h
    split at h
    case h_1 hphase =>
      cases h
      exact .stopRenewal ht hphase
    case h_2 => cases h
  | release i =>
    obtain ⟨t, ht, h⟩ := Option.bind_eq_some_iff.mp h
    split at h
    case h_1 hphase =>
      cases h
      exact .release ht hphase
    case h_2 => cases h
  | releaseGet i =>
    obtain ⟨t, ht, h⟩ := Option.bind_eq_some_iff.mp h
    split at h
    case h_1 hphase =>
      cases h
      exact .releaseGet ht hphase
    case h_2 => cases h
  | releaseDelete i =>
    obtain ⟨t, ht, h⟩ := Option.bind_eq_some_iff.mp h
    split at h
    case h_1 hphase =>
      cases h
      exact .releaseDelete ht hphase
    case h_2 => cases h
  | renewGet i =>
    obtain ⟨t, ht, h⟩ := Option.bind_eq_some_iff.mp h
    split at h
    case h_1 hrenewal =>
      cases h
      exact .renewGet ht hrenewal
    case h_2 => cases h
  | renewExpire i =>
    obtain ⟨t, ht, h⟩ := Option.bind_eq_some_iff.mp h
    split at h
    case h_1 hrenewal =>
      cases h
      exact .renewExpire ht hrenewal
    case h_2 => cases h
  | fault i =>
    obtain ⟨t, ht, h⟩ := Option.bind_eq_some_iff.mp h
    obtain ⟨phase, hfault, h⟩ := Option.bind_eq_some_iff.mp h
    cases h
    exact .fault ht hfault
  | renewFault i =>
    obtain ⟨t, ht, h⟩ := Option.bind_eq_some_iff.mp h
    obtain ⟨renewal, hfault, h⟩ := Option.bind_eq_some_iff.mp h
    cases h
    exact .renewFault ht hfault
  | expireLock =>
    cases h
    exact .expireLock
  | expireData =>
    cases h
    exact .expireData

end Marty.Idempotency.Redis
