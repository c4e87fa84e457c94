import Mathlib.Algebra.Order.Ring.Rat
import Mathlib.Data.List.Sort
import Marty.Lib.Base64
import Marty.Lib.Run
import Marty.Lib.Table

/-! The transactional outbox.  A step of the system is one committed transaction: an `enqueue`,
or a `flush_once` pass of the dispatcher.  Beside the tables the state keeps what they are
checked against: the events as they were enqueued, and every publish with its outcome. -/

namespace Marty.Infrastructure.Outbox

open Lib Lib.Base64

/-- Seconds. -/
abbrev Time := ℚ

/-- What `enqueue` is given. -/
structure Event where
  topic : String
  payload : Bytes
  key : Option Bytes := none
  headers : Option (List (String × Bytes)) := none

structure EventBusMessage where
  topic : String
  payload : Bytes
  headers : Option (List (String × Bytes))
  key : Option Bytes
  deriving DecidableEq

structure EventOutboxRecord where
  id : ℕ
  topic : String
  key : Option Bytes
  payload : Bytes
  headers : Option (List (String × String))
  attempts : ℕ := 0
  availableAt : Time
  createdAt : Time
  processedAt : Option Time := none
  lastError : Option String := none

structure EventDeadLetterRecord where
  originalTopic : String
  key : Option Bytes
  payload : Bytes
  headers : Option (List (String × String))
  attempts : ℕ
  lastError : String
  deadLetteredAt : Time
  originalCreatedAt : Time

def encodeHeaders (headers : Option (List (String × Bytes))) : Option (List (String × String)) :=
  (headers.filter (· ≠ [])).map fun hs => hs.map fun h => (h.1, b64encode h.2)

/-- `none` when a value is not base64. -/
def decodeHeaders (headers : Option (List (String × String))) :
    Option (Option (List (String × Bytes))) :=
  match headers.filter (· ≠ []) with
  | none => some none
  | some hs => (hs.mapM fun h => (b64decode h.2).map fun value => (h.1, value)).map some

/-- A record with the number of the event it stands for. -/
structure Tracked (α : Type) where
  event : ℕ
  record : α

/-- How `publish` ends and what the clock shows then. -/
structure Outcome where
  error : Option String
  now : Time

structure Publish where
  event : ℕ
  message : EventBusMessage
  outcome : Outcome

structure Database where
  outbox : List (Tracked EventOutboxRecord) := []
  deadLetter : List (Tracked EventDeadLetterRecord) := []
  enqueued : List Event := []
  published : List Publish := []

/-- The primary key of `event_outbox`. -/
def rowId (t : Tracked EventOutboxRecord) : ℕ := t.record.id

/-- `id` is the one the database hands out, `now` the clock of the call. -/
def newRecord (event : Event) (availableAt : Option Time) (id : ℕ) (now : Time) :
    EventOutboxRecord where
  id := id
  topic := event.topic
  key := event.key
  payload := event.payload
  headers := encodeHeaders event.headers
  availableAt := availableAt.getD now
  createdAt := now

def enqueue (event : Event) (availableAt : Option Time) (id : ℕ) (now : Time) (db : Database) :
    Database :=
  { db with
    outbox := db.outbox ++ [⟨db.enqueued.length, newRecord event availableAt id now⟩]
    enqueued := db.enqueued ++ [event] }

def claimBatch (limit : ℕ) (now : Time) (db : Database) : List (Tracked EventOutboxRecord) :=
  ((db.outbox.filter fun t =>
    t.record.processedAt = none ∧ t.record.availableAt ≤ now).insertionSort
      fun a b => rowId a ≤ rowId b).take limit

def processedRecord (now : Time) (r : EventOutboxRecord) : EventOutboxRecord :=
  { r with processedAt := some now, lastError := none }

def markProcessed (now : Time) (t : Tracked EventOutboxRecord) (db : Database) : Database :=
  { db with outbox := Table.update rowId ⟨t.event, processedRecord now t.record⟩ db.outbox }

def truncated (error : String) : String := String.ofList (error.toList.take 1024)

def failedRecord (error : String) (r : EventOutboxRecord) : EventOutboxRecord :=
  { r with attempts := r.attempts + 1, lastError := some (truncated error) }

def deadLetterRecord (error : String) (now : Time) (r : EventOutboxRecord) :
    EventDeadLetterRecord where
  originalTopic := r.topic
  key := r.key
  payload := r.payload
  headers := r.headers
  attempts := r.attempts
  lastError := truncated error
  deadLetteredAt := now
  originalCreatedAt := r.createdAt

def moveToDeadLetterQueue (error : String) (now : Time) (t : Tracked EventOutboxRecord)
    (db : Database) : Database :=
  { db with
    deadLetter := db.deadLetter ++ [⟨t.event, deadLetterRecord error now t.record⟩]
    outbox := Table.delete rowId (rowId t) db.outbox }

def markFailed (error : String) (retryDelay : Time) (maxAttempts : ℕ) (now : Time)
    (t : Tracked EventOutboxRecord) (db : Database) : Database :=
  let r := failedRecord error t.record
  if r.attempts ≥ maxAttempts then moveToDeadLetterQueue error now ⟨t.event, r⟩ db
  else
    { db with
      outbox := Table.update rowId ⟨t.event, { r with availableAt := now + retryDelay }⟩ db.outbox }

structure Settings where
  batchSize : ℕ := 50
  initialRetryDelay : Time := 5
  maxRetryDelay : Time := 300
  maxAttempts : ℕ := 5

def computeRetryDelay (c : Settings) (attempt : ℕ) : Time :=
  min (c.initialRetryDelay * 2 ^ (attempt - 1)) c.maxRetryDelay

def message (r : EventOutboxRecord) : Option EventBusMessage :=
  (decodeHeaders r.headers).map fun headers => ⟨r.topic, r.payload, headers, r.key⟩

variable (c : Settings)

/-- The loop body of `flush_once`.  `none` when the message cannot be built, which ends the pass
and rolls it back. -/
def dispatch (outcome : ℕ → Outcome) (db : Database) (t : Tracked EventOutboxRecord) :
    Option Database :=
  (message t.record).map fun m =>
    let o := outcome t.record.id
    let db := { db with published := db.published ++ [⟨t.event, m, o⟩] }
    match o.error with
    | some error =>
      markFailed error (computeRetryDelay c (t.record.attempts + 1)) c.maxAttempts o.now t db
    | none => markProcessed o.now t db

/-- The number of processed records and the database after the pass. -/
def flushOnce (now : Time) (outcome : ℕ → Outcome) (db : Database) : Option (ℕ × Database) :=
  let records := claimBatch c.batchSize now db
  (records.foldlM (dispatch c outcome) db).map fun db =>
    (records.countP fun t => (outcome t.record.id).error.isNone, db)

inductive Label
  | enqueue (event : Event) (availableAt : Option Time) (id : ℕ) (now : Time)
  | flush (now : Time) (outcome : ℕ → Outcome)

def step (db : Database) : Label → Option Database
  | .enqueue event availableAt id now =>
    if id ∈ db.outbox.map rowId then none else some (enqueue event availableAt id now db)
  | .flush now outcome => (flushOnce c now outcome db).map (·.2)

end Marty.Infrastructure.Outbox
