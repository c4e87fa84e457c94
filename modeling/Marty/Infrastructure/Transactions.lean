import Marty.Infrastructure.Ledger

/-! Transactions of the services: `session_scope`, the batches of `TransactionManager` and the
events that `BaseService.publish_event` records beside the rows of a service.  The operations of a
batch do not commit by themselves; a pass of the dispatcher commits. -/

namespace Marty.Infrastructure.Transactions

open Lib Lib.Run Outbox

/-- An exception, with its `str`. -/
structure Raised where
  text : String
  /-- An `Exception`; a `CancelledError` is none. -/
  ordinary : Bool := true
  deriving DecidableEq

/-- How a `commit` ends.  One that raises may have taken effect all the same. -/
inductive Commit
  | returns
  | raises (error : Raised) (applied : Bool)
  deriving DecidableEq

def Commit.applied : Commit → Bool
  | .returns => true
  | .raises _ applied => applied

/-- How the calls on a session end. -/
structure Ends where
  commit : Commit := .returns
  rollback : Option Raised := none
  close : Option Raised := none

variable {σ α : Type}

/-- What leaves the `except` clause. -/
def Ends.handled (ends : Ends) (error : Raised) : Raised :=
  if error.ordinary then ends.rollback.getD error else error

/-- What a body does with the database it sees. -/
abbrev Body (σ α : Type) := σ → Except Raised α × σ

def sessionScope (ends : Ends) (body : Body σ α) (db : σ) : Except Raised α × σ :=
  let (result, pending) := body db
  let (result, db) : Except Raised α × σ :=
    match result with
    | .ok value =>
      match ends.commit with
      | .returns => (.ok value, pending)
      | .raises error applied => (.error (ends.handled error), if applied then pending else db)
    | .error error => (.error (ends.handled error), db)
  match ends.close with
  | none => (result, db)
  | some error => (.error error, db)

/-- `raise MartyDatabaseError(...) from e` -/
def Raised.wrapped (message : String) (error : Raised) : Raised :=
  if error.ordinary then { text := message ++ error.text } else error

/-- The loop of `execute_batch`. -/
def executeAll (name : String) : ℕ → List (Body σ α) → Body σ (List α)
  | _, [], db => (.ok [], db)
  | i, operation :: operations, db =>
    match operation db with
    | (.error error, db) =>
      (.error (error.wrapped ("Batch operation " ++ toString i ++ " failed in " ++ name ++ ": ")),
        db)
    | (.ok result, db) =>
      match executeAll name (i + 1) operations db with
      | (.error error, db) => (.error error, db)
      | (.ok results, db) => (.ok (result :: results), db)

/-- `transaction`, around a body. -/
def transaction (name : String) (ends : Ends) (body : Body σ α) (db : σ) : Except Raised α × σ :=
  match sessionScope ends body db with
  | (.ok value, db) => (.ok value, db)
  | (.error error, db) => (.error (error.wrapped ("Transaction " ++ name ++ " failed: ")), db)

def executeBatch (name : String) (operations : List (Body σ α)) (ends : Ends) :
    σ → Except Raised (List α) × σ :=
  transaction name ends (executeAll name 0 operations)

/-- The rows of the services beside the tables of the outbox. -/
structure Store (ρ : Type) where
  rows : ρ
  outbox : Database := {}

inductive Action (ρ α : Type)
  | rows (f : ρ → Except Raised α × ρ)
  /-- `publish_event` in the session of the batch; `none` when the payload cannot be serialized,
  which is logged.  `id` is the one that the database hands out at the commit. -/
  | publishEvent (event : Option Event) (id : ℕ) (now : Time)

variable {ρ : Type}

def Action.body : Action ρ α → Body (Store ρ) (Option α)
  | .rows f, store =>
    match f store.rows with
    | (.ok value, after) => (.ok (some value), { store with rows := after })
    | (.error error, after) => (.error error, { store with rows := after })
  | .publishEvent none _ _, store => (.ok none, store)
  | .publishEvent (some event) id now, store =>
    (.ok none, { store with outbox := enqueue event none id now store.outbox })

inductive Transaction (ρ α : Type)
  | batch (name : String) (actions : List (Action ρ α))
  /-- `publish_event` without a session. -/
  | publishEvent (event : Event) (id : ℕ) (now : Time)

def Transaction.actions : Transaction ρ α → List (Action ρ α)
  | .batch _ actions => actions
  | .publishEvent event id now => [.publishEvent (some event) id now]

/-- What `publish_event` makes of an error: it is logged. -/
def swallowed (result : Except Raised (Option α)) : Except Raised (List (Option α)) :=
  match result with
  | .ok _ => .ok [none]
  | .error error => if error.ordinary then .ok [none] else .error error

def Transaction.execute (ends : Ends) : Transaction ρ α → Store ρ →
    Except Raised (List (Option α)) × Store ρ
  | .batch name actions, store => executeBatch name (actions.map Action.body) ends store
  | .publishEvent event id now, store =>
    let (result, store) :=
      sessionScope ends (Action.publishEvent (some event) id now).body store
    (swallowed result, store)

/-- A transaction and what its caller sees. -/
structure Done (ρ α : Type) where
  transaction : Transaction ρ α
  ends : Ends
  result : Except Raised (List (Option α))

structure System (ρ α : Type) where
  store : Store ρ
  done : List (Done ρ α) := []

inductive Label (ρ α : Type)
  | transact (transaction : Transaction ρ α) (ends : Ends)
  | flush (now : Time) (outcome : ℕ → Outcome)

/-- The rows of the outbox that an action adds. -/
def Action.recorded : Action ρ α → Option (Event × ℕ × Time)
  | .publishEvent (some event) id now => some (event, id, now)
  | _ => none

def Transaction.recorded (transaction : Transaction ρ α) : List (Event × ℕ × Time) :=
  transaction.actions.filterMap Action.recorded

/-- The keys are new. -/
def Fresh (recorded : List (Event × ℕ × Time)) (db : Database) : Prop :=
  (recorded.map (·.2.1)).Nodup ∧ ∀ entry ∈ recorded, entry.2.1 ∉ db.outbox.map rowId

instance (recorded : List (Event × ℕ × Time)) (db : Database) : Decidable (Fresh recorded db) :=
  inferInstanceAs (Decidable (_ ∧ _))

def step (c : Settings) (s : System ρ α) : Label ρ α → Option (System ρ α)
  | .transact transaction ends =>
    if Fresh transaction.recorded s.store.outbox then
      let (result, store) := transaction.execute ends s.store
      some { store := store, done := s.done ++ [⟨transaction, ends, result⟩] }
    else none
  | .flush now outcome =>
    (flushOnce c now outcome s.store.outbox).map fun r =>
      { s with store := { s.store with outbox := r.2 } }

variable {ends : Ends} {body : Body σ α} {db : σ}

/-- All or nothing: what the body has done takes effect when it returns and the commit is
applied. -/
theorem sessionScope_snd (ends : Ends) (body : Body σ α) (db : σ) :
    (sessionScope ends body db).2 =
      if (body db).1.isOk ∧ ends.commit.applied then (body db).2 else db := by
  unfold sessionScope
  cases hbody : body db with
  | mk result pending =>
    cases result <;> cases hcommit : ends.commit <;> cases hclose : ends.close <;>
      simp [Except.isOk, Except.toBool, Commit.applied]

theorem sessionScope_eq_ok {value : α} (h : (sessionScope ends body db).1 = .ok value) :
    (body db).1 = .ok value ∧ ends.commit = .returns := by
  unfold sessionScope at h
  cases hbody : body db with
  | mk result pending =>
    rw [hbody] at h
    cases result <;> cases hcommit : ends.commit <;> cases hclose : ends.close <;>
      simp_all

theorem transaction_snd (name : String) (ends : Ends) (body : Body σ α) (db : σ) :
    (transaction name ends body db).2 =
      if (body db).1.isOk ∧ ends.commit.applied then (body db).2 else db := by
  rw [← sessionScope_snd, transaction]
  split <;> simp [*]

theorem transaction_eq_ok {name : String} {value : α}
    (h : (transaction name ends body db).1 = .ok value) :
    (body db).1 = .ok value ∧ ends.commit = .returns := by
  refine sessionScope_eq_ok ?_
  unfold transaction at h
  split at h
  case h_1 heq => rw [heq, ← h]
  case h_2 => cases h

/-- An error of the loop names the operation that has failed, after those before it have
returned. -/
theorem executeAll_error {name : String} {i : ℕ} {operations : List (Body σ α)} {error : Raised}
    (h : (executeAll name i operations db).1 = .error error) :
    ∃ before operation after db' raised, operations = before ++ operation :: after ∧
      (∃ results, executeAll name i before db = (.ok results, db')) ∧
      (operation db').1 = .error raised ∧
      error = raised.wrapped
        ("Batch operation " ++ toString (i + before.length) ++ " failed in " ++ name ++ ": ") := by
  induction operations generalizing i db error with
  | nil => cases h
  | cons operation operations ih =>
    unfold executeAll at h
    split at h
    case h_1 raised db' hrun =>
      obtain rfl := Except.error.inj h
      exact ⟨[], operation, operations, db, raised, rfl, ⟨[], rfl⟩, by rw [hrun], rfl⟩
    case h_2 result db' hrun =>
      split at h
      case h_2 => cases h
      case h_1 error' db'' hrest =>
        obtain rfl := Except.error.inj h
        obtain ⟨before, failed, after, db₁, raised, rfl, ⟨results, hbefore⟩, hfailed, rfl⟩ :=
          ih (by rw [hrest])
        refine ⟨operation :: before, failed, after, db₁, raised, rfl, ⟨result :: results, ?_⟩,
          hfailed, ?_⟩
        · simp [executeAll, hrun, hbefore]
        · rw [List.length_cons, Nat.add_assoc, Nat.add_comm 1]

/-- The rows of the services after the actions of a transaction; `none` when one raises. -/
def rowsAfter : List (Action ρ α) → ρ → Option ρ
  | [], rows => some rows
  | .rows f :: actions, rows =>
    match f rows with
    | (.ok _, after) => rowsAfter actions after
    | (.error _, _) => none
  | .publishEvent .. :: actions, rows => rowsAfter actions rows

def enqueueAll (recorded : List (Event × ℕ × Time)) (db : Database) : Database :=
  recorded.foldl (fun db entry => enqueue entry.1 none entry.2.1 entry.2.2 db) db

theorem isOk_map {β : Type} (f : α → β) (result : Except Raised α) :
    (result.map f).isOk = result.isOk := by
  cases result <;> rfl

theorem executeAll_cons {operation : Body σ α} {operations : List (Body σ α)} {value : α} {db' : σ}
    (h : operation db = (.ok value, db')) (name : String) (i : ℕ) :
    executeAll name i (operation :: operations) db =
      ((executeAll name (i + 1) operations db').1.map (value :: ·),
        (executeAll name (i + 1) operations db').2) := by
  rw [executeAll, h]
  cases hrest : executeAll name (i + 1) operations db' with
  | mk result db'' => cases result <;> simp [hrest, Except.map]

variable {actions : List (Action ρ α)} {store : Store ρ} {rows : ρ}

/-- An action returns, and leaves the rest to the actions after it, or the transaction has no rows
to commit. -/
theorem body_cases (action : Action ρ α) (store : Store ρ) :
    (∃ value store', action.body store = (.ok value, store') ∧
      (∀ actions, rowsAfter (action :: actions) store.rows = rowsAfter actions store'.rows) ∧
      ∀ actions, enqueueAll ((action :: actions).filterMap Action.recorded) store.outbox =
        enqueueAll (actions.filterMap Action.recorded) store'.outbox) ∨
    ∃ error store', action.body store = (.error error, store') ∧
      ∀ actions, rowsAfter (action :: actions) store.rows = none := by
  cases action with
  | rows f =>
    cases hf : f store.rows with
    | mk result after =>
      cases result with
      | ok value =>
        refine .inl ⟨some value, { store with rows := after }, ?_, fun _ => ?_, fun _ => rfl⟩
        · simp [Action.body, hf]
        · simp [rowsAfter, hf]
      | error error =>
        refine .inr ⟨error, { store with rows := after }, ?_, fun _ => ?_⟩
        · simp [Action.body, hf]
        · simp [rowsAfter, hf]
  | publishEvent event id now =>
    cases event with
    | none => exact .inl ⟨none, store, rfl, fun _ => rfl, fun _ => rfl⟩
    | some event => exact .inl ⟨none, _, rfl, fun _ => rfl, fun _ => rfl⟩

theorem executeAll_of_some (h : rowsAfter actions store.rows = some rows) (name : String) (i : ℕ) :
    ∃ results, executeAll name i (actions.map Action.body) store =
      (.ok results, ⟨rows, enqueueAll (actions.filterMap Action.recorded) store.outbox⟩) := by
  induction actions generalizing i store with
  | nil =>
    obtain rfl := Option.some.inj h
    exact ⟨[], rfl⟩
  | cons action actions ih =>
    obtain ⟨value, store', hbody, hrows, houtbox⟩ | ⟨error, store', -, hrows⟩ :=
      body_cases action store
    · obtain ⟨results, hrest⟩ := ih ((hrows actions).symm.trans h) (i + 1)
      refine ⟨value :: results, ?_⟩
      rw [List.map_cons, executeAll_cons hbody, hrest, houtbox]
      rfl
    · cases (hrows actions).symm.trans h

theorem executeAll_of_none (h : rowsAfter actions store.rows = none) (name : String) (i : ℕ) :
    (executeAll name i (actions.map Action.body) store).1.isOk = false := by
  induction actions generalizing i store with
  | nil => cases h
  | cons action actions ih =>
    obtain ⟨value, store', hbody, hrows, -⟩ | ⟨error, store', hbody, -⟩ := body_cases action store
    · rw [List.map_cons, executeAll_cons hbody, isOk_map]
      exact ih ((hrows actions).symm.trans h) (i + 1)
    · rw [List.map_cons, executeAll, hbody]
      rfl

/-- The transaction takes effect on these rows. -/
def Done.takesEffect (rows : ρ) (done : Done ρ α) : Bool :=
  (rowsAfter done.transaction.actions rows).isSome ∧ done.ends.commit.applied

/-- The rows and the events of a service whose transactions run one after the other, each to its
end or not at all. -/
def replay (rows : ρ) (done : List (Done ρ α)) : ρ × List Event :=
  done.foldl (fun (rows, events) done =>
    if done.takesEffect rows then
      ((rowsAfter done.transaction.actions rows).getD rows,
        events ++ done.transaction.recorded.map (·.1))
    else (rows, events)) (rows, [])

theorem execute_snd (transaction : Transaction ρ α) (ends : Ends) (store : Store ρ) :
    (transaction.execute ends store).2 =
      match rowsAfter transaction.actions store.rows with
      | some rows =>
        if ends.commit.applied then ⟨rows, enqueueAll transaction.recorded store.outbox⟩ else store
      | none => store := by
  cases transaction with
  | batch name actions =>
    rw [Transaction.execute, executeBatch, transaction_snd]
    cases hrows : rowsAfter actions store.rows with
    | none => simp [Transaction.actions, hrows, executeAll_of_none hrows]
    | some rows =>
      obtain ⟨results, hall⟩ := executeAll_of_some hrows name 0
      simp [Transaction.actions, Transaction.recorded, hrows, hall, Except.isOk, Except.toBool]
  | publishEvent event id now =>
    simp only [Transaction.execute, sessionScope_snd]
    simp [Transaction.actions, Transaction.recorded, rowsAfter, Action.body, Action.recorded,
      enqueueAll, Except.isOk, Except.toBool]

section outbox

variable {c : Settings} {recorded : List (Event × ℕ × Time)} {outbox outbox' : Database}

theorem enqueueAll_enqueued (recorded : List (Event × ℕ × Time)) (outbox : Database) :
    (enqueueAll recorded outbox).enqueued = outbox.enqueued ++ recorded.map (·.1) := by
  induction recorded generalizing outbox with
  | nil => simp [enqueueAll]
  | cons entry recorded ih =>
    rw [enqueueAll, List.foldl_cons, ← enqueueAll, ih]
    simp [enqueue]

theorem enqueueAll_consistent (hmax : 1 ≤ c.maxAttempts) (hi : Ledger.Consistent c outbox)
    (hfresh : Fresh recorded outbox) : Ledger.Consistent c (enqueueAll recorded outbox) := by
  induction recorded generalizing outbox with
  | nil => exact hi
  | cons entry recorded ih =>
    obtain ⟨event, id, now⟩ := entry
    obtain ⟨hnodup, hnew⟩ := hfresh
    rw [List.map_cons, List.nodup_cons] at hnodup
    obtain ⟨hid, hnew⟩ := List.forall_mem_cons.mp hnew
    refine ih (Ledger.enqueue_consistent hmax hi event none now hid)
      ⟨hnodup.2, fun entry hmem => ?_⟩
    have hne : entry.2.1 ≠ id := fun heq =>
      hnodup.1 (List.mem_map.mpr ⟨entry, hmem, heq⟩)
    simpa [enqueue, rowId, newRecord, hne] using hnew entry hmem

theorem dispatch_enqueued {outcome : ℕ → Outcome} {t : Tracked EventOutboxRecord}
    (h : dispatch c outcome outbox t = some outbox') : outbox'.enqueued = outbox.enqueued := by
  obtain ⟨m, -, rfl⟩ := Option.map_eq_some_iff.mp h
  dsimp only
  split
  · rw [markFailed]
    split <;> rfl
  · rfl

theorem foldlM_enqueued {outcome : ℕ → Outcome} {records : List (Tracked EventOutboxRecord)}
    (h : records.foldlM (dispatch c outcome) outbox = some outbox') :
    outbox'.enqueued = outbox.enqueued := by
  induction records generalizing outbox with
  | nil =>
    obtain rfl := Option.some.inj h
    rfl
  | cons t records ih =>
    rw [List.foldlM_cons] at h
    obtain ⟨middle, hmiddle, h⟩ := Option.bind_eq_some_iff.mp h
    exact (ih h).trans (dispatch_enqueued hmiddle)

end outbox

/-- The books of the services and of the outbox. -/
structure Accounted (c : Settings) (initial : ρ) (s : System ρ α) : Prop where
  /-- The rows are there, and the events recorded, of the transactions that take effect, whole and
  in their order, and of no other. -/
  replayed : (s.store.rows, s.store.outbox.enqueued) = replay initial s.done
  /-- A batch that returns has taken effect. -/
  returned : ∀ before done after, s.done = before ++ done :: after →
    ∀ name actions, done.transaction = .batch name actions → done.result.isOk →
      done.takesEffect (replay initial before).1
  /-- An event is pending, published or a dead letter, and only events that are recorded are
  published. -/
  ledger : Ledger.Consistent c s.store.outbox

theorem replay_append (rows : ρ) (before : List (Done ρ α)) (done : Done ρ α) :
    replay rows (before ++ [done]) =
      if done.takesEffect (replay rows before).1 then
        ((rowsAfter done.transaction.actions (replay rows before).1).getD (replay rows before).1,
          (replay rows before).2 ++ done.transaction.recorded.map (·.1))
      else replay rows before := by
  simp [replay]

theorem executeBatch_isOk {name : String} (h : (executeBatch name (actions.map Action.body) ends
    store).1.isOk) : (rowsAfter actions store.rows).isSome ∧ ends.commit.applied := by
  cases hresult : (executeBatch name (actions.map Action.body) ends store).1 with
  | error error => simp [hresult, Except.isOk, Except.toBool] at h
  | ok results =>
    obtain ⟨hall, hcommit⟩ := transaction_eq_ok hresult
    refine ⟨?_, by rw [hcommit]; rfl⟩
    rw [Option.isSome_iff_ne_none]
    intro hnone
    have hfailed := executeAll_of_none hnone name 0
    rw [hall] at hfailed
    cases hfailed

theorem accounted_step {c : Settings} (hmax : 1 ≤ c.maxAttempts) {initial : ρ} {s s' : System ρ α}
    {l : Label ρ α} (hs : Accounted c initial s) (h : step c s l = some s') :
    Accounted c initial s' := by
  cases l with
  | flush now outcome =>
    obtain ⟨r, hflush, rfl⟩ := Option.map_eq_some_iff.mp h
    obtain ⟨n, outbox, hflush', hi⟩ := Ledger.flushOnce_consistent hs.ledger now outcome
    obtain rfl : r = (n, outbox) := Option.some.inj (hflush.symm.trans hflush')
    obtain ⟨db, hfold, heq⟩ := Option.map_eq_some_iff.mp hflush
    obtain ⟨-, rfl⟩ := Prod.mk.inj heq
    refine ⟨?_, hs.returned, hi⟩
    rw [← hs.replayed]
    exact congrArg _ (foldlM_enqueued hfold)
  | transact transaction ends =>
    simp only [step] at h
    split at h
    case isFalse => cases h
    case isTrue hfresh =>
      obtain rfl := Option.some.inj h
      have hstore := execute_snd transaction ends s.store
      refine ⟨?replayed, ?returned, ?ledger⟩
      case replayed =>
        dsimp only
        rw [replay_append, ← hs.replayed, hstore, Done.takesEffect]
        cases rowsAfter transaction.actions s.store.rows with
        | none => simp
        | some rows => cases ends.commit.applied <;> simp [enqueueAll_enqueued]
      case returned =>
        intro before done after hdone name actions htransaction hok
        rcases List.eq_nil_or_concat after with rfl | ⟨after, last, rfl⟩
        · obtain ⟨rfl, hlast⟩ := List.append_inj' hdone rfl
          obtain rfl := List.singleton_inj.mp hlast
          obtain rfl := htransaction
          rw [← hs.replayed]
          exact decide_eq_true (executeBatch_isOk hok)
        · rw [List.concat_eq_append, ← List.cons_append, ← List.append_assoc] at hdone
          exact hs.returned before done after (List.append_inj' hdone rfl).1 name actions
            htransaction hok
      case ledger =>
        dsimp only
        rw [hstore]
        split
        case h_2 => exact hs.ledger
        case h_1 rows _ =>
          split
          · exact enqueueAll_consistent hmax hs.ledger hfresh
          · exact hs.ledger

/-- A batch whose second operation raises after an event has been recorded, one whose commit is
applied and raises, and a pass of the dispatcher. -/
def brokenBatches : List (Label ℕ Unit) :=
  [.transact (.batch "issue" [.publishEvent (some ⟨"issued", [1], none, none⟩) 1 0,
      .rows fun rows => (.error ⟨"duplicate key", true⟩, rows + 1)]) {},
    .transact (.batch "revoke" [.rows fun rows => (.ok (), rows + 1),
      .publishEvent (some ⟨"revoked", [2], none, none⟩) 2 0])
      { commit := .raises ⟨"connection lost", true⟩ true },
    .flush 1 fun _ => ⟨none, 1⟩]

/-- Only the second one has taken effect. -/
example : (run (step {}) ⟨⟨0, {}⟩, []⟩ brokenBatches).map (fun s =>
    (s.store.rows, s.store.outbox.published.map (·.message.topic))) = some (1, ["revoked"]) := by
  decide +kernel

end Marty.Infrastructure.Transactions
