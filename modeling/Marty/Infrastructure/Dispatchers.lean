import Marty.Lib.Pool
import Marty.Infrastructure.Outbox

/-! Several dispatchers over one database.  A `flush_once` is a transaction that claims a batch,
publishes its records one after the other and commits; what it changes is seen by the others when
it has committed.  The passes of all dispatchers interleave at these steps. -/

namespace Marty.Infrastructure.Dispatchers

open Lib Lib.Pool Lib.Run Outbox

/-- The dialects for which `claim_batch` asks for `FOR UPDATE SKIP LOCKED`. -/
def locking (dialect : String) : Bool := dialect ∈ ["postgresql", "mysql", "mariadb"]

/-- A record as it was loaded, with the end of its `publish`. -/
structure Settled where
  loaded : Tracked EventOutboxRecord
  outcome : Outcome

inductive Phase
  | working | committed | rolledBack
  deriving DecidableEq

structure Flush where
  settings : Settings
  todo : List (Tracked EventOutboxRecord)
  settled : List Settled := []
  phase : Phase := .working

/-- The records of the pass, which it keeps locked while it works. -/
def Flush.held (f : Flush) : List ℕ := f.settled.map (rowId ·.loaded) ++ f.todo.map rowId

/-- `publishers` has the pass and the record of every publish. -/
structure System where
  db : Database := {}
  flushes : List Flush := []
  publishers : List (ℕ × ℕ) := []

def System.locked (s : System) : List ℕ :=
  (s.flushes.filter (·.phase = .working)).flatMap Flush.held

/-- What `claim_batch` chooses from. -/
def System.visible (skipLocked : Bool) (s : System) : Database :=
  if skipLocked then { s.db with outbox := s.db.outbox.filter (rowId · ∉ s.locked) } else s.db

/-- A column of an object, written to its row when it has been changed. -/
def column {α : Type} [DecidableEq α] (loaded new row : α) : α := if new = loaded then row else new

def writeBack (loaded new row : EventOutboxRecord) : EventOutboxRecord :=
  { row with
    attempts := column loaded.attempts new.attempts row.attempts
    availableAt := column loaded.availableAt new.availableAt row.availableAt
    processedAt := column loaded.processedAt new.processedAt row.processedAt
    lastError := column loaded.lastError new.lastError row.lastError }

/-- `none` when the row is gone, which is a `StaleDataError`. -/
def flushUpdate (loaded : Tracked EventOutboxRecord) (new : EventOutboxRecord) (db : Database) :
    Option Database :=
  if rowId loaded ∈ db.outbox.map rowId then
    some { db with
      outbox := Table.modify rowId (rowId loaded)
        (fun row => { row with record := writeBack loaded.record new row.record }) db.outbox }
  else none

/-- What `mark_processed` or `mark_failed` has left in the session for the commit. -/
def flushSettled (c : Settings) (db : Database) (x : Settled) : Option Database :=
  match x.outcome.error with
  | none => flushUpdate x.loaded (processedRecord x.outcome.now x.loaded.record) db
  | some error =>
    let r := failedRecord error x.loaded.record
    if r.attempts ≥ c.maxAttempts then
      some (moveToDeadLetterQueue error x.outcome.now ⟨x.loaded.event, r⟩ db)
    else
      flushUpdate x.loaded
        { r with
          availableAt := x.outcome.now + computeRetryDelay c (x.loaded.record.attempts + 1) } db

inductive Label
  | enqueue (event : Event) (availableAt : Option Time) (id : ℕ) (now : Time)
  | claim (c : Settings) (now : Time)
  | publish (i : ℕ) (outcome : Outcome)
  | commit (i : ℕ)
  /-- The pass is cancelled, or raises. -/
  | rollback (i : ℕ)

def working (s : System) (i : ℕ) : Option Flush := s.flushes[i]?.filter (·.phase = .working)

def step (skipLocked : Bool) (s : System) : Label → Option System
  | .enqueue event availableAt id now =>
    if id ∈ s.db.outbox.map rowId then none
    else some { s with db := enqueue event availableAt id now s.db }
  | .claim c now =>
    some { s with
      flushes := s.flushes ++ [{
        settings := c
        todo := claimBatch c.batchSize now (s.visible skipLocked) }] }
  | .publish i outcome => do
    let f ← working s i
    let t :: todo := f.todo | none
    let m ← message t.record
    some {
      db := { s.db with published := s.db.published ++ [⟨t.event, m, outcome⟩] }
      flushes := s.flushes.set i { f with todo := todo, settled := f.settled ++ [⟨t, outcome⟩] }
      publishers := s.publishers ++ [(i, rowId t)] }
  | .commit i => do
    let f ← working s i
    let [] := f.todo | none
    let db ← f.settled.foldlM (flushSettled f.settings) s.db
    some { s with db := db, flushes := s.flushes.set i { f with phase := .committed } }
  | .rollback i => do
    let f ← working s i
    some { s with flushes := s.flushes.set i { f with phase := .rolledBack } }

/-! What a commit does to the table. -/

def Processed (outbox : List (Tracked EventOutboxRecord)) (id : ℕ) : Prop :=
  ∃ row ∈ outbox, rowId row = id ∧ row.record.processedAt ≠ none

def Unprocessed (outbox : List (Tracked EventOutboxRecord)) (id : ℕ) : Prop :=
  ∀ row ∈ outbox, rowId row = id → row.record.processedAt = none

theorem Unprocessed.not_processed {outbox : List (Tracked EventOutboxRecord)} {id : ℕ}
    (h : Unprocessed outbox id) : ¬ Processed outbox id := by
  rintro ⟨row, hrow, hid, hne⟩
  exact hne (h row hrow hid)

/-- The records of `ids` are marked as processed, and nothing else changes. -/
structure Marks (ids : List ℕ) (outbox outbox' : List (Tracked EventOutboxRecord)) : Prop where
  keys : outbox'.map rowId = outbox.map rowId
  marked : ∀ id ∈ ids, Processed outbox' id
  processed : ∀ {id}, Processed outbox id → Processed outbox' id
  unprocessed : ∀ {id}, id ∉ ids → Unprocessed outbox id → Unprocessed outbox' id

theorem Marks.nil (outbox : List (Tracked EventOutboxRecord)) : Marks [] outbox outbox :=
  ⟨rfl, nofun, fun h => h, fun _ h => h⟩

theorem Marks.cons {id : ℕ} {ids : List ℕ} {a b c : List (Tracked EventOutboxRecord)}
    (h : Marks [id] a b) (h' : Marks ids b c) : Marks (id :: ids) a c where
  keys := h'.keys.trans h.keys
  marked := by
    intro j hj
    rcases List.mem_cons.mp hj with rfl | hj
    · exact h'.processed (h.marked j (List.mem_singleton_self j))
    · exact h'.marked j hj
  processed := fun hp => h'.processed (h.processed hp)
  unprocessed := by
    intro j hj hp
    obtain ⟨hne, hj⟩ := not_or.mp (mt List.mem_cons.mpr hj)
    exact h'.unprocessed hj (h.unprocessed (by simpa using hne) hp)

/-- A record that was not processed when it was loaded, and has been published since. -/
def Delivered (x : Settled) : Prop :=
  x.loaded.record.processedAt = none ∧ x.outcome.error = none

theorem marks_flushSettled {c : Settings} {db db' : Database} {x : Settled} (hx : Delivered x)
    (h : flushSettled c db x = some db') : Marks [rowId x.loaded] db.outbox db'.outbox := by
  simp only [flushSettled, hx.2, flushUpdate] at h
  split at h
  case isFalse => cases h
  case isTrue hmem =>
    obtain rfl := Option.some.inj h
    have hwritten : ∀ row : EventOutboxRecord,
        (writeBack x.loaded.record (processedRecord x.outcome.now x.loaded.record)
          row).processedAt ≠ none := by
      intro row
      simp [writeBack, column, processedRecord, hx.1]
    obtain ⟨row, hrow, hid⟩ := List.mem_map.mp hmem
    refine ⟨Table.map_key_modify fun _ => rfl, ?_, ?_, ?_⟩
    · intro id hid'
      obtain rfl := List.mem_singleton.mp hid'
      exact ⟨_, Table.mem_modify.mpr (.inl ⟨row, hrow, hid, rfl⟩), hid, hwritten _⟩
    · rintro id ⟨row, hrow, rfl, hne⟩
      by_cases hid : rowId row = rowId x.loaded
      · exact ⟨_, Table.mem_modify.mpr (.inl ⟨row, hrow, hid, rfl⟩), rfl, hwritten _⟩
      · exact ⟨row, Table.mem_modify.mpr (.inr ⟨hrow, hid⟩), rfl, hne⟩
    · intro id hne hun row hrow hid
      rcases Table.mem_modify.mp hrow with ⟨b, -, hb, rfl⟩ | ⟨hrow, -⟩
      · exact absurd (List.mem_singleton.mpr (hid.symm.trans hb)) hne
      · exact hun row hrow hid

theorem marks_foldlM {c : Settings} {xs : List Settled} {db db' : Database}
    (hxs : ∀ x ∈ xs, Delivered x) (h : xs.foldlM (flushSettled c) db = some db') :
    Marks (xs.map (rowId ·.loaded)) db.outbox db'.outbox := by
  induction xs generalizing db with
  | nil =>
    obtain rfl := Option.some.inj h
    exact .nil _
  | cons x xs ih =>
    rw [List.foldlM_cons] at h
    obtain ⟨mid, hmid, h⟩ := Option.bind_eq_some_iff.mp h
    exact (marks_flushSettled (hxs x List.mem_cons_self) hmid).cons
      (ih (fun x hx => hxs x (List.mem_cons_of_mem _ hx)) h)

/-! With locks, a record that a pass works on is out of reach of the others. -/

variable {s s' : System} {i j : ℕ} {f g : Flush}

theorem working_eq_some : working s i = some f ↔ s.flushes[i]? = some f ∧ f.phase = .working := by
  simp [working, Option.filter_eq_some_iff]

theorem mem_locked {id : ℕ} (hf : working s i = some f) (hid : id ∈ f.held) : id ∈ s.locked := by
  obtain ⟨hi, hphase⟩ := working_eq_some.mp hf
  refine List.mem_flatMap.mpr ⟨f, List.mem_filter.mpr ⟨List.mem_of_getElem? hi, ?_⟩, hid⟩
  simpa using hphase

/-- The passes after one of them has moved. -/
theorem working_set (h : s'.flushes = s.flushes.set i g) (hf : working s' j = some f) :
    j = i ∧ f = g ∧ g.phase = .working ∨ j ≠ i ∧ working s j = some f := by
  obtain ⟨hj, hphase⟩ := working_eq_some.mp hf
  rw [h] at hj
  rcases getElem?_set_cases hj with ⟨rfl, rfl⟩ | ⟨hne, hj⟩
  · exact .inl ⟨rfl, rfl, hphase⟩
  · exact .inr ⟨hne, working_eq_some.mpr ⟨hj, hphase⟩⟩

theorem working_append (h : s'.flushes = s.flushes ++ [g]) (hf : working s' j = some f) :
    j = s.flushes.length ∧ f = g ∨ working s j = some f := by
  obtain ⟨hj, hphase⟩ := working_eq_some.mp hf
  rw [h] at hj
  rcases getElem?_append_cases hj with ⟨rfl, rfl⟩ | hj
  · exact .inl ⟨rfl, rfl⟩
  · exact .inr (working_eq_some.mpr ⟨hj, hphase⟩)

structure Exclusive (s : System) : Prop where
  keys : (s.db.outbox.map rowId).Nodup
  settled : ∀ {i f}, working s i = some f → ∀ x ∈ f.settled, Delivered x
  todo : ∀ {i f}, working s i = some f → ∀ t ∈ f.todo,
    t.record.processedAt = none ∧ Unprocessed s.db.outbox (rowId t)
  disjoint : ∀ {i j f g id}, working s i = some f → working s j = some g → id ∈ f.held →
    id ∈ g.held → i = j
  published : ∀ {i id}, (i, id) ∈ s.publishers →
    (∃ f, working s i = some f ∧ id ∈ f.settled.map (rowId ·.loaded)) ∨ Processed s.db.outbox id
  single : ∀ {i j id}, (i, id) ∈ s.publishers → (j, id) ∈ s.publishers → i = j

theorem Exclusive.enqueue (hs : Exclusive s) {event : Event} {availableAt : Option Time} {id : ℕ}
    {now : Time} (hid : id ∉ s.db.outbox.map rowId) :
    Exclusive { s with db := Outbox.enqueue event availableAt id now s.db } where
  keys := by
    have hne : ∀ a ∈ s.db.outbox, rowId a ≠ id := by simpa using hid
    simpa [Outbox.enqueue, List.nodup_append, hs.keys, rowId, newRecord] using hne
  settled := hs.settled
  todo := by
    intro i f hf t ht
    obtain ⟨hloaded, hun⟩ := hs.todo hf t ht
    refine ⟨hloaded, fun row hrow hrowId => ?_⟩
    rcases List.mem_append.mp hrow with hrow | hrow
    · exact hun row hrow hrowId
    · obtain rfl := List.mem_singleton.mp hrow
      rfl
  disjoint := hs.disjoint
  published := by
    intro i id hpub
    rcases hs.published hpub with hf | ⟨row, hrow, hid, hne⟩
    · exact .inl hf
    · exact .inr ⟨row, List.mem_append_left _ hrow, hid, hne⟩
  single := hs.single

/-- A batch claimed with `SKIP LOCKED`. -/
theorem mem_claimBatch {c : Settings} {now : Time} {t : Tracked EventOutboxRecord}
    (ht : t ∈ claimBatch c.batchSize now (s.visible true)) :
    t ∈ s.db.outbox ∧ t.record.processedAt = none ∧ rowId t ∉ s.locked := by
  have hmem := List.mem_of_mem_take ht
  simp only [System.visible, if_true, List.mem_insertionSort, List.mem_filter,
    decide_eq_true_eq] at hmem
  exact ⟨hmem.1.1, hmem.2.1, hmem.1.2⟩

theorem Exclusive.claim (hs : Exclusive s) (c : Settings) (now : Time) :
    Exclusive { s with
      flushes := s.flushes ++ [{
        settings := c
        todo := claimBatch c.batchSize now (s.visible true) }] } where
  keys := hs.keys
  settled := by
    intro i f hf x hx
    rcases working_append rfl hf with ⟨-, rfl⟩ | hf
    · cases hx
    · exact hs.settled hf x hx
  todo := by
    intro i f hf t ht
    rcases working_append rfl hf with ⟨-, rfl⟩ | hf
    · obtain ⟨hmem, hnone, -⟩ := mem_claimBatch ht
      refine ⟨hnone, fun row hrow hid => ?_⟩
      rwa [List.inj_on_of_nodup_map hs.keys hrow hmem hid]
    · exact hs.todo hf t ht
  disjoint := by
    -- The new pass holds nothing that is locked.
    have hnew : ∀ {j g id}, working s j = some g → id ∈ g.held →
        id ∉ (claimBatch c.batchSize now (s.visible true)).map rowId := by
      intro j g id hg hid hclaimed
      obtain ⟨t, ht, rfl⟩ := List.mem_map.mp hclaimed
      exact (mem_claimBatch ht).2.2 (mem_locked hg hid)
    intro i j f g id hf hg hid hid'
    rcases working_append rfl hf with ⟨rfl, rfl⟩ | hf
    · rcases working_append rfl hg with ⟨rfl, -⟩ | hg
      · rfl
      · exact absurd hid (hnew hg hid')
    · rcases working_append rfl hg with ⟨rfl, rfl⟩ | hg
      · exact absurd hid' (hnew hf hid)
      · exact hs.disjoint hf hg hid hid'
  published := by
    intro i id hpub
    rcases hs.published hpub with ⟨f, hf, hid⟩ | h
    · obtain ⟨hi, hphase⟩ := working_eq_some.mp hf
      exact .inl ⟨f, working_eq_some.mpr ⟨getElem?_append_old hi _, hphase⟩, hid⟩
    · exact .inr h
  single := hs.single

theorem working_set_ne (h : s'.flushes = s.flushes.set i g) (hne : j ≠ i)
    (hf : working s j = some f) : working s' j = some f := by
  obtain ⟨hj, hphase⟩ := working_eq_some.mp hf
  refine working_eq_some.mpr ⟨?_, hphase⟩
  rw [h, List.getElem?_set_ne (Ne.symm hne), hj]

theorem working_set_self (h : s'.flushes = s.flushes.set i g) (hf : working s i = some f)
    (hphase : g.phase = .working) : working s' i = some g := by
  refine working_eq_some.mpr ⟨?_, hphase⟩
  rw [h, getElem?_set_self (working_eq_some.mp hf).1]

theorem Exclusive.publish (hs : Exclusive s) (hf : working s i = some f)
    {t : Tracked EventOutboxRecord} {todo : List (Tracked EventOutboxRecord)}
    (htodo : f.todo = t :: todo) {outcome : Outcome} (houtcome : outcome.error = none)
    (houtbox : s'.db.outbox = s.db.outbox)
    (hflushes : s'.flushes =
      s.flushes.set i { f with todo := todo, settled := f.settled ++ [⟨t, outcome⟩] })
    (hpublishers : s'.publishers = s.publishers ++ [(i, rowId t)]) : Exclusive s' := by
  obtain ⟨hloaded, hun⟩ := hs.todo hf t (htodo ▸ List.mem_cons_self)
  have hheld : ∀ {id}, id ∈ Flush.held
      { f with todo := todo, settled := f.settled ++ [⟨t, outcome⟩] } → id ∈ f.held := by
    intro id hid
    simpa [Flush.held, htodo] using hid
  have hphase : f.phase = .working := (working_eq_some.mp hf).2
  -- Whoever has published the record before is this pass: another one would hold it still or
  -- would have left it processed.
  have hbefore : ∀ {j}, (j, rowId t) ∈ s.publishers → j = i := by
    intro j hpub
    rcases hs.published hpub with ⟨g, hg, hid⟩ | hp
    · exact hs.disjoint hg hf (List.mem_append_left _ hid) (by simp [Flush.held, htodo])
    · exact absurd hp hun.not_processed
  constructor
  case keys => exact houtbox ▸ hs.keys
  case settled =>
    intro j g hg x hx
    rcases working_set hflushes hg with ⟨-, rfl, -⟩ | ⟨-, hg⟩
    · rcases List.mem_append.mp hx with hx | hx
      · exact hs.settled hf x hx
      · obtain rfl := List.mem_singleton.mp hx
        exact ⟨hloaded, houtcome⟩
    · exact hs.settled hg x hx
  case todo =>
    intro j g hg u hu
    rw [houtbox]
    rcases working_set hflushes hg with ⟨-, rfl, -⟩ | ⟨-, hg⟩
    · exact hs.todo hf u (htodo ▸ List.mem_cons_of_mem t hu)
    · exact hs.todo hg u hu
  case disjoint =>
    intro j k g g' id hg hg' hid hid'
    rcases working_set hflushes hg with ⟨rfl, rfl, -⟩ | ⟨-, hg⟩
    · rcases working_set hflushes hg' with ⟨rfl, -, -⟩ | ⟨-, hg'⟩
      · rfl
      · exact hs.disjoint hf hg' (hheld hid) hid'
    · rcases working_set hflushes hg' with ⟨rfl, rfl, -⟩ | ⟨-, hg'⟩
      · exact hs.disjoint hg hf hid (hheld hid')
      · exact hs.disjoint hg hg' hid hid'
  case published =>
    intro j id hpub
    rw [houtbox]
    rw [hpublishers] at hpub
    rcases List.mem_append.mp hpub with hpub | hpub
    · rcases hs.published hpub with ⟨g, hg, hid⟩ | hp
      · refine .inl ?_
        by_cases hj : j = i
        · subst hj
          obtain rfl : f = g := Option.some.inj (hf.symm.trans hg)
          exact ⟨_, working_set_self hflushes hf hphase, by simp [hid]⟩
        · exact ⟨g, working_set_ne hflushes hj hg, hid⟩
      · exact .inr hp
    · obtain ⟨rfl, rfl⟩ := Prod.mk.inj (List.mem_singleton.mp hpub)
      exact .inl ⟨_, working_set_self hflushes hf hphase, by simp⟩
  case single =>
    intro j k id hj hk
    rw [hpublishers, List.mem_append, List.mem_singleton] at hj hk
    rcases hj with hj | hj
    · rcases hk with hk | hk
      · exact hs.single hj hk
      · obtain ⟨rfl, rfl⟩ := Prod.mk.inj hk
        exact hbefore hj
    · obtain ⟨rfl, rfl⟩ := Prod.mk.inj hj
      rcases hk with hk | hk
      · exact (hbefore hk).symm
      · exact (Prod.mk.inj hk).1.symm

theorem Exclusive.commit (hs : Exclusive s) (hf : working s i = some f)
    (hmarks : Marks (f.settled.map (rowId ·.loaded)) s.db.outbox s'.db.outbox)
    (hflushes : s'.flushes = s.flushes.set i { f with phase := .committed })
    (hpublishers : s'.publishers = s.publishers) : Exclusive s' := by
  have hother : ∀ {j g}, working s' j = some g → j ≠ i ∧ working s j = some g := by
    intro j g hg
    rcases working_set hflushes hg with ⟨-, -, hphase⟩ | h
    · cases hphase
    · exact h
  constructor
  case keys => exact hmarks.keys ▸ hs.keys
  case settled => exact fun hg => hs.settled (hother hg).2
  case todo =>
    intro j g hg t ht
    obtain ⟨hne, hg⟩ := hother hg
    obtain ⟨hloaded, hun⟩ := hs.todo hg t ht
    refine ⟨hloaded, hmarks.unprocessed (fun hid => hne ?_) hun⟩
    exact hs.disjoint hg hf (List.mem_append_right _ (List.mem_map_of_mem ht))
      (List.mem_append_left _ hid)
  case disjoint => exact fun hg hg' => hs.disjoint (hother hg).2 (hother hg').2
  case published =>
    intro j id hpub
    rcases hs.published (hpublishers ▸ hpub) with ⟨g, hg, hid⟩ | hp
    · by_cases hj : j = i
      · subst hj
        obtain rfl : f = g := Option.some.inj (hf.symm.trans hg)
        exact .inr (hmarks.marked id hid)
      · exact .inl ⟨g, working_set_ne hflushes hj hg, hid⟩
    · exact .inr (hmarks.processed hp)
  case single => exact hpublishers ▸ hs.single

/-- Every publish succeeds and every transaction commits. -/
def Succeeds (_ : System) : Label → Prop
  | .publish _ outcome => outcome.error = none
  | .rollback _ => False
  | _ => True

theorem exclusive_step {l : Label} (hs : Exclusive s) (hl : Succeeds s l)
    (h : step true s l = some s') : Exclusive s' := by
  cases l with
  | enqueue event availableAt id now =>
    simp only [step] at h
    split at h
    case isTrue => cases h
    case isFalse hid =>
      obtain rfl := Option.some.inj h
      exact hs.enqueue hid
  | claim c now =>
    obtain rfl := Option.some.inj h
    exact hs.claim c now
  | publish i outcome =>
    obtain ⟨f, hf, h⟩ := Option.bind_eq_some_iff.mp h
    split at h
    case h_1 t todo htodo =>
      obtain ⟨m, -, h⟩ := Option.bind_eq_some_iff.mp h
      obtain rfl := Option.some.inj h
      exact hs.publish hf htodo hl rfl rfl rfl
    case h_2 => cases h
  | commit i =>
    obtain ⟨f, hf, h⟩ := Option.bind_eq_some_iff.mp h
    split at h
    case h_1 =>
      obtain ⟨db, hdb, h⟩ := Option.bind_eq_some_iff.mp h
      obtain rfl := Option.some.inj h
      exact hs.commit hf (marks_foldlM (hs.settled hf) hdb) rfl rfl
    case h_2 => cases h
  | rollback i => exact hl.elim

theorem exclusive_of_run {ls : List Label} (hg : Guarded (step true) Succeeds {} ls)
    (hr : run (step true) {} ls = some s) : Exclusive s := by
  refine run_invariant (fun _ _ _ => exclusive_step) ?_ hg hr
  constructor <;> simp [working]

/-- Two passes claim the same record before either has committed. -/
def claimedTwice : List Label :=
  [.enqueue { topic := "credential.issued", payload := [1] } none 1 0, .claim {} 0, .claim {} 0,
    .publish 0 ⟨none, 1⟩, .publish 1 ⟨none, 1⟩, .commit 0, .commit 1]

theorem claimedTwice_run :
    (run (step false) {} claimedTwice).map (·.publishers) = some [(0, 1), (1, 1)] := by
  decide +kernel

theorem claimedTwice_succeeds : Guarded (step false) Succeeds {} claimedTwice :=
  guarded_of_mem (by simp [claimedTwice, Succeeds]) _

/-- In every run in which every publish succeeds and every transaction commits, no record is
published by two passes: this is so exactly for the dialects that lock what they claim. -/
theorem published_once_iff (dialect : String) :
    (∀ {ls : List Label} {s : System}, Guarded (step (locking dialect)) Succeeds {} ls →
      run (step (locking dialect)) {} ls = some s →
      ∀ {i j id : ℕ}, (i, id) ∈ s.publishers → (j, id) ∈ s.publishers → i = j) ↔
      dialect = "postgresql" ∨ dialect = "mysql" ∨ dialect = "mariadb" := by
  have hlocking : dialect = "postgresql" ∨ dialect = "mysql" ∨ dialect = "mariadb" ↔
      locking dialect = true := by
    simp [locking]
  rw [hlocking]
  constructor
  · intro honce
    by_contra hno
    rw [Bool.not_eq_true] at hno
    rw [hno] at honce
    obtain ⟨s, hr, hpublishers⟩ := Option.map_eq_some_iff.mp claimedTwice_run
    have hsame : (0 : ℕ) = 1 :=
      @honce _ _ claimedTwice_succeeds hr 0 1 1 (by simp [hpublishers]) (by simp [hpublishers])
    cases hsame
  · intro hyes ls s hg hr i j id
    rw [hyes] at hg hr
    exact (exclusive_of_run hg hr).single

/-- Over SQLite two passes publish the same record. -/
theorem published_twice_over_sqlite :
    Guarded (step (locking "sqlite")) Succeeds {} claimedTwice ∧
      ∃ s, run (step (locking "sqlite")) {} claimedTwice = some s ∧
        (0, 1) ∈ s.publishers ∧ (1, 1) ∈ s.publishers := by
  have hlocking : locking "sqlite" = false := by decide
  rw [hlocking]
  obtain ⟨s, hr, hpublishers⟩ := Option.map_eq_some_iff.mp claimedTwice_run
  exact ⟨claimedTwice_succeeds, s, hr, by simp [hpublishers], by simp [hpublishers]⟩

end Marty.Infrastructure.Dispatchers
