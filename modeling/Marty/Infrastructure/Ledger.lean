import Marty.Infrastructure.Outbox

/-! The ledger of the outbox: where each enqueued event is at a commit point, and what was
published for it. -/

namespace Marty.Infrastructure.Ledger

open Lib Lib.Base64 Lib.Run Outbox

/-- The event as a message, with empty headers read as none. -/
def eventMessage (ev : Event) : EventBusMessage :=
  ⟨ev.topic, ev.payload, ev.headers.filter (· ≠ []), ev.key⟩

def deadLetterMessage (d : EventDeadLetterRecord) : Option EventBusMessage :=
  (decodeHeaders d.headers).map fun headers => ⟨d.originalTopic, d.payload, headers, d.key⟩

def failures (ps : List Publish) : ℕ := ps.countP (·.outcome.error.isSome)

def successes (ps : List Publish) : ℕ := ps.countP (·.outcome.error.isNone)

def lastFailure (ps : List Publish) : Option Time :=
  (ps.filter (·.outcome.error.isSome)).getLast?.map (·.outcome.now)

/-- The entry of one event, given its rows in the two tables and its publishes. -/
inductive Account (c : Settings) (ev : Event) :
    List (Tracked EventOutboxRecord) → List (Tracked EventDeadLetterRecord) → List Publish → Prop
  | pending {t : Tracked EventOutboxRecord} {ps : List Publish}
      (hmessage : message t.record = some (eventMessage ev))
      (hpending : t.record.processedAt = none)
      (hfailures : failures ps = t.record.attempts)
      (hattempts : t.record.attempts < c.maxAttempts)
      (hsuccesses : successes ps = 0)
      (hdelay : ∀ k, t.record.attempts = k + 1 → ∃ now, lastFailure ps = some now ∧
        t.record.availableAt = now + min c.maxRetryDelay (c.initialRetryDelay * 2 ^ k)) :
      Account c ev [t] [] ps
  | processed {t : Tracked EventOutboxRecord} {ps : List Publish}
      (hmessage : message t.record = some (eventMessage ev))
      (hprocessed : t.record.processedAt ≠ none)
      (hfailures : failures ps = t.record.attempts)
      (hsuccesses : successes ps = 1) :
      Account c ev [t] [] ps
  | deadLetter {d : Tracked EventDeadLetterRecord} {ps : List Publish}
      (hmessage : deadLetterMessage d.record = some (eventMessage ev))
      (hfailures : failures ps = c.maxAttempts)
      (hsuccesses : successes ps = 0) :
      Account c ev [] [d] ps

section publish

variable {ps : List Publish} {p : Publish}

theorem failures_append_error (h : p.outcome.error.isSome = true) :
    failures (ps ++ [p]) = failures ps + 1 := by
  simp [failures, List.countP_append, h]

theorem successes_append_error (h : p.outcome.error.isSome = true) :
    successes (ps ++ [p]) = successes ps := by
  have h : p.outcome.error.isNone = false := by simpa using h
  simp [successes, List.countP_append, h]

theorem lastFailure_append_error (h : p.outcome.error.isSome = true) :
    lastFailure (ps ++ [p]) = some p.outcome.now := by
  simp [lastFailure, List.filter_append, h]

theorem failures_append_none (h : p.outcome.error = none) :
    failures (ps ++ [p]) = failures ps := by
  simp [failures, List.countP_append, h]

theorem successes_append_none (h : p.outcome.error = none) :
    successes (ps ++ [p]) = successes ps + 1 := by
  simp [successes, List.countP_append, h]

end publish

theorem mapM_b64decode (hs : List (String × Bytes)) :
    (hs.map fun h => (h.1, b64encode h.2)).mapM
      (fun h => (b64decode h.2).map fun value => (h.1, value)) = some hs := by
  induction hs with
  | nil => rfl
  | cons h hs ih => simp [b64decode_b64encode, ih]

theorem decodeHeaders_encodeHeaders (headers : Option (List (String × Bytes))) :
    decodeHeaders (encodeHeaders headers) = some (headers.filter (· ≠ [])) := by
  unfold encodeHeaders decodeHeaders
  cases h : headers.filter (· ≠ []) with
  | none => rfl
  | some hs =>
    have hne : hs ≠ [] := by simpa using (Option.filter_eq_some_iff.mp h).2
    have hfilter : (some (hs.map fun h => (h.1, b64encode h.2))).filter (· ≠ []) =
        some (hs.map fun h => (h.1, b64encode h.2)) :=
      Option.filter_eq_some_iff.mpr ⟨rfl, by simpa using hne⟩
    simp only [Option.map_some, hfilter, mapM_b64decode]

theorem computeRetryDelay_succ (c : Settings) (k : ℕ) :
    computeRetryDelay c (k + 1) = min c.maxRetryDelay (c.initialRetryDelay * 2 ^ k) := by
  rw [computeRetryDelay, min_comm, Nat.add_sub_cancel]

section account

variable {c : Settings} {ev : Event} {t : Tracked EventOutboxRecord}
  {rows : List (Tracked EventOutboxRecord)} {dead : List (Tracked EventDeadLetterRecord)}
  {ps : List Publish}

/-- A pending row is the only entry of its event. -/
theorem Account.of_mem_pending (h : Account c ev rows dead ps) (ht : t ∈ rows)
    (hpending : t.record.processedAt = none) : rows = [t] ∧ dead = [] := by
  cases h with
  | pending =>
    obtain rfl := List.mem_singleton.mp ht
    exact ⟨rfl, rfl⟩
  | processed _ hprocessed =>
    obtain rfl := List.mem_singleton.mp ht
    exact absurd hpending hprocessed
  | deadLetter => simp at ht

theorem Account.markProcessed (h : Account c ev [t] [] ps) (hpending : t.record.processedAt = none)
    (p : Publish) (hp : p.outcome.error = none) :
    Account c ev [⟨t.event, processedRecord p.outcome.now t.record⟩] [] (ps ++ [p]) := by
  cases h with
  | processed _ hprocessed => exact absurd hpending hprocessed
  | pending hmessage _ hfailures _ hsuccesses _ =>
    refine .processed hmessage nofun ?_ ?_
    · rw [failures_append_none hp, hfailures]
      rfl
    · rw [successes_append_none hp, hsuccesses]

theorem Account.retry (h : Account c ev [t] [] ps) (hpending : t.record.processedAt = none)
    (p : Publish) {error : String} (hp : p.outcome.error = some error)
    (hless : t.record.attempts + 1 < c.maxAttempts) :
    Account c ev [⟨t.event, { failedRecord error t.record with
      availableAt := p.outcome.now + computeRetryDelay c (t.record.attempts + 1) }⟩] []
      (ps ++ [p]) := by
  have hp : p.outcome.error.isSome = true := by simp [hp]
  cases h with
  | processed _ hprocessed => exact absurd hpending hprocessed
  | pending hmessage _ hfailures _ hsuccesses _ =>
    refine .pending hmessage hpending ?_ hless ?_ ?_
    · rw [failures_append_error hp, hfailures]
      rfl
    · rw [successes_append_error hp, hsuccesses]
    · intro k hk
      have hk : t.record.attempts = k := Nat.succ.inj hk
      refine ⟨p.outcome.now, lastFailure_append_error hp, ?_⟩
      rw [← hk, ← computeRetryDelay_succ]

theorem Account.giveUp (h : Account c ev [t] [] ps) (hpending : t.record.processedAt = none)
    (p : Publish) {error : String} (hp : p.outcome.error = some error)
    (hmore : c.maxAttempts ≤ t.record.attempts + 1) :
    Account c ev [] [⟨t.event,
      deadLetterRecord error p.outcome.now (failedRecord error t.record)⟩] (ps ++ [p]) := by
  have hp : p.outcome.error.isSome = true := by simp [hp]
  cases h with
  | processed _ hprocessed => exact absurd hpending hprocessed
  | pending hmessage _ hfailures hattempts hsuccesses _ =>
    refine .deadLetter hmessage ?_ ?_
    · rw [failures_append_error hp, hfailures]
      omega
    · rw [successes_append_error hp, hsuccesses]

end account

/-- The rows and publishes of one event. -/
def outboxOf (db : Database) (e : ℕ) : List (Tracked EventOutboxRecord) :=
  db.outbox.filter (·.event = e)

def deadLetterOf (db : Database) (e : ℕ) : List (Tracked EventDeadLetterRecord) :=
  db.deadLetter.filter (·.event = e)

def publishedOf (db : Database) (e : ℕ) : List Publish := db.published.filter (·.event = e)

/-- Every enqueued event has its account, and the tables hold nothing else. -/
structure Consistent (c : Settings) (db : Database) : Prop where
  primaryKey : (db.outbox.map rowId).Nodup
  account : ∀ {e ev}, db.enqueued[e]? = some ev →
    Account c ev (outboxOf db e) (deadLetterOf db e) (publishedOf db e)
  outbox : ∀ t ∈ db.outbox, t.event < db.enqueued.length
  deadLetter : ∀ t ∈ db.deadLetter, t.event < db.enqueued.length
  published : ∀ p ∈ db.published, ∃ ev, db.enqueued[p.event]? = some ev ∧
    p.message = eventMessage ev

section concerns

variable {c : Settings} {db db' : Database} {e₀ : ℕ}

/-- A change that leaves every event but one alone. -/
structure Concerns (db db' : Database) (e₀ : ℕ) : Prop where
  enqueued : ∀ {e}, e ≠ e₀ → db'.enqueued[e]? = db.enqueued[e]?
  outbox : ∀ {e}, e ≠ e₀ → outboxOf db' e = outboxOf db e
  deadLetter : ∀ {e}, e ≠ e₀ → deadLetterOf db' e = deadLetterOf db e
  published : ∀ {e}, e ≠ e₀ → publishedOf db' e = publishedOf db e

/-- It is enough that the account of that event is in order. -/
theorem Concerns.consistent (h : Concerns db db' e₀) (hi : Consistent c db) {ev : Event}
    (hev : db'.enqueued[e₀]? = some ev) (hkey : (db'.outbox.map rowId).Nodup)
    (haccount : Account c ev (outboxOf db' e₀) (deadLetterOf db' e₀) (publishedOf db' e₀))
    (hmessage : ∀ p ∈ publishedOf db' e₀, p.message = eventMessage ev) : Consistent c db' := by
  have hlt : ∀ {e}, (e ≠ e₀ → e < db.enqueued.length) → e < db'.enqueued.length := by
    intro e he
    by_cases hne : e = e₀
    · rw [hne]
      exact (List.getElem?_eq_some_iff.mp hev).1
    · have hget := List.getElem?_eq_getElem (he hne)
      rw [← h.enqueued hne] at hget
      exact (List.getElem?_eq_some_iff.mp hget).1
  constructor
  case primaryKey => exact hkey
  case account =>
    intro e ev' he
    by_cases hne : e = e₀
    · subst hne
      obtain rfl : ev = ev' := by simpa [hev] using he
      exact haccount
    · rw [h.outbox hne, h.deadLetter hne, h.published hne]
      exact hi.account (h.enqueued hne ▸ he)
  case outbox =>
    intro t ht
    refine hlt fun hne => ?_
    have ht : t ∈ outboxOf db' t.event := by simp [outboxOf, ht]
    rw [h.outbox hne] at ht
    exact hi.outbox t (List.mem_of_mem_filter ht)
  case deadLetter =>
    intro d hd
    refine hlt fun hne => ?_
    have hd : d ∈ deadLetterOf db' d.event := by simp [deadLetterOf, hd]
    rw [h.deadLetter hne] at hd
    exact hi.deadLetter d (List.mem_of_mem_filter hd)
  case published =>
    intro p hp
    have hp : p ∈ publishedOf db' p.event := by simp [publishedOf, hp]
    by_cases hne : p.event = e₀
    · exact ⟨ev, hne ▸ hev, hmessage p (hne ▸ hp)⟩
    · rw [h.published hne] at hp
      rw [h.enqueued hne]
      exact hi.published p (List.mem_of_mem_filter hp)

/-- The messages published for one event. -/
theorem Consistent.message_of_mem (hi : Consistent c db) {ev : Event}
    (hev : db.enqueued[e₀]? = some ev) {p : Publish} (hp : p ∈ publishedOf db e₀) :
    p.message = eventMessage ev := by
  obtain ⟨hmem, hevent⟩ := List.mem_filter.mp hp
  obtain ⟨ev', hev', hmessage⟩ := hi.published p hmem
  obtain rfl : p.event = e₀ := by simpa using hevent
  obtain rfl : ev = ev' := by simpa [hev] using hev'
  exact hmessage

/-- A pending row is the account of its event. -/
theorem Consistent.pending_account (hi : Consistent c db) {t : Tracked EventOutboxRecord}
    (ht : t ∈ db.outbox) (hpending : t.record.processedAt = none) :
    ∃ ev, db.enqueued[t.event]? = some ev ∧ outboxOf db t.event = [t] ∧
      deadLetterOf db t.event = [] ∧ Account c ev [t] [] (publishedOf db t.event) ∧
      message t.record = some (eventMessage ev) := by
  have hev := List.getElem?_eq_getElem (hi.outbox t ht)
  have haccount := hi.account hev
  obtain ⟨hrows, hdead⟩ := haccount.of_mem_pending (by simp [outboxOf, ht]) hpending
  rw [hrows, hdead] at haccount
  refine ⟨_, hev, hrows, hdead, haccount, ?_⟩
  cases haccount with
  | pending hmessage => exact hmessage
  | processed hmessage => exact hmessage

end concerns

section dispatch

variable {c : Settings} {db db' : Database} {outcome : ℕ → Outcome} {t : Tracked EventOutboxRecord}
  {m : EventBusMessage}

/-- A publish leaves the row of its event written back, or a dead letter in its place, and the
account of the event in order. -/
theorem dispatch_cases (hm : message t.record = some m) (hpending : t.record.processedAt = none)
    (h : dispatch c outcome db t = some db') :
    db'.enqueued = db.enqueued ∧
      db'.published = db.published ++ [⟨t.event, m, outcome t.record.id⟩] ∧
      ((∃ r, r.id = t.record.id ∧ db'.deadLetter = db.deadLetter ∧
          db'.outbox = Table.update rowId ⟨t.event, r⟩ db.outbox ∧
          ∀ {ev ps}, Account c ev [t] [] ps →
            Account c ev [⟨t.event, r⟩] [] (ps ++ [⟨t.event, m, outcome t.record.id⟩])) ∨
        (∃ d, db'.deadLetter = db.deadLetter ++ [⟨t.event, d⟩] ∧
          db'.outbox = Table.delete rowId (rowId t) db.outbox ∧
          ∀ {ev ps}, Account c ev [t] [] ps →
            Account c ev [] [⟨t.event, d⟩] (ps ++ [⟨t.event, m, outcome t.record.id⟩]))) := by
  simp only [dispatch, hm, Option.map_some, Option.some.injEq] at h
  cases herror : (outcome t.record.id).error with
  | none =>
    rw [herror] at h
    subst h
    exact ⟨rfl, rfl, .inl ⟨processedRecord _ t.record, rfl, rfl, rfl,
      fun ha => ha.markProcessed hpending ⟨t.event, m, outcome t.record.id⟩ herror⟩⟩
  | some error =>
    simp only [herror, markFailed] at h
    split at h
    case isTrue hmore =>
      subst h
      exact ⟨rfl, rfl, .inr ⟨_, rfl, rfl,
        fun ha => ha.giveUp hpending ⟨t.event, m, outcome t.record.id⟩ herror hmore⟩⟩
    case isFalse hless =>
      subst h
      exact ⟨rfl, rfl, .inl ⟨{ failedRecord error t.record with availableAt := _ }, rfl, rfl, rfl,
        fun ha => ha.retry hpending ⟨t.event, m, outcome t.record.id⟩ herror
          (Nat.lt_of_not_le hless)⟩⟩

/-- One turn of the loop keeps the books, and every other row. -/
theorem dispatch_consistent (hi : Consistent c db) (ht : t ∈ db.outbox)
    (hpending : t.record.processedAt = none) (h : dispatch c outcome db t = some db') :
    Consistent c db' ∧ ∀ t' ∈ db.outbox, rowId t' ≠ rowId t → t' ∈ db'.outbox := by
  obtain ⟨ev, hev, hrows, hdead, haccount, hm⟩ := hi.pending_account ht hpending
  obtain ⟨henqueued, hpublished, hcases⟩ := dispatch_cases hm hpending h
  have hev' : db'.enqueued[t.event]? = some ev := by rw [henqueued]; exact hev
  have hsame : publishedOf db' t.event =
      publishedOf db t.event ++ [⟨t.event, eventMessage ev, outcome t.record.id⟩] := by
    simp [publishedOf, hpublished, List.filter_append]
  have hother : ∀ {e}, e ≠ t.event → publishedOf db' e = publishedOf db e := by
    intro e hne
    simp [publishedOf, hpublished, List.filter_append, hne.symm]
  have hmessage : ∀ p ∈ publishedOf db' t.event, p.message = eventMessage ev := by
    intro p hp
    rw [hsame, List.mem_append, List.mem_singleton] at hp
    obtain hp | rfl := hp
    · exact hi.message_of_mem hev hp
    · rfl
  obtain ⟨r, hid, hd, ho, hnew⟩ | ⟨d, hd, ho, hnew⟩ := hcases
  · have hkey : rowId ⟨t.event, r⟩ = rowId t := hid
    have hconcerns : Concerns db db' t.event := by
      refine ⟨fun _ => by rw [henqueued], ?_, fun _ => by rw [deadLetterOf, hd]; rfl, hother⟩
      intro e hne
      rw [outboxOf, ho]
      exact Table.filter_update_of_not hi.primaryKey ht hkey (by simpa using hne.symm)
        (by simpa using hne.symm)
    have hrow : outboxOf db' t.event = [⟨t.event, r⟩] := by
      rw [outboxOf, ho]
      exact Table.filter_update_of_eq_singleton hi.primaryKey ht hkey (by simp) hrows
    have hdead' : deadLetterOf db' t.event = [] := by rw [deadLetterOf, hd]; exact hdead
    refine ⟨hconcerns.consistent hi hev' ?_ ?_ hmessage, ?_⟩
    · rw [ho, Table.map_key_update]
      exact hi.primaryKey
    · rw [hrow, hdead', hsame]
      exact hnew haccount
    · intro t' ht' hne
      rw [ho]
      exact Table.mem_update_of_ne ht' (by rwa [hkey])
  · have hconcerns : Concerns db db' t.event := by
      refine ⟨fun _ => by rw [henqueued], ?_, ?_, hother⟩
      · intro e hne
        rw [outboxOf, ho]
        exact Table.filter_delete_of_not hi.primaryKey ht (by simpa using hne.symm)
      · intro e hne
        simp [deadLetterOf, hd, List.filter_append, hne.symm]
    have hrow : outboxOf db' t.event = [] := by
      rw [outboxOf, ho]
      exact Table.filter_delete_of_eq_singleton hrows
    have hdead' : deadLetterOf db' t.event = [⟨t.event, d⟩] := by
      unfold deadLetterOf at hdead
      simp [deadLetterOf, hd, List.filter_append, hdead]
    refine ⟨hconcerns.consistent hi hev' ?_ ?_ hmessage, ?_⟩
    · rw [ho]
      exact Table.nodup_delete hi.primaryKey
    · rw [hrow, hdead', hsame]
      exact hnew haccount
    · intro t' ht' hne
      rw [ho]
      exact Table.mem_delete_of_ne ht' hne

/-- A row of a consistent database always makes a message, so a pass is never rolled back. -/
theorem dispatch_isSome (hi : Consistent c db) (ht : t ∈ db.outbox)
    (hpending : t.record.processedAt = none) (outcome : ℕ → Outcome) :
    (dispatch c outcome db t).isSome = true := by
  obtain ⟨ev, -, -, -, -, hm⟩ := hi.pending_account ht hpending
  simp [dispatch, hm]

/-- The loop of `flush_once` over rows that are pending and distinct. -/
theorem foldlM_dispatch {records : List (Tracked EventOutboxRecord)} (hi : Consistent c db)
    (hmem : ∀ t ∈ records, t ∈ db.outbox ∧ t.record.processedAt = none)
    (hnodup : (records.map rowId).Nodup) (outcome : ℕ → Outcome) :
    ∃ db', records.foldlM (dispatch c outcome) db = some db' ∧ Consistent c db' := by
  induction records generalizing db with
  | nil => exact ⟨db, rfl, hi⟩
  | cons t records ih =>
    obtain ⟨ht, hpending⟩ := hmem t List.mem_cons_self
    obtain ⟨db', h⟩ := Option.isSome_iff_exists.mp (dispatch_isSome hi ht hpending outcome)
    obtain ⟨hi', hkept⟩ := dispatch_consistent hi ht hpending h
    obtain ⟨hnew, hnodup⟩ := List.nodup_cons.mp hnodup
    obtain ⟨db'', hfold, hi''⟩ := ih hi' (by
      intro t' ht'
      obtain ⟨hold, hpending'⟩ := hmem t' (List.mem_cons_of_mem _ ht')
      have hne : rowId t' ≠ rowId t := by
        intro hid
        exact hnew (hid ▸ List.mem_map_of_mem ht')
      exact ⟨hkept t' hold hne, hpending'⟩) hnodup
    exact ⟨db'', by simp [List.foldlM_cons, h, hfold], hi''⟩

theorem claimBatch_mem {limit : ℕ} {now : Time} (ht : t ∈ claimBatch limit now db) :
    t ∈ db.outbox ∧ t.record.processedAt = none := by
  have ht := List.mem_of_mem_take ht
  rw [List.mem_insertionSort, List.mem_filter, decide_eq_true_iff] at ht
  exact ⟨ht.1, ht.2.1⟩

theorem claimBatch_nodup {limit : ℕ} {now : Time} (h : (db.outbox.map rowId).Nodup) :
    ((claimBatch limit now db).map rowId).Nodup := by
  refine List.Nodup.sublist ((List.take_sublist _ _).map rowId) ?_
  rw [((List.perm_insertionSort _ _).map rowId).nodup_iff]
  exact h.sublist (List.filter_sublist.map rowId)

theorem flushOnce_consistent (hi : Consistent c db) (now : Time) (outcome : ℕ → Outcome) :
    ∃ n db', flushOnce c now outcome db = some (n, db') ∧ Consistent c db' := by
  have hmem : ∀ t ∈ claimBatch c.batchSize now db, t ∈ db.outbox ∧ t.record.processedAt = none :=
    fun _ => claimBatch_mem
  obtain ⟨db', hfold, hi'⟩ := foldlM_dispatch hi hmem (claimBatch_nodup hi.primaryKey) outcome
  exact ⟨_, db', by rw [flushOnce, hfold]; rfl, hi'⟩

end dispatch

section enqueue

variable {c : Settings} {db : Database}

/-- A number not yet given to an event has no rows and no publishes. -/
theorem Consistent.length_unused (hi : Consistent c db) :
    outboxOf db db.enqueued.length = [] ∧ deadLetterOf db db.enqueued.length = [] ∧
      publishedOf db db.enqueued.length = [] := by
  refine ⟨List.filter_eq_nil_iff.mpr ?_, List.filter_eq_nil_iff.mpr ?_,
    List.filter_eq_nil_iff.mpr ?_⟩
  · intro t ht
    have := hi.outbox t ht
    simpa using this.ne
  · intro t ht
    have := hi.deadLetter t ht
    simpa using this.ne
  · intro p hp
    obtain ⟨ev, hev, -⟩ := hi.published p hp
    have := (List.getElem?_eq_some_iff.mp hev).1
    simpa using this.ne

theorem enqueue_consistent (hmax : 1 ≤ c.maxAttempts) (hi : Consistent c db) (event : Event)
    (availableAt : Option Time) {id : ℕ} (now : Time) (hid : id ∉ db.outbox.map rowId) :
    Consistent c (enqueue event availableAt id now db) := by
  obtain ⟨houtbox, hdead, hpublished⟩ := hi.length_unused
  have hconcerns :
      Concerns db (enqueue event availableAt id now db) db.enqueued.length := by
    refine ⟨?_, ?_, fun _ => rfl, fun _ => rfl⟩
    · intro e hne
      obtain hlt | hgt := Nat.lt_or_gt_of_ne hne
      · exact List.getElem?_append_left hlt
      · rw [enqueue, List.getElem?_eq_none hgt.le,
          List.getElem?_eq_none (by simpa using Nat.succ_le_of_lt hgt)]
    · intro e hne
      simp [outboxOf, enqueue, List.filter_append, hne.symm]
  have hrow : outboxOf (enqueue event availableAt id now db) db.enqueued.length =
      [⟨db.enqueued.length, newRecord event availableAt id now⟩] := by
    unfold outboxOf at houtbox
    simp [outboxOf, enqueue, List.filter_append, houtbox]
  have hdead : deadLetterOf (enqueue event availableAt id now db) db.enqueued.length = [] := hdead
  have hpublished : publishedOf (enqueue event availableAt id now db) db.enqueued.length = [] :=
    hpublished
  refine @Concerns.consistent _ _ _ _ hconcerns hi event ?_ ?_ ?_ ?_
  · simp [enqueue]
  · have : (db.outbox.map rowId ++ [id]).Nodup := by
      simpa [List.nodup_append, hi.primaryKey] using hid
    simpa [enqueue, rowId, newRecord] using this
  · rw [hrow, hdead, hpublished]
    refine .pending ?_ rfl rfl hmax rfl nofun
    simp [message, newRecord, decodeHeaders_encodeHeaders, eventMessage]
  · simp [hpublished]

end enqueue

theorem step_consistent {c : Settings} (hmax : 1 ≤ c.maxAttempts) {db db' : Database} {l : Label}
    (hi : Consistent c db) (h : step c db l = some db') : Consistent c db' := by
  cases l with
  | enqueue event availableAt id now =>
    simp only [step] at h
    split at h
    case isTrue => cases h
    case isFalse hid =>
      obtain rfl := Option.some.inj h
      exact enqueue_consistent hmax hi event availableAt now hid
  | flush now outcome =>
    obtain ⟨n, db'', hflush, hi'⟩ := flushOnce_consistent hi now outcome
    obtain rfl : db'' = db' := by simpa [step, hflush] using h
    exact hi'

theorem consistent_empty (c : Settings) : Consistent c {} :=
  ⟨List.nodup_nil, by simp, by simp, by simp, by simp⟩

/-- After every run of committed transactions each event has exactly one entry, with the account
of its publishes, the tables hold no other entries, and every message published is the one that
was enqueued. -/
theorem ledger_of_run {c : Settings} (hmax : 1 ≤ c.maxAttempts) {ls : List Label} {db : Database}
    (hr : run (step c) {} ls = some db) :
    (∀ e ev, db.enqueued[e]? = some ev →
        Account c ev (outboxOf db e) (deadLetterOf db e) (publishedOf db e)) ∧
      (∀ p ∈ db.published, ∃ ev, db.enqueued[p.event]? = some ev ∧ p.message = eventMessage ev) ∧
      (∀ t ∈ db.outbox, t.event < db.enqueued.length) ∧
      ∀ t ∈ db.deadLetter, t.event < db.enqueued.length := by
  have hi : Consistent c db :=
    run_preserves (fun _ _ _ => step_consistent hmax) (consistent_empty c) hr
  exact ⟨fun _ _ => hi.account, hi.published, hi.outbox, hi.deadLetter⟩

/-- An event that fails once and is published on the second attempt. -/
def retriedRun : List Label :=
  [.enqueue { topic := "credential.issued", payload := [1], headers := some [("trace", [2])] }
      none 1 0,
    .flush 0 fun _ => ⟨some "broker down", 1⟩,
    .flush 6 fun _ => ⟨none, 7⟩]

theorem ledger_of_retriedRun :
    ∃ db, run (step {}) {} retriedRun = some db ∧ db.published.length = 2 ∧
      ∀ e ev, db.enqueued[e]? = some ev →
        Account {} ev (outboxOf db e) (deadLetterOf db e) (publishedOf db e) := by
  have hlength : (run (step {}) {} retriedRun).map (·.published.length) = some 2 := by
    decide +kernel
  obtain ⟨db, hr, hlength⟩ := Option.map_eq_some_iff.mp hlength
  exact ⟨db, hr, hlength, (ledger_of_run (by decide) hr).1⟩

end Marty.Infrastructure.Ledger
