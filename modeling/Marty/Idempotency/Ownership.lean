import Marty.Idempotency.Redis

/-! Whose lock a request extends or deletes.  The script compares and deletes at once; the renewal
task, and the release without the script, read first and act later. -/

namespace Marty.Idempotency.Ownership

open Lib Lib.Run Lib.Pool Redis

/-- The request has seen its token in the lock and is about to extend or to delete the lock. -/
inductive Pending (t : Thread) (token : String) : Prop
  | extend : t.renewal = .expire token → Pending t token
  | delete {result : Result} : t.phase = .releaseDelete token result → Pending t token

/-- The step extends or deletes the lock, for the request with the token. -/
inductive Touches (s : System) : Label → String → Prop
  | renewExpire {i : Nat} {t : Thread} {token : String} (ht : s.threads[i]? = some t)
      (hrenewal : t.renewal = .expire token) : Touches s (.renewExpire i) token
  | releaseDelete {i : Nat} {t : Thread} {token : String} {result : Result}
      (ht : s.threads[i]? = some t) (hphase : t.phase = .releaseDelete token result) :
    Touches s (.releaseDelete i) token
  | release {i : Nat} {t : Thread} {token : String} {result : Result}
      (ht : s.threads[i]? = some t) (hphase : t.phase = .release token result)
      (hlock : lockToken s.lock = some token) : Touches s (.release i) token

/-- The lock is not that of another request. -/
def OwnOrFree (s : System) (token : String) : Prop := ∀ payload ∈ s.lock, payload.token = token

/-- Whatever a request does next, it touches no other request's lock. -/
def Safe (s : System) : Prop := ∀ l token, Touches s l token → OwnOrFree s token

def waits (t : Thread) : Bool :=
  (match t.renewal with
    | .expire _ => true
    | _ => false) ||
  match t.phase with
  | .releaseDelete _ _ => true
  | _ => false

/-- When a request takes the lock, no other is between its read and its `EXPIRE` or `DEL`. -/
def Undisturbed (s : System) : Label → Prop
  | .tryLock i token => step s (.tryLock i token) ≠ none → s.lock = none →
      ∀ (j : Nat) (t : Thread), j ≠ i → s.threads[j]? = some t → waits t = false
  | _ => True

theorem waits_iff {t : Thread} : waits t = true ↔ ∃ token, Pending t token := by
  constructor
  · intro h
    rcases Bool.or_eq_true_iff.mp h with h | h
    · split at h
      case h_1 token hrenewal => exact ⟨token, .extend hrenewal⟩
      case h_2 => cases h
    · split at h
      case h_1 token result hphase => exact ⟨token, .delete hphase⟩
      case h_2 => cases h
  · rintro ⟨token, hrenewal | hphase⟩
    · simp [waits, hrenewal]
    · simp [waits, hphase]

theorem ownOrFree_of_lockToken {s : System} {token : String} (h : lockToken s.lock = some token) :
    OwnOrFree s token := by
  intro payload hpayload
  rw [hpayload] at h
  exact Option.some.inj h

theorem safe_iff {s : System} : Safe s ↔ ∀ {i : Nat} {t : Thread} {token : String},
    s.threads[i]? = some t → Pending t token → OwnOrFree s token := by
  constructor
  · rintro h i t token ht (hrenewal | hphase)
    · exact h _ _ (.renewExpire ht hrenewal)
    · exact h _ _ (.releaseDelete ht hphase)
  · rintro h l token (⟨ht, hrenewal⟩ | ⟨ht, hphase⟩ | ⟨ht, hphase, hlock⟩)
    · exact h ht (.extend hrenewal)
    · exact h ht (.delete hphase)
    · exact ownOrFree_of_lockToken hlock

/-! The tokens of the requests. -/

def phaseToken : Phase → Option String
  | .callNext token | .collect token _ | .writeData token _ | .stopRenewal token _
  | .release token _ | .releaseDelete token _ => some token
  | _ => none

def renewalToken : Renewal → Option String
  | .get token | .expire token => some token
  | _ => none

/-- The token of the phase or of the renewal task. -/
def Has (t : Thread) (token : String) : Prop :=
  phaseToken t.phase = some token ∨ renewalToken t.renewal = some token

/-- The requests have tokens that `uuid4` has given. -/
def Known (s : System) : Prop :=
  ∀ (i : Nat) (t : Thread) (token : String), s.threads[i]? = some t → Has t token →
    token ∈ s.tokens

theorem Pending.has {t : Thread} {token : String} (h : Pending t token) : Has t token := by
  cases h with
  | extend h => exact .inr (by rw [h]; rfl)
  | delete h => exact .inl (by rw [h]; rfl)

theorem phaseToken_afterReadData (data : Option CachedPayload) (requestHash : String) :
    phaseToken (afterReadData data requestHash) = none := by
  unfold afterReadData
  split
  · split <;> rfl
  · rfl

theorem phaseToken_afterReadLock (lock : Option LockPayload) (requestHash : String) :
    phaseToken (afterReadLock lock requestHash) = none := by
  unfold afterReadLock
  split
  · split <;> rfl
  · rfl

theorem phaseToken_afterCallNext (token : String) (result : Called) :
    phaseToken (afterCallNext token result) = some token := by
  cases result with
  | returned r =>
    simp only [afterCallNext]
    split <;> rfl
  | raised => rfl

theorem phaseToken_afterFault {phase phase' : Phase} (h : afterFault phase = some phase')
    {token : String} (htoken : phaseToken phase' = some token) : phaseToken phase = some token := by
  cases phase with
  | writeData _ _ =>
    cases h
    exact htoken
  | readData | tryLock | readLock | release | releaseDelete =>
    cases h
    cases htoken
  | _ => cases h

theorem renewalToken_afterRenewFault {renewal renewal' : Renewal}
    (h : afterRenewFault renewal = some renewal') : renewalToken renewal' = none := by
  cases renewal with
  | get _ | expire _ =>
    cases h
    rfl
  | _ => cases h

/-- A request that moves keeps its token, or has none any more. -/
theorem Known.set {s s' : System} {i : Nat} {t t' : Thread} (hs : Known s)
    (ht : s.threads[i]? = some t) (hthreads : s'.threads = s.threads.set i t')
    (htokens : s'.tokens = s.tokens)
    (hphase : ∀ token, phaseToken t'.phase = some token → phaseToken t.phase = some token)
    (hrenewal : ∀ token, renewalToken t'.renewal = some token →
      renewalToken t.renewal = some token) : Known s' := by
  intro j u token hj hu
  rw [hthreads] at hj
  rw [htokens]
  rcases getElem?_set_cases hj with ⟨rfl, rfl⟩ | ⟨-, hj⟩
  · exact hs _ _ _ ht (hu.imp (hphase token) (hrenewal token))
  · exact hs _ _ _ hj hu

theorem Known.take {s s' : System} {i : Nat} {t t' : Thread} {token : String} (hs : Known s)
    (ht : s.threads[i]? = some t) (hthreads : s'.threads = s.threads.set i t')
    (htokens : s'.tokens = token :: s.tokens)
    (hhas : ∀ token', Has t' token' → Has t token' ∨ token' = token) : Known s' := by
  intro j u token' hj hu
  rw [hthreads] at hj
  rw [htokens]
  rcases getElem?_set_cases hj with ⟨rfl, rfl⟩ | ⟨-, hj⟩
  · rcases hhas token' hu with hold | rfl
    · exact List.mem_cons_of_mem _ (hs _ _ _ ht hold)
    · exact List.mem_cons_self
  · exact List.mem_cons_of_mem _ (hs _ _ _ hj hu)

theorem step_known {s s' : System} {l : Label} (hs : Known s) (h : step s l = some s') :
    Known s' := by
  cases steps_of_step h with
  | arrive requestHash =>
    intro j u token hj hu
    rcases getElem?_append_cases hj with ⟨-, rfl⟩ | hj
    · rcases hu with hu | hu <;> cases hu
    · exact hs _ _ _ hj hu
  | readData ht hphase =>
    refine hs.set ht rfl rfl (fun token h => ?_) fun _ h => h
    cases (phaseToken_afterReadData _ _).symm.trans h
  | locked ht hphase hfresh hlock =>
    refine hs.take ht rfl rfl ?_
    rintro token' (h | h)
    · exact .inr (Option.some.inj h).symm
    · exact .inr (Option.some.inj h).symm
  | blocked ht hphase hfresh hlock =>
    refine hs.take ht rfl rfl ?_
    rintro token' (h | h)
    · cases h
    · exact .inl (.inr h)
  | readLock ht hphase =>
    refine hs.set ht rfl rfl (fun token h => ?_) fun _ h => h
    cases (phaseToken_afterReadLock _ _).symm.trans h
  | callNext result ht hphase =>
    refine hs.set ht rfl rfl (fun token h => ?_) fun _ h => h
    rw [hphase, ← h, phaseToken_afterCallNext]
    rfl
  | collect ok ht hphase =>
    refine hs.set ht rfl rfl (fun token h => ?_) fun _ h => h
    rw [hphase, ← h]
    cases ok <;> rfl
  | writeData ht hphase =>
    exact hs.set ht rfl rfl (fun token h => hphase ▸ h) fun _ h => h
  | stopRenewal ht hphase =>
    refine hs.set ht rfl rfl (fun token h => ?_) fun token h => ?_
    · split at h
      · cases h
      · exact hphase ▸ h
    · split at h
      · exact h
      · cases h
  | release ht hphase => exact hs.set ht rfl rfl (fun _ h => nomatch h) fun _ h => h
  | releaseGet ht hphase =>
    refine hs.set ht rfl rfl (fun token h => ?_) fun _ h => h
    dsimp only at h
    split at h
    · exact hphase ▸ h
    · cases h
  | releaseDelete ht hphase => exact hs.set ht rfl rfl (fun _ h => nomatch h) fun _ h => h
  | renewGet ht hrenewal =>
    refine hs.set ht rfl rfl (fun _ h => h) fun token h => ?_
    dsimp only at h
    split at h
    · exact hrenewal ▸ h
    · cases h
  | renewExpire ht hrenewal =>
    exact hs.set ht rfl rfl (fun _ h => h) fun _ h => hrenewal ▸ h
  | fault ht hfault =>
    exact hs.set ht rfl rfl (fun _ h => phaseToken_afterFault hfault h) fun _ h => h
  | renewFault ht hfault =>
    refine hs.set ht rfl rfl (fun _ h => h) fun token h => ?_
    cases (renewalToken_afterRenewFault hfault).symm.trans h
  | expireLock => exact hs
  | expireData => exact hs

/-! One step. -/

theorem afterReadData_ne (data : Option CachedPayload) (requestHash token : String)
    (result : Result) : afterReadData data requestHash ≠ .releaseDelete token result := fun h => by
  cases (phaseToken_afterReadData data requestHash).symm.trans (congrArg phaseToken h)

theorem afterReadLock_ne (lock : Option LockPayload) (requestHash token : String)
    (result : Result) : afterReadLock lock requestHash ≠ .releaseDelete token result := fun h => by
  cases (phaseToken_afterReadLock lock requestHash).symm.trans (congrArg phaseToken h)

theorem afterCallNext_ne (token token' : String) (called : Called) (result : Result) :
    afterCallNext token called ≠ .releaseDelete token' result := by
  cases called with
  | returned r =>
    simp only [afterCallNext]
    split <;> exact nofun
  | raised => exact nofun

theorem afterFault_ne {phase phase' : Phase} (h : afterFault phase = some phase') (token : String)
    (result : Result) : phase' ≠ .releaseDelete token result := by
  rintro rfl
  cases phase <;> cases h

/-- A step that takes no lock: who is about to act has been so before, or has just seen its
token. -/
theorem Safe.set {s s' : System} {i : Nat} {t t' : Thread} (hs : Safe s)
    (ht : s.threads[i]? = some t) (hthreads : s'.threads = s.threads.set i t')
    (hlock : ∀ payload ∈ s'.lock, payload ∈ s.lock)
    (hpending : ∀ token, Pending t' token → Pending t token ∨ lockToken s'.lock = some token) :
    Safe s' := by
  have hold {token : String} (h : OwnOrFree s token) : OwnOrFree s' token :=
    fun payload hpayload => h payload (hlock payload hpayload)
  refine safe_iff.mpr fun {j u token} hj hu => ?_
  rw [hthreads] at hj
  rcases getElem?_set_cases hj with ⟨-, rfl⟩ | ⟨-, hj⟩
  · rcases hpending token hu with hu | hu
    · exact hold (safe_iff.mp hs ht hu)
    · exact ownOrFree_of_lockToken hu
  · exact hold (safe_iff.mp hs hj hu)

/-- A step after which the request neither has just read the lock nor takes it. -/
theorem Safe.move {s s' : System} {i : Nat} {t t' : Thread} (hs : Safe s)
    (ht : s.threads[i]? = some t) (hthreads : s'.threads = s.threads.set i t')
    (hlock : ∀ payload ∈ s'.lock, payload ∈ s.lock)
    (hphase : ∀ token result, t'.phase ≠ .releaseDelete token result)
    (hrenewal : t'.renewal = t.renewal) : Safe s' := by
  refine hs.set ht hthreads hlock ?_
  rintro token (hu | hu)
  · exact .inl (.extend (hrenewal ▸ hu))
  · exact absurd hu (hphase _ _)

theorem safe_of_free {s : System} (h : s.lock = none) : Safe s := by
  refine safe_iff.mpr fun _ _ payload hpayload => ?_
  rw [h] at hpayload
  cases hpayload

theorem step_safe {s s' : System} {l : Label} (hs : Safe s) (hl : Undisturbed s l)
    (h : step s l = some s') : Safe s' := by
  cases steps_of_step h with
  | arrive requestHash =>
    refine safe_iff.mpr fun {j u token} hj hu => ?_
    rcases getElem?_append_cases hj with ⟨-, rfl⟩ | hj
    · rcases hu with hu | hu <;> cases hu
    · exact safe_iff.mp hs hj hu
  | readData ht hphase =>
    exact hs.move ht rfl (fun _ h => h) (afterReadData_ne _ _) rfl
  | locked ht hphase hfresh hlock =>
    -- nobody was about to act, and the request with the lock is not yet
    have hidle := hl (by rw [h]; exact Option.some_ne_none _) hlock
    refine safe_iff.mpr fun {j u token} hj hu => ?_
    rcases getElem?_set_cases hj with ⟨-, rfl⟩ | ⟨hne, hj⟩
    · rcases hu with hu | hu <;> cases hu
    · have hwaits := waits_iff.mpr ⟨token, hu⟩
      rw [hidle j u hne hj] at hwaits
      cases hwaits
  | blocked ht hphase hfresh hlock =>
    exact hs.move ht rfl (fun _ h => h) (fun _ _ h => nomatch h) rfl
  | readLock ht hphase =>
    exact hs.move ht rfl (fun _ h => h) (afterReadLock_ne _ _) rfl
  | callNext result ht hphase =>
    exact hs.move ht rfl (fun _ h => h) (fun token => afterCallNext_ne _ token result) rfl
  | collect ok ht hphase =>
    refine hs.move ht rfl (fun _ h => h) (fun _ _ h => ?_) rfl
    cases ok <;> cases h
  | writeData ht hphase =>
    exact hs.move ht rfl (fun _ h => h) (fun _ _ h => nomatch h) rfl
  | stopRenewal ht hphase =>
    refine hs.set ht rfl (fun _ h => h) ?_
    rintro token (hu | hu)
    · split at hu
      · exact .inl (.extend hu)
      · cases hu
    · split at hu <;> cases hu
  | release ht hphase =>
    refine hs.move ht rfl (fun payload hpayload => ?_) (fun _ _ h => nomatch h) rfl
    simp only [System.set] at hpayload
    split at hpayload
    · cases hpayload
    · exact hpayload
  | releaseGet ht hphase =>
    refine hs.set ht rfl (fun _ h => h) ?_
    rintro token (hu | hu)
    · exact .inl (.extend hu)
    · dsimp only at hu
      split at hu
      case isTrue hlock =>
        cases hu
        exact .inr hlock
      case isFalse => cases hu
  | releaseDelete ht hphase => exact safe_of_free rfl
  | renewGet ht hrenewal =>
    refine hs.set ht rfl (fun _ h => h) ?_
    rintro token (hu | hu)
    · dsimp only at hu
      split at hu
      case isTrue hlock =>
        cases hu
        exact .inr hlock
      case isFalse => cases hu
    · exact .inl (.delete hu)
  | renewExpire ht hrenewal =>
    refine hs.set ht rfl (fun _ h => h) ?_
    rintro token (hu | hu)
    · cases hu
    · exact .inl (.delete hu)
  | fault ht hfault =>
    exact hs.move ht rfl (fun _ h => h) (afterFault_ne hfault) rfl
  | renewFault ht hfault =>
    refine hs.set ht rfl (fun _ h => h) ?_
    rintro token (hu | hu)
    · cases (renewalToken_afterRenewFault hfault).symm.trans (congrArg renewalToken hu)
    · exact .inl (.delete hu)
  | expireLock => exact safe_of_free rfl
  | expireData => exact safe_iff.mpr fun ht hu => safe_iff.mp hs ht hu

/-- A lock that is taken while another request is about to act is not that request's. -/
theorem undisturbed_of_safe {s s' : System} {i : Nat} {token : String} (hknown : Known s)
    (h : step s (.tryLock i token) = some s') (hfree : s.lock = none) (hs : Safe s') {j : Nat}
    {u : Thread} (hne : j ≠ i) (hj : s.threads[j]? = some u) : waits u = false := by
  by_contra hwaits
  obtain ⟨token', hpending⟩ := waits_iff.mp (Bool.not_eq_false _ ▸ hwaits)
  cases steps_of_step h with
  | locked ht hphase hfresh hlock =>
    have hother : token ≠ token' := by
      rintro rfl
      exact hfresh (hknown _ _ _ hj hpending.has)
    refine hother (safe_iff.mp hs (i := j) ?_ hpending _ rfl)
    exact (List.getElem?_set_ne hne.symm).trans hj
  | blocked ht hphase hfresh hlock => simp [hfree] at hlock

theorem undisturbed_iff {s : System} (l : Label) (hs : Known s ∧ Safe s) :
    Undisturbed s l ↔ ∀ s', step s l = some s' → Known s' ∧ Safe s' := by
  constructor
  · intro hl s' h
    exact ⟨step_known hs.1 h, step_safe hs.2 hl h⟩
  · intro hnext
    cases l with
    | tryLock i token =>
      intro hstep hfree j u hne hj
      obtain ⟨s', h⟩ := Option.ne_none_iff_exists'.mp hstep
      exact undisturbed_of_safe hs.1 h hfree (hnext s' h).2 hne hj
    | _ => trivial

/-- In no state that a run reaches is a request about to extend or to delete the lock of another,
exactly when in each of its steps that take the lock no other request has read the lock without
having acted. -/
theorem safe_iff_undisturbed (ls : List Label) :
    (∀ n s, run step {} (ls.take n) = some s → Safe s) ↔ Guarded step Undisturbed {} ls := by
  have hinit : Known {} ∧ Safe {} := ⟨fun _ _ _ h => absurd h (by simp), safe_of_free rfl⟩
  rw [← forall_take_iff_guarded (fun _ l hs => undisturbed_iff l hs) hinit]
  constructor
  · intro hsafe n s hr
    exact ⟨run_preserves (fun _ _ _ => step_known) hinit.1 hr, hsafe n s hr⟩
  · intro h n s hr
    exact (h n s hr).2

/-- The lock of the first request expires between the read and the `EXPIRE` of its renewal, and the
second request takes it. -/
def expiredRun : List Label :=
  [.arrive "h", .readData 0, .tryLock 0 "a", .renewGet 0, .expireLock, .arrive "h", .readData 1,
    .tryLock 1 "b"]

theorem renewal_extends_other : ∃ s, run step {} expiredRun = some s ∧
    Touches s (.renewExpire 0) "a" ∧ s.lock = some ⟨"h", "b"⟩ ∧ ¬ Safe s := by
  have htouches {s : System} (h : run step {} expiredRun = some s) :
      Touches s (.renewExpire 0) "a" ∧ s.lock = some ⟨"h", "b"⟩ := by
    cases h
    exact ⟨.renewExpire rfl rfl, rfl⟩
  refine ⟨_, rfl, (htouches rfl).1, (htouches rfl).2, fun hs => ?_⟩
  exact absurd (hs _ _ (htouches rfl).1 _ (htouches rfl).2) (by decide)

end Marty.Idempotency.Ownership
