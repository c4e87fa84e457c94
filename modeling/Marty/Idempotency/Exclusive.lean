import Marty.Idempotency.Redis

/-! One execution for a key.  A request that takes the lock does not look again for a response
stored in the meantime; where that cannot happen, at most one execution succeeds and every
other request is answered from it. -/

namespace Marty.Idempotency.Exclusive

open Lib Lib.Base64 Lib.Run Redis

/-- The execution of the request returned a 2xx response. -/
def Succeeded (t : Thread) (r : Response) : Prop :=
  t.called = some (.returned r) ∧ r.success = true

/-- The response as it is replayed; the hash plays no part in it. -/
def replayOf (r : Response) : Response := responseFromCached (collected "" r)

/-- A replay of an execution that succeeded. -/
def Replays (s : System) (replay : Response) : Prop :=
  ∃ (i : Nat) (t : Thread) (r : Response),
    s.threads[i]? = some t ∧ Succeeded t r ∧ replay = replayOf r

/-- The payload is the response of an execution that succeeded. -/
def Stored (s : System) (payload : CachedPayload) : Prop :=
  ∃ (i : Nat) (t : Thread) (r : Response),
    s.threads[i]? = some t ∧ Succeeded t r ∧ payload = serialiseCached (collected t.requestHash r)

/-- Redis calls do not fail, keys do not expire, and the client runs the release script. -/
def calm : Label → Bool
  | .releaseGet _ | .releaseDelete _ | .fault _ | .renewFault _ | .expireLock | .expireData => false
  | _ => true

/-- The lock is taken only while no response is stored, and the body of a 2xx response is
collected. -/
def Orderly (s : System) : Label → Prop
  | .tryLock _ _ => s.lock = none → s.data = none
  | .collect _ ok => ok = true
  | _ => True

instance (s : System) : ∀ l, Decidable (Orderly s l)
  | .tryLock _ _ => inferInstanceAs (Decidable (_ → _))
  | .collect _ ok => inferInstanceAs (Decidable (ok = true))
  | .arrive _ | .readData _ | .readLock _ | .callNext _ _ | .writeData _ | .stopRenewal _
  | .release _ | .releaseGet _ | .releaseDelete _ | .renewGet _ | .renewExpire _ | .fault _
  | .renewFault _ | .expireLock | .expireData => .isTrue trivial

/-- The token of a request that holds the lock. -/
def holds : Phase → Option String
  | .callNext token | .collect token _ | .writeData token _ | .stopRenewal token _
  | .release token _ | .releaseDelete token _ => some token
  | _ => none

/-- The request may still store a response. -/
def busy : Phase → Bool
  | .callNext _ | .collect _ _ | .writeData _ _ => true
  | _ => false

/-- The result of an execution. -/
inductive Ended (t : Thread) : Result → Prop
  | success {r : Response} (h : Succeeded t r) :
      Ended t (.executed (rebuilt (collected t.requestHash r)))
  | failure {r : Response} (h : t.called = some (.returned r)) (hr : r.success = false) :
      Ended t (.executed r)
  | raised (h : t.called = some .raised) : Ended t .raised

/-- The result of a request that was not executed. -/
inductive Answered (R : Response → Prop) : Result → Prop
  | error {e : ErrorResponse} (h : e.statusCode = 409) : Answered R (.error e)
  | replay {r : Response} (h : R r) : Answered R (.replay r)

/-- What the phase of a request says about its execution. -/
def PhaseOk (R : Response → Prop) (t : Thread) : Phase → Prop
  | .readData | .tryLock | .readLock | .callNext _ => t.called = none
  | .collect _ r => Succeeded t r
  | .writeData _ cached => ∃ r, Succeeded t r ∧ cached = collected t.requestHash r
  | .stopRenewal _ result | .release _ result | .releaseDelete _ result => Ended t result
  | .done result => Ended t result ∨ t.called = none ∧ Answered R result

structure Inv (s : System) : Prop where
  owner : ∀ {i : Nat} {t : Thread} {token : String}, s.threads[i]? = some t →
    holds t.phase = some token → lockToken s.lock = some token
  single : ∀ {i j : Nat} {t t' : Thread} {token token' : String}, s.threads[i]? = some t →
    s.threads[j]? = some t' → holds t.phase = some token → holds t'.phase = some token' → i = j
  phase : ∀ {i : Nat} {t : Thread}, s.threads[i]? = some t → PhaseOk (Replays s) t t.phase
  renewal : ∀ {i : Nat} {t : Thread}, s.threads[i]? = some t → t.renewal ≠ .failed
  unwritten : s.data = none → ∀ {i : Nat} {t : Thread} {r : Response}, s.threads[i]? = some t →
    Succeeded t r → busy t.phase = true
  written : ∀ {payload : CachedPayload}, s.data = some payload →
    (∀ {i : Nat} {t : Thread}, s.threads[i]? = some t → busy t.phase = false) ∧ Stored s payload
  unique : ∀ {i j : Nat} {t t' : Thread} {r r' : Response}, s.threads[i]? = some t →
    s.threads[j]? = some t' → Succeeded t r → Succeeded t' r' → i = j

theorem holds_of_busy {p : Phase} (h : busy p = true) : ∃ token, holds p = some token := by
  cases p <;> simp_all [busy, holds]

theorem deserialiseCached_serialiseCached (requestHash : String) (r : Response) :
    ∃ cached, deserialiseCached (serialiseCached (collected requestHash r)) = some cached ∧
      responseFromCached cached = replayOf r := by
  simp only [deserialiseCached, serialiseCached, b64decode_b64encode, Option.map_some]
  exact ⟨_, rfl, rfl⟩

theorem PhaseOk.mono {R R' : Response → Prop} (hR : ∀ r, R r → R' r) {t : Thread} {p : Phase}
    (h : PhaseOk R t p) : PhaseOk R' t p := by
  cases p with
  | done result =>
    obtain h | ⟨hcalled, h⟩ := h
    · exact .inl h
    · refine .inr ⟨hcalled, ?_⟩
      cases h with
      | error h => exact .error h
      | replay h => exact .replay (hR _ h)
  | _ => exact h

theorem Ended.congr {t t' : Thread} {result : Result} (h : Ended t result)
    (hcalled : t'.called = t.called) (hhash : t'.requestHash = t.requestHash) :
    Ended t' result := by
  cases h with
  | success h => exact hhash ▸ .success ⟨hcalled.trans h.1, h.2⟩
  | failure h hr => exact .failure (hcalled.trans h) hr
  | raised h => exact .raised (hcalled.trans h)

theorem PhaseOk.congr {R : Response → Prop} {t t' : Thread} {p : Phase} (h : PhaseOk R t p)
    (hcalled : t'.called = t.called) (hhash : t'.requestHash = t.requestHash) : PhaseOk R t' p := by
  cases p with
  | readData | tryLock | readLock | callNext => exact hcalled.trans h
  | collect => exact ⟨hcalled.trans h.1, h.2⟩
  | writeData =>
    obtain ⟨r, hr, hcached⟩ := h
    exact ⟨r, ⟨hcalled.trans hr.1, hr.2⟩, hhash ▸ hcached⟩
  | stopRenewal | release | releaseDelete => exact Ended.congr h hcalled hhash
  | done =>
    obtain h | ⟨hnone, h⟩ := h
    · exact .inl (h.congr hcalled hhash)
    · exact .inr ⟨hcalled.trans hnone, h⟩

/-- The first read ends the request or sends it to the lock. -/
theorem afterReadData_cases {data : Option CachedPayload} {R : Response → Prop}
    (hR : ∀ payload ∈ data, ∃ r requestHash, R (replayOf r) ∧
      payload = serialiseCached (collected requestHash r)) (requestHash : String) :
    afterReadData data requestHash = .tryLock ∨
      ∃ result, afterReadData data requestHash = .done result ∧ Answered R result := by
  cases data with
  | none => exact .inl rfl
  | some payload =>
    obtain ⟨r, storedHash, hr, rfl⟩ := hR payload rfl
    obtain ⟨cached, hcached, hreplay⟩ := deserialiseCached_serialiseCached storedHash r
    simp only [afterReadData, Option.bind_some, hcached]
    split
    · exact .inr ⟨_, rfl, .error rfl⟩
    · exact .inr ⟨_, rfl, .replay (hreplay ▸ hr)⟩

theorem afterReadLock_cases (lock : Option LockPayload) (requestHash : String)
    (R : Response → Prop) :
    ∃ result, afterReadLock lock requestHash = .done result ∧ Answered R result := by
  unfold afterReadLock
  split
  · split <;> exact ⟨_, rfl, .error rfl⟩
  · exact ⟨_, rfl, .error rfl⟩

section busy

variable {s : System} {i : Nat} {t : Thread} (hi : Inv s) (ht : s.threads[i]? = some t)
  (hbusy : busy t.phase = true)
include hi ht hbusy

/-- Nothing is stored while a request may still store. -/
theorem Inv.data_eq_none : s.data = none := by
  cases hdata : s.data with
  | none => rfl
  | some payload => simp [(hi.written hdata).1 ht] at hbusy

/-- No other request may store or has succeeded meanwhile. -/
theorem Inv.others_idle {j : Nat} {u : Thread} (hne : j ≠ i) (hj : s.threads[j]? = some u) :
    busy u.phase = false ∧ ∀ r, ¬ Succeeded u r := by
  obtain ⟨token, htoken⟩ := holds_of_busy hbusy
  have hidle : busy u.phase = false := by
    cases hu : busy u.phase with
    | false => rfl
    | true =>
      obtain ⟨token', htoken'⟩ := holds_of_busy hu
      exact absurd (hi.single hj ht htoken' htoken) hne
  refine ⟨hidle, fun r hr => ?_⟩
  simp [hi.unwritten (hi.data_eq_none ht hbusy) hj hr] at hidle

end busy

section move

variable {s s' : System} {i : Nat} {t t' : Thread}

/-- A request moves: it keeps its hash, and its execution once it has one. -/
structure Moves (s s' : System) (i : Nat) (t t' : Thread) : Prop where
  get : s.threads[i]? = some t
  threads : s'.threads = s.threads.set i t'
  hash : t'.requestHash = t.requestHash
  called : ∀ {c}, t.called = some c → t'.called = some c

theorem Moves.cases (h : Moves s s' i t t') {j : Nat} {u : Thread}
    (hj : s'.threads[j]? = some u) : j = i ∧ u = t' ∨ j ≠ i ∧ s.threads[j]? = some u := by
  rw [h.threads] at hj
  exact Pool.getElem?_set_cases hj

theorem Moves.succeeded (h : Moves s s' i t t') {j : Nat} {u : Thread} {r : Response}
    (hj : s.threads[j]? = some u) (hr : Succeeded u r) :
    ∃ v, s'.threads[j]? = some v ∧ Succeeded v r ∧ v.requestHash = u.requestHash := by
  by_cases hji : j = i
  · subst hji
    obtain rfl : t = u := by simpa [h.get] using hj
    refine ⟨t', ?_, ⟨h.called hr.1, hr.2⟩, h.hash⟩
    rw [h.threads, Pool.getElem?_set_self h.get]
  · refine ⟨u, ?_, hr, rfl⟩
    rw [h.threads, List.getElem?_set_ne (Ne.symm hji), hj]

theorem Moves.replays (h : Moves s s' i t t') {r : Response} (hr : Replays s r) : Replays s' r := by
  obtain ⟨j, u, r, hj, hr, rfl⟩ := hr
  obtain ⟨v, hv, hr, -⟩ := h.succeeded hj hr
  exact ⟨j, v, r, hv, hr, rfl⟩

theorem Moves.stored (h : Moves s s' i t t') {payload : CachedPayload} (hp : Stored s payload) :
    Stored s' payload := by
  obtain ⟨j, u, r, hj, hr, rfl⟩ := hp
  obtain ⟨v, hv, hr, hhash⟩ := h.succeeded hj hr
  exact ⟨j, v, r, hv, hr, by rw [hhash]⟩

/-- The phases of all requests after a move. -/
theorem Moves.phase (h : Moves s s' i t t') (hi : Inv s) (ht' : PhaseOk (Replays s) t' t'.phase)
    {j : Nat} {u : Thread} (hj : s'.threads[j]? = some u) : PhaseOk (Replays s') u u.phase := by
  obtain ⟨-, rfl⟩ | ⟨-, hj⟩ := h.cases hj
  · exact ht'.mono fun _ => h.replays
  · exact (hi.phase hj).mono fun _ => h.replays

theorem Moves.renewal (h : Moves s s' i t t') (hi : Inv s) (ht' : t'.renewal ≠ .failed)
    {j : Nat} {u : Thread} (hj : s'.threads[j]? = some u) : u.renewal ≠ .failed := by
  obtain ⟨-, rfl⟩ | ⟨-, hj⟩ := h.cases hj
  · exact ht'
  · exact hi.renewal hj

/-- A move that changes neither what is stored nor who may store it, and gives the lock to
nobody. -/
theorem Moves.keep (h : Moves s s' i t t') (hi : Inv s) (hdata : s'.data = s.data)
    (hbusy : busy t'.phase = busy t.phase) (hcalled : t'.called = t.called)
    (hphase : PhaseOk (Replays s) t' t'.phase) (hrenewal : t'.renewal ≠ .failed)
    (howner : ∀ {j : Nat} {u : Thread} {token : String}, s'.threads[j]? = some u →
      holds u.phase = some token → lockToken s'.lock = some token ∧
        ∃ v, s.threads[j]? = some v ∧ holds v.phase = some token) : Inv s' := by
  have hback : ∀ {j : Nat} {u : Thread}, s'.threads[j]? = some u → ∃ v, s.threads[j]? = some v ∧
      busy u.phase = busy v.phase ∧ u.called = v.called := by
    intro j u hj
    obtain ⟨rfl, rfl⟩ | ⟨-, hj⟩ := h.cases hj
    · exact ⟨t, h.get, hbusy, hcalled⟩
    · exact ⟨u, hj, rfl, rfl⟩
  constructor
  case owner => exact fun hj hu => (howner hj hu).1
  case single =>
    intro j j' u u' token token' hj hj' hu hu'
    obtain ⟨-, v, hv, hhv⟩ := howner hj hu
    obtain ⟨-, v', hv', hhv'⟩ := howner hj' hu'
    exact hi.single hv hv' hhv hhv'
  case phase => exact h.phase hi hphase
  case renewal => exact h.renewal hi hrenewal
  case unwritten =>
    intro hnone j u r hj hr
    obtain ⟨v, hv, hbv, hcv⟩ := hback hj
    rw [hbv]
    exact hi.unwritten (hdata ▸ hnone) hv ⟨hcv ▸ hr.1, hr.2⟩
  case written =>
    intro payload hsome
    obtain ⟨hidle, hstored⟩ := hi.written (hdata ▸ hsome)
    refine ⟨?_, h.stored hstored⟩
    intro j u hj
    obtain ⟨v, hv, hbv, -⟩ := hback hj
    rw [hbv]
    exact hidle hv
  case unique =>
    intro j j' u u' r r' hj hj' hr hr'
    obtain ⟨v, hv, -, hcv⟩ := hback hj
    obtain ⟨v', hv', -, hcv'⟩ := hback hj'
    exact hi.unique hv hv' ⟨hcv ▸ hr.1, hr.2⟩ ⟨hcv' ▸ hr'.1, hr'.2⟩

theorem Moves.quiet (h : Moves s s' i t t') (hi : Inv s) (hdata : s'.data = s.data)
    (hlock : s'.lock = s.lock) (hholds : holds t'.phase = holds t.phase)
    (hbusy : busy t'.phase = busy t.phase) (hcalled : t'.called = t.called)
    (hphase : PhaseOk (Replays s) t' t'.phase) (hrenewal : t'.renewal ≠ .failed) : Inv s' := by
  refine h.keep hi hdata hbusy hcalled hphase hrenewal ?_
  intro j u token hj hu
  rw [hlock]
  obtain ⟨rfl, rfl⟩ | ⟨-, hj⟩ := h.cases hj
  · exact ⟨hi.owner h.get (hholds ▸ hu), t, h.get, hholds ▸ hu⟩
  · exact ⟨hi.owner hj hu, u, hj, hu⟩

/-- The holder gives the lock back; there is no other. -/
theorem Moves.release (h : Moves s s' i t t') (hi : Inv s) (hdata : s'.data = s.data)
    {token : String} (hholds : holds t.phase = some token) (hfree : holds t'.phase = none)
    (hbusy : busy t'.phase = busy t.phase) (hcalled : t'.called = t.called)
    (hphase : PhaseOk (Replays s) t' t'.phase) (hrenewal : t'.renewal ≠ .failed) : Inv s' := by
  refine h.keep hi hdata hbusy hcalled hphase hrenewal ?_
  intro j u token' hj hu
  obtain ⟨-, rfl⟩ | ⟨hne, hj⟩ := h.cases hj
  · simp [hfree] at hu
  · exact absurd (hi.single hj h.get hu hholds) hne

/-- The lock is taken while it is free and nothing is stored. -/
theorem Moves.acquire (h : Moves s s' i t t') (hi : Inv s) (hfree : s.lock = none)
    (hnone : s.data = none) (hdata : s'.data = none) {token : String}
    (hlock : lockToken s'.lock = some token) (hphase : t'.phase = .callNext token)
    (ht' : t'.called = none) (hrenewal : t'.renewal ≠ .failed) : Inv s' := by
  -- a free lock has no holder, so the request that moves is the only one
  have hnobody : ∀ {j : Nat} {u : Thread}, s.threads[j]? = some u → holds u.phase = none := by
    intro j u hj
    cases hu : holds u.phase with
    | none => rfl
    | some token => simpa [hfree, lockToken] using hi.owner hj hu
  have honly : ∀ {j : Nat} {u : Thread} {token' : String}, s'.threads[j]? = some u →
      holds u.phase = some token' → j = i ∧ u = t' := by
    intro j u token' hj hu
    obtain hnew | ⟨-, hold⟩ := h.cases hj
    · exact hnew
    · simp [hnobody hold] at hu
  have hsucceeded : ∀ {j : Nat} {u : Thread} {r : Response}, s'.threads[j]? = some u →
      ¬ Succeeded u r := by
    intro j u r hj hr
    obtain ⟨-, rfl⟩ | ⟨-, hold⟩ := h.cases hj
    · simp [Succeeded, ht'] at hr
    · obtain ⟨token', htoken⟩ := holds_of_busy (hi.unwritten hnone hold hr)
      simp [hnobody hold] at htoken
  constructor
  case owner =>
    intro j u token' hj hu
    obtain ⟨-, rfl⟩ := honly hj hu
    rw [hphase] at hu
    exact hlock.trans hu
  case single =>
    intro j j' u u' token' token'' hj hj' hu hu'
    rw [(honly hj hu).1, (honly hj' hu').1]
  case phase => exact h.phase hi (by rw [hphase]; exact ht')
  case renewal => exact h.renewal hi hrenewal
  case unwritten => exact fun _ _ _ _ hj hr => absurd hr (hsucceeded hj)
  case written => simp [hdata]
  case unique => exact fun hj _ hr => absurd hr (hsucceeded hj)

/-- The holder of the lock moves on and keeps it; others are untouched. -/
theorem Moves.advance (h : Moves s s' i t t') (hi : Inv s) (hbusy : busy t.phase = true)
    (hlock : s'.lock = s.lock) (hholds : holds t'.phase = holds t.phase)
    (hphase : PhaseOk (Replays s) t' t'.phase) (hrenewal : t'.renewal ≠ .failed)
    (hunwritten : s'.data = none → ∀ {r : Response}, Succeeded t' r → busy t'.phase = true)
    (hwritten : ∀ {payload : CachedPayload}, s'.data = some payload →
      busy t'.phase = false ∧ Stored s' payload) : Inv s' := by
  have hother : ∀ {j : Nat} {u : Thread}, j ≠ i → s.threads[j]? = some u →
      busy u.phase = false ∧ ∀ r, ¬ Succeeded u r := hi.others_idle h.get hbusy
  constructor
  case owner =>
    intro j u token' hj hu
    rw [hlock]
    obtain ⟨-, rfl⟩ | ⟨-, hj⟩ := h.cases hj
    · exact hi.owner h.get (hholds ▸ hu)
    · exact hi.owner hj hu
  case single =>
    intro j j' u u' token' token'' hj hj' hu hu'
    obtain ⟨rfl, rfl⟩ | ⟨-, hj⟩ := h.cases hj <;> obtain ⟨rfl, rfl⟩ | ⟨-, hj'⟩ := h.cases hj'
    · rfl
    · exact hi.single h.get hj' (hholds ▸ hu) hu'
    · exact hi.single hj h.get hu (hholds ▸ hu')
    · exact hi.single hj hj' hu hu'
  case phase => exact h.phase hi hphase
  case renewal => exact h.renewal hi hrenewal
  case unwritten =>
    intro hdata j u r hj hr
    obtain ⟨-, rfl⟩ | ⟨hne, hj⟩ := h.cases hj
    · exact hunwritten hdata hr
    · exact absurd hr ((hother hne hj).2 r)
  case written =>
    intro payload hdata
    obtain ⟨hidle, hstored⟩ := hwritten hdata
    refine ⟨?_, hstored⟩
    intro j u hj
    obtain ⟨-, rfl⟩ | ⟨hne, hj⟩ := h.cases hj
    · exact hidle
    · exact (hother hne hj).1
  case unique =>
    intro j j' u u' r r' hj hj' hr hr'
    obtain ⟨rfl, rfl⟩ | ⟨hne, hj⟩ := h.cases hj
    · obtain ⟨rfl, rfl⟩ | ⟨hne', hj'⟩ := h.cases hj'
      · rfl
      · exact absurd hr' ((hother hne' hj').2 r')
    · exact absurd hr ((hother hne hj).2 r)

end move

theorem arrive_inv {s : System} (hi : Inv s) (requestHash : String) :
    Inv { s with threads := s.threads ++ [{ requestHash := requestHash }] } := by
  have hsucceeded : ∀ {j : Nat} {u : Thread} {r : Response},
      (s.threads ++ [{ requestHash := requestHash }])[j]? = some u → Succeeded u r →
        s.threads[j]? = some u := by
    intro j u r hj hr
    obtain ⟨-, rfl⟩ | hj := Pool.getElem?_append_cases hj
    · cases hr.1
    · exact hj
  constructor
  case owner =>
    intro j u token hj hu
    obtain ⟨-, rfl⟩ | hj := Pool.getElem?_append_cases hj
    · cases hu
    · exact hi.owner hj hu
  case single =>
    intro j j' u u' token token' hj hj' hu hu'
    obtain ⟨-, rfl⟩ | hj := Pool.getElem?_append_cases hj
    · cases hu
    · obtain ⟨-, rfl⟩ | hj' := Pool.getElem?_append_cases hj'
      · cases hu'
      · exact hi.single hj hj' hu hu'
  case phase =>
    intro j u hj
    obtain ⟨-, rfl⟩ | hj := Pool.getElem?_append_cases hj
    · rfl
    · refine (hi.phase hj).mono ?_
      rintro _ ⟨k, v, r, hk, hr, rfl⟩
      exact ⟨k, v, r, Pool.getElem?_append_old hk _, hr, rfl⟩
  case renewal =>
    intro j u hj
    obtain ⟨-, rfl⟩ | hj := Pool.getElem?_append_cases hj
    · nofun
    · exact hi.renewal hj
  case unwritten => exact fun hnone _ _ _ hj hr => hi.unwritten hnone (hsucceeded hj hr) hr
  case written =>
    intro payload hsome
    obtain ⟨hidle, k, v, r, hk, hr, rfl⟩ := hi.written hsome
    refine ⟨?_, k, v, r, Pool.getElem?_append_old hk _, hr, rfl⟩
    intro j u hj
    obtain ⟨-, rfl⟩ | hj := Pool.getElem?_append_cases hj
    · rfl
    · exact hidle hj
  case unique =>
    exact fun hj hj' hr hr' => hi.unique (hsucceeded hj hr) (hsucceeded hj' hr') hr hr'

section step

variable {s : System} {i : Nat} {t : Thread} (hi : Inv s) (ht : s.threads[i]? = some t)
include hi ht

theorem Inv.phase_of {p : Phase} (hphase : t.phase = p) : PhaseOk (Replays s) t p :=
  hphase ▸ hi.phase ht

/-- A step that only changes the phase, between phases that hold and may store the same. -/
theorem phase_inv {p p' : Phase} (hphase : t.phase = p) (hholds : holds p' = holds p)
    (hbusy : busy p' = busy p) (hok : PhaseOk (Replays s) t p') :
    Inv (s.set i { t with phase := p' }) := by
  have hmoves : Moves s (s.set i { t with phase := p' }) i t { t with phase := p' } :=
    ⟨ht, rfl, rfl, id⟩
  have hrenewal : t.renewal ≠ .failed := hi.renewal ht
  exact hmoves.quiet hi rfl rfl (hphase ▸ hholds) (hphase ▸ hbusy) rfl (hok.congr rfl rfl) hrenewal

theorem readData_inv (hphase : t.phase = .readData) :
    Inv (s.set i { t with phase := afterReadData s.data t.requestHash }) := by
  have hcalled : t.called = none := hi.phase_of ht hphase
  have hR : ∀ payload ∈ s.data, ∃ r requestHash, Replays s (replayOf r) ∧
      payload = serialiseCached (collected requestHash r) := by
    intro payload hpayload
    obtain ⟨-, j, u, r, hj, hr, rfl⟩ := hi.written hpayload
    exact ⟨r, u.requestHash, ⟨j, u, r, hj, hr, rfl⟩, rfl⟩
  obtain hafter | ⟨result, hafter, hanswered⟩ := afterReadData_cases hR t.requestHash
  · rw [hafter]
    exact phase_inv hi ht hphase rfl rfl hcalled
  · rw [hafter]
    exact phase_inv hi ht hphase rfl rfl (.inr ⟨hcalled, hanswered⟩)

theorem readLock_inv (hphase : t.phase = .readLock) :
    Inv (s.set i { t with phase := afterReadLock s.lock t.requestHash }) := by
  have hcalled : t.called = none := hi.phase_of ht hphase
  obtain ⟨result, hafter, hanswered⟩ := afterReadLock_cases s.lock t.requestHash (Replays s)
  rw [hafter]
  exact phase_inv hi ht hphase rfl rfl (.inr ⟨hcalled, hanswered⟩)

theorem tryLock_inv (hphase : t.phase = .tryLock) (hfree : s.lock = none) (hnone : s.data = none)
    (tokens : List String) (token : String) :
    Inv ({ s with tokens := tokens, lock := some ⟨t.requestHash, token⟩ }.set i
      { t with phase := .callNext token, renewal := .get token }) := by
  have hcalled : t.called = none := hi.phase_of ht hphase
  have hmoves : Moves s ({ s with tokens := tokens, lock := some ⟨t.requestHash, token⟩ }.set i
      { t with phase := .callNext token, renewal := .get token }) i t
      { t with phase := .callNext token, renewal := .get token } := ⟨ht, rfl, rfl, id⟩
  exact hmoves.acquire hi hfree hnone hnone rfl rfl hcalled nofun

theorem refused_inv (hphase : t.phase = .tryLock) (tokens : List String) :
    Inv ({ s with tokens := tokens }.set i { t with phase := .readLock }) := by
  have hcalled : t.called = none := hi.phase_of ht hphase
  have hrenewal : t.renewal ≠ .failed := hi.renewal ht
  have hmoves : Moves s ({ s with tokens := tokens }.set i { t with phase := .readLock }) i t
      { t with phase := .readLock } := ⟨ht, rfl, rfl, id⟩
  exact hmoves.quiet hi rfl rfl (by rw [hphase]; rfl) (by rw [hphase]; rfl) rfl hcalled hrenewal

theorem callNext_inv {token : String} (hphase : t.phase = .callNext token) (result : Called) :
    Inv (s.set i { t with phase := afterCallNext token result, called := some result }) := by
  have hcalled : t.called = none := hi.phase_of ht hphase
  have hrenewal : t.renewal ≠ .failed := hi.renewal ht
  have hbusy : busy t.phase = true := by rw [hphase]; rfl
  have hholds : holds t.phase = some token := by rw [hphase]; rfl
  have hunstored : ∀ {payload : CachedPayload}, s.data ≠ some payload := by
    simp [hi.data_eq_none ht hbusy]
  have hmoves : ∀ p, Moves s (s.set i { t with phase := p, called := some result }) i t
      { t with phase := p, called := some result } := fun p => ⟨ht, rfl, rfl, by simp [hcalled]⟩
  have hfailed : ∀ {r : Response}, result = .returned r → r.success = false →
      ∀ {r' : Response} {t' : Thread}, t'.called = some result → ¬ Succeeded t' r' := by
    rintro r rfl hr r' t' hcalled' ⟨hreturned, hr'⟩
    obtain rfl : r = r' := by simpa [hcalled'] using hreturned
    simp [hr] at hr'
  cases result with
  | raised =>
    exact (hmoves _).advance hi hbusy rfl hholds.symm (.raised rfl) hrenewal
      (fun _ _ hr => by cases hr.1) fun hdata => absurd hdata hunstored
  | returned r =>
    cases hr : r.success with
    | true =>
      have hafter : afterCallNext token (.returned r) = .collect token r := by
        simp [afterCallNext, hr]
      rw [hafter]
      exact (hmoves _).advance hi hbusy rfl hholds.symm ⟨rfl, hr⟩ hrenewal (fun _ _ _ => rfl)
        fun hdata => absurd hdata hunstored
    | false =>
      have hafter : afterCallNext token (.returned r) = .stopRenewal token (.executed r) := by
        simp [afterCallNext, hr]
      rw [hafter]
      exact (hmoves _).advance hi hbusy rfl hholds.symm (.failure rfl hr) hrenewal
        (fun _ _ h => absurd h (hfailed rfl hr rfl)) fun hdata => absurd hdata hunstored

theorem collect_inv {token : String} {r : Response} (hphase : t.phase = .collect token r) :
    Inv (s.set i { t with phase := .writeData token (collected t.requestHash r) }) :=
  phase_inv hi ht hphase rfl rfl ⟨r, hi.phase_of ht hphase, rfl⟩

theorem writeData_inv {token : String} {cached : CachedResponse}
    (hphase : t.phase = .writeData token cached) :
    Inv ({ s with data := some (serialiseCached cached) }.set i
      { t with phase := .stopRenewal token (.executed (rebuilt cached)) }) := by
  obtain ⟨r, hr, rfl⟩ := hi.phase_of ht hphase
  have hrenewal : t.renewal ≠ .failed := hi.renewal ht
  have hbusy : busy t.phase = true := by rw [hphase]; rfl
  have hholds : holds t.phase = some token := by rw [hphase]; rfl
  let t' : Thread :=
    { t with phase := .stopRenewal token (.executed (rebuilt (collected t.requestHash r))) }
  have hmoves : Moves s ({ s with data := some (serialiseCached (collected t.requestHash r)) }.set i
      t') i t t' := ⟨ht, rfl, rfl, id⟩
  refine hmoves.advance hi hbusy rfl hholds.symm ?_ hrenewal nofun ?_
  · exact Ended.success (t := t') hr
  · intro payload hdata
    obtain rfl := Option.some.inj hdata
    exact ⟨rfl, i, t', r, Pool.getElem?_set_self ht t', hr, rfl⟩

theorem stopRenewal_inv {token : String} {result : Result}
    (hphase : t.phase = .stopRenewal token result) :
    Inv (s.set i (if t.renewal = .failed then { t with phase := .done .raised }
      else { t with phase := .release token result, renewal := .stopped })) := by
  rw [if_neg (hi.renewal ht)]
  let t' : Thread := { t with phase := .release token result, renewal := .stopped }
  have hmoves : Moves s (s.set i t') i t t' := ⟨ht, rfl, rfl, id⟩
  have hended : Ended t result := hi.phase_of ht hphase
  have hok : PhaseOk (Replays s) t (.release token result) := hended
  exact hmoves.quiet hi rfl rfl (by rw [hphase]; rfl) (by rw [hphase]; rfl) rfl
    (hok.congr rfl rfl) nofun

theorem release_inv {token : String} {result : Result} (hphase : t.phase = .release token result)
    (lock : Option LockPayload) :
    Inv ({ s with lock := lock }.set i { t with phase := .done result }) := by
  let t' : Thread := { t with phase := .done result }
  have hmoves : Moves s ({ s with lock := lock }.set i t') i t t' := ⟨ht, rfl, rfl, id⟩
  have hok : PhaseOk (Replays s) t (.done result) := .inl (hi.phase_of ht hphase)
  have hrenewal : t.renewal ≠ .failed := hi.renewal ht
  exact hmoves.release hi rfl (by rw [hphase]; rfl) rfl (by rw [hphase]; rfl) rfl
    (hok.congr rfl rfl) hrenewal

theorem renewal_inv {renewal : Renewal} (hrenewal : renewal ≠ .failed) :
    Inv (s.set i { t with renewal := renewal }) := by
  have hmoves : Moves s (s.set i { t with renewal := renewal }) i t { t with renewal := renewal } :=
    ⟨ht, rfl, rfl, id⟩
  exact hmoves.quiet hi rfl rfl rfl rfl rfl ((hi.phase ht).congr rfl rfl) hrenewal

end step

theorem step_inv {s s' : System} {l : Label} (hi : Inv s) (hg : calm l = true ∧ Orderly s l)
    (h : step s l = some s') : Inv s' := by
  obtain ⟨hcalm, hg⟩ := hg
  cases steps_of_step h with
  | arrive requestHash => exact arrive_inv hi requestHash
  | readData ht hphase => exact readData_inv hi ht hphase
  | locked ht hphase _ hfree => exact tryLock_inv hi ht hphase hfree (hg hfree) _ _
  | blocked ht hphase => exact refused_inv hi ht hphase _
  | readLock ht hphase => exact readLock_inv hi ht hphase
  | callNext result ht hphase => exact callNext_inv hi ht hphase result
  | collect ok ht hphase =>
    obtain rfl : ok = true := hg
    exact collect_inv hi ht hphase
  | writeData ht hphase => exact writeData_inv hi ht hphase
  | stopRenewal ht hphase => exact stopRenewal_inv hi ht hphase
  | release ht hphase => exact release_inv hi ht hphase _
  | renewGet ht =>
    refine renewal_inv hi ht ?_
    split <;> nofun
  | renewExpire ht => exact renewal_inv hi ht nofun
  | releaseGet | releaseDelete | fault | renewFault | expireLock | expireData =>
    simp [calm] at hcalm

theorem inv_init : Inv {} := by
  constructor <;> simp

/-- In a run without Redis errors and expiries, in which the lock is only ever taken while no
response is stored and every 2xx body is collected, at most one execution returns a 2xx response,
and every other request that has ended got a replay of it, a 409, or the result of its own
execution that did not return 2xx. -/
theorem one_success_of_orderly {ls : List Label} {s : System}
    (hg : Guarded step (fun s l => calm l = true ∧ Orderly s l) {} ls)
    (hr : run step {} ls = some s) :
    (∀ {i j : Nat} {t t' : Thread} {r r' : Response}, s.threads[i]? = some t →
        s.threads[j]? = some t' → Succeeded t r → Succeeded t' r' → i = j) ∧
      ∀ {i : Nat} {t : Thread} {result : Result}, s.threads[i]? = some t →
        t.phase = .done result → (∀ r, ¬ Succeeded t r) →
          (∃ replay, result = .replay replay ∧ Replays s replay) ∨
            (∃ e, result = .error e ∧ e.statusCode = 409) ∨
            (∃ r, t.called = some (.returned r) ∧ r.success = false ∧ result = .executed r) ∨
            (t.called = some .raised ∧ result = .raised) := by
  have hi : Inv s := run_invariant (fun _ _ _ => step_inv) inv_init hg hr
  refine ⟨hi.unique, ?_⟩
  intro i t result ht hphase hfailed
  obtain hended | ⟨-, hanswered⟩ := hi.phase_of ht hphase
  · cases hended with
    | success h => exact absurd h (hfailed _)
    | failure h hr => exact .inr (.inr (.inl ⟨_, h, hr, rfl⟩))
    | raised h => exact .inr (.inr (.inr ⟨h, rfl⟩))
  · cases hanswered with
    | error h => exact .inr (.inl ⟨_, rfl, h⟩)
    | replay h => exact .inl ⟨_, rfl, h⟩

def created : Response := { statusCode := 201, body := [1] }

/-- A request executes and a second one, later, gets its response. -/
def replayedRun : List Label :=
  [.arrive "h", .readData 0, .tryLock 0 "a", .callNext 0 (.returned created), .collect 0 true,
    .writeData 0, .stopRenewal 0, .release 0, .arrive "h", .readData 1]

theorem one_success_of_replayedRun :
    ∃ s, run step {} replayedRun = some s ∧ s.threads.length = 2 ∧
      ∀ {i j : Nat} {t t' : Thread} {r r' : Response}, s.threads[i]? = some t →
        s.threads[j]? = some t' → Succeeded t r → Succeeded t' r' → i = j := by
  have hlength : (run step {} replayedRun).map (·.threads.length) = some 2 := by decide +kernel
  obtain ⟨s, hr, hlength⟩ := Option.map_eq_some_iff.mp hlength
  exact ⟨s, hr, hlength, (one_success_of_orderly (by decide +kernel) hr).1⟩

/-- Two requests that both look before the first has stored its response. -/
def lateLockRun : List Label :=
  [.arrive "h", .arrive "h", .readData 0, .readData 1, .tryLock 1 "b",
    .callNext 1 (.returned created), .collect 1 true, .writeData 1, .stopRenewal 1, .release 1,
    .tryLock 0 "a", .callNext 0 (.returned created)]

/-- The second takes the lock after it is free again and executes once more. -/
theorem late_lock_executes_twice :
    lateLockRun.all calm = true ∧
      ∃ s t t', run step {} lateLockRun = some s ∧
        s.threads[0]? = some t ∧ s.threads[1]? = some t' ∧
        Succeeded t created ∧ Succeeded t' created :=
  ⟨rfl, _, _, _, rfl, rfl, rfl, ⟨rfl, rfl⟩, rfl, rfl⟩

end Marty.Idempotency.Exclusive
