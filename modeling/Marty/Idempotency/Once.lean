import Marty.Lib.Pool
import Marty.Idempotency.Memory

/-! One execution for a key, without Redis.  While the stored response lives and every 2xx body is
collected, the two tables hand the key over without a gap. -/

namespace Marty.Idempotency.Once

open Lib Lib.Base64 Lib.Run Lib.Pool Redis Memory

/-- The execution of the request returned a 2xx response. -/
def Succeeded (t : Memory.Thread) (r : Response) : Prop :=
  t.called = some (.returned r) ∧ r.success = true

/-- The response stored for the key is within its lifetime, and every 2xx body is collected. -/
def Lives (ttl : Int) (key : String) (s : Memory.System) : Memory.Label → Prop
  | .check _ now => ∀ entry ∈ s.cache key, now - entry.createdAt ≤ ttl
  | .collect _ ok _ => ok = true
  | .arrive _ | .callNext _ _ => True

instance (ttl : Int) (key : String) (s : Memory.System) : ∀ l, Decidable (Lives ttl key s l)
  | .check _ _ => inferInstanceAs (Decidable (∀ entry ∈ s.cache key, _ ≤ _))
  | .collect _ ok _ => inferInstanceAs (Decidable (ok = true))
  | .arrive _ | .callNext _ _ => .isTrue trivial

/-- The request has passed the check and its key is taken. -/
def running : Memory.Phase → Bool
  | .callNext _ | .collect _ _ => true
  | _ => false

/-- What the phase of a request says about its key and its execution. -/
def PhaseOk (t : Memory.Thread) : Memory.Phase → Prop
  | .passThrough => t.request.cacheKey = none
  | .readBody key | .callNext key => t.request.cacheKey = some key ∧ t.called = none
  | .collect key r => t.request.cacheKey = some key ∧ Succeeded t r
  | .done (.error _) | .done (.replay _) => t.called = none
  | .done _ => True

variable (sha256 : Bytes → String) (key : String)

/-- The two tables and the requests with the key. -/
structure Inv (s : Memory.System) : Prop where
  phase : ∀ {i : Nat} {t : Memory.Thread}, s.threads[i]? = some t → PhaseOk t t.phase
  owner : ∀ {i : Nat} {t : Memory.Thread}, s.threads[i]? = some t →
    t.request.cacheKey = some key → running t.phase = true →
      ∃ entry, s.inflight key = some entry ∧ entry.owner = i
  inflight : ∀ {entry : Inflight}, s.inflight key = some entry → s.cache key = none ∧
    ∃ t, s.threads[entry.owner]? = some t ∧ t.request.cacheKey = some key ∧
      entry.requestHash = t.request.requestHash sha256
  cached : ∀ {entry : Entry}, s.cache key = some entry →
    ∃ t r, s.threads[entry.owner]? = some t ∧ t.request.cacheKey = some key ∧ Succeeded t r ∧
      entry.cached = collected (t.request.requestHash sha256) r
  success : ∀ {i : Nat} {t : Memory.Thread} {r : Response}, s.threads[i]? = some t →
    t.request.cacheKey = some key → Succeeded t r →
      running t.phase = true ∨ ∃ entry, s.cache key = some entry ∧ entry.owner = i
  replay : ∀ {i : Nat} {t : Memory.Thread} {r : Response}, s.threads[i]? = some t →
    t.request.cacheKey = some key → t.phase = .done (.replay r) →
      ∃ entry, s.cache key = some entry ∧ r = responseFromCached entry.cached

variable {sha256 key} {s s' : Memory.System} {i : Nat} {t t' : Memory.Thread}

theorem Inv.congr (hi : Inv sha256 key s) (hthreads : s'.threads = s.threads)
    (hcache : s'.cache key = s.cache key) (hinflight : s'.inflight key = s.inflight key) :
    Inv sha256 key s' where
  phase h := hi.phase (hthreads ▸ h)
  owner h hkey hrun := hinflight ▸ hi.owner (hthreads ▸ h) hkey hrun
  inflight h := by
    rw [hcache, hthreads]
    exact hi.inflight (hinflight ▸ h)
  cached h := by
    rw [hthreads]
    exact hi.cached (hcache ▸ h)
  success h hkey hsuccess := hcache ▸ hi.success (hthreads ▸ h) hkey hsuccess
  replay h hkey hphase := hcache ▸ hi.replay (hthreads ▸ h) hkey hphase

/-- A thread that is replaced by one with the same request, and has not succeeded before, is still
where the tables point. -/
theorem getElem?_set_of_request (ht : s.threads[i]? = some t) (hrequest : t'.request = t.request)
    {j : Nat} {u : Memory.Thread} (hj : s.threads[j]? = some u) :
    ∃ u', (s.threads.set i t')[j]? = some u' ∧ u'.request = u.request := by
  by_cases hij : j = i
  · subst hij
    obtain rfl : t = u := Option.some.inj (ht.symm.trans hj)
    exact ⟨t', Pool.getElem?_set_self ht t', hrequest⟩
  · rw [List.getElem?_set_ne (Ne.symm hij)]
    exact ⟨u, hj, rfl⟩

/-- A step of a request that leaves the tables alone: it neither takes the key nor gives it up, and
what it gets is a replay of what is stored. -/
theorem Inv.set (hi : Inv sha256 key s) (ht : s.threads[i]? = some t)
    (hrequest : t'.request = t.request) (hphase : PhaseOk t' t'.phase)
    (hrun : t.request.cacheKey = some key → running t'.phase = running t.phase)
    (hsuccess : t.request.cacheKey = some key → ∀ r, Succeeded t r → Succeeded t' r)
    (hnew : t.request.cacheKey = some key → ∀ r, Succeeded t' r →
      Succeeded t r ∨ running t'.phase = true)
    (hreplay : t.request.cacheKey = some key → ∀ r, t'.phase = .done (.replay r) →
      ∃ entry, s.cache key = some entry ∧ r = responseFromCached entry.cached) :
    Inv sha256 key (s.set i t') where
  phase := by
    intro j u hj
    rcases getElem?_set_cases hj with ⟨-, rfl⟩ | ⟨-, hj⟩
    · exact hphase
    · exact hi.phase hj
  owner := by
    intro j u hj hkey hrunning
    rcases getElem?_set_cases hj with ⟨rfl, rfl⟩ | ⟨-, hj⟩
    · rw [hrequest] at hkey
      exact hi.owner ht hkey (hrun hkey ▸ hrunning)
    · exact hi.owner hj hkey hrunning
  inflight := by
    intro entry hentry
    obtain ⟨hcache, u, hu, hkey, hhash⟩ := hi.inflight hentry
    obtain ⟨u', hu', hsame⟩ := getElem?_set_of_request ht hrequest hu
    exact ⟨hcache, u', hu', hsame ▸ hkey, hsame ▸ hhash⟩
  cached := by
    intro entry hentry
    obtain ⟨u, r, hu, hkey, hsucceeded, hcached⟩ := hi.cached hentry
    by_cases hij : entry.owner = i
    · rw [hij] at hu ⊢
      obtain rfl : t = u := Option.some.inj (ht.symm.trans hu)
      exact ⟨t', r, Pool.getElem?_set_self ht t', hrequest ▸ hkey, hsuccess hkey r hsucceeded,
        hrequest ▸ hcached⟩
    · refine ⟨u, r, ?_, hkey, hsucceeded, hcached⟩
      exact (List.getElem?_set_ne (Ne.symm hij)).trans hu
  success := by
    intro j u r hj hkey hsucceeded
    rcases getElem?_set_cases hj with ⟨rfl, rfl⟩ | ⟨-, hj⟩
    · rw [hrequest] at hkey
      rcases hnew hkey r hsucceeded with h | h
      · exact (hi.success ht hkey h).imp (hrun hkey ▸ ·) id
      · exact .inl h
    · exact hi.success hj hkey hsucceeded
  replay := by
    intro j u r hj hkey hdone
    rcases getElem?_set_cases hj with ⟨rfl, rfl⟩ | ⟨-, hj⟩
    · exact hreplay (hrequest ▸ hkey) r hdone
    · exact hi.replay hj hkey hdone

theorem initialPhase_ok (request : Request) :
    PhaseOk { request := request, phase := initialPhase request } (initialPhase request) ∧
      running (initialPhase request) = false ∧ ∀ result, initialPhase request ≠ .done result := by
  unfold initialPhase
  split
  case h_1 key hkey => exact ⟨⟨hkey, rfl⟩, rfl, nofun⟩
  case h_2 hkey => exact ⟨hkey, rfl, nofun⟩

theorem Inv.arrive (hi : Inv sha256 key s) (request : Request) :
    Inv sha256 key { s with
      threads := s.threads ++ [{ request := request, phase := initialPhase request }] } := by
  obtain ⟨hok, hidle, hwaiting⟩ := initialPhase_ok request
  constructor
  case phase =>
    intro j u hj
    rcases getElem?_append_cases hj with ⟨-, rfl⟩ | hj
    · exact hok
    · exact hi.phase hj
  case owner =>
    intro j u hj hkey hrunning
    rcases getElem?_append_cases hj with ⟨-, rfl⟩ | hj
    · simp [hidle] at hrunning
    · exact hi.owner hj hkey hrunning
  case inflight =>
    intro entry hentry
    obtain ⟨hcache, u, hu, h⟩ := hi.inflight hentry
    exact ⟨hcache, u, getElem?_append_old hu _, h⟩
  case cached =>
    intro entry hentry
    obtain ⟨u, r, hu, h⟩ := hi.cached hentry
    exact ⟨u, r, getElem?_append_old hu _, h⟩
  case success =>
    intro j u r hj hkey hsucceeded
    rcases getElem?_append_cases hj with ⟨-, rfl⟩ | hj
    · cases hsucceeded.1
    · exact hi.success hj hkey hsucceeded
  case replay =>
    intro j u r hj hkey hdone
    rcases getElem?_append_cases hj with ⟨-, rfl⟩ | hj
    · exact absurd hdone (hwaiting _)
    · exact hi.replay hj hkey hdone

/-- No request has the key while neither table holds it. -/
theorem Inv.idle (hi : Inv sha256 key s) (hfree : s.inflight key = none) {j : Nat}
    {u : Memory.Thread} (hj : s.threads[j]? = some u) (hkey : u.request.cacheKey = some key) :
    running u.phase = false := by
  by_contra hrunning
  obtain ⟨entry, hentry, -⟩ := hi.owner hj hkey (by simpa using hrunning)
  simp [hfree] at hentry

/-- The request that has the key is the only one that has, and nothing is stored. -/
theorem Inv.holder (hi : Inv sha256 key s) (ht : s.threads[i]? = some t)
    (hkey : t.request.cacheKey = some key) (hrunning : running t.phase = true) :
    s.cache key = none ∧ ∀ {j : Nat} {u : Memory.Thread}, s.threads[j]? = some u →
      u.request.cacheKey = some key → running u.phase = true → j = i := by
  obtain ⟨entry, hentry, howner⟩ := hi.owner ht hkey hrunning
  refine ⟨(hi.inflight hentry).1, fun hj hkey' hrunning' => ?_⟩
  obtain ⟨entry', hentry', howner'⟩ := hi.owner hj hkey' hrunning'
  obtain rfl : entry = entry' := Option.some.inj (hentry.symm.trans hentry')
  exact howner'.symm.trans howner

theorem Inv.take (hi : Inv sha256 key s) (ht : s.threads[i]? = some t)
    (hphase : t.phase = .readBody key) (hcache : s.cache key = none)
    (hfree : s.inflight key = none) :
    Inv sha256 key ((s.setInflight key (some ⟨t.request.requestHash sha256, i⟩)).set i
      { t with phase := .callNext key }) := by
  have hok := hi.phase ht
  rw [hphase] at hok
  constructor
  case phase =>
    intro j u hj
    rcases getElem?_set_cases hj with ⟨-, rfl⟩ | ⟨-, hj⟩
    · exact hok
    · exact hi.phase hj
  case owner =>
    intro j u hj hkey hrunning
    rcases getElem?_set_cases hj with ⟨rfl, -⟩ | ⟨-, hj⟩
    · exact ⟨_, Function.update_self _ _ _, rfl⟩
    · simp [hi.idle hfree hj hkey] at hrunning
  case inflight =>
    intro entry hentry
    rw [set_inflight, setInflight_self] at hentry
    obtain rfl := Option.some.inj hentry
    exact ⟨hcache, _, Pool.getElem?_set_self ht _, hok.1, rfl⟩
  case cached =>
    intro entry hentry
    cases hcache.symm.trans hentry
  case success =>
    intro j u r hj hkey hsucceeded
    rcases getElem?_set_cases hj with ⟨-, rfl⟩ | ⟨-, hj⟩
    · exact .inl rfl
    · exact hi.success hj hkey hsucceeded
  case replay =>
    intro j u r hj hkey hdone
    rcases getElem?_set_cases hj with ⟨-, rfl⟩ | ⟨-, hj⟩
    · cases hdone
    · exact hi.replay hj hkey hdone

/-- The `finally` after an execution that did not return 2xx. -/
theorem Inv.giveUp (hi : Inv sha256 key s) (ht : s.threads[i]? = some t)
    (hkey : t.request.cacheKey = some key) (hrunning : running t.phase = true) {result : Called}
    (hfailed : ∀ r, result = .returned r → r.success = false) :
    Inv sha256 key ((s.setInflight key none).set i
      { t with phase := .done (finished result), called := some result }) := by
  obtain ⟨hcache, halone⟩ := hi.holder ht hkey hrunning
  constructor
  case phase =>
    intro j u hj
    rcases getElem?_set_cases hj with ⟨-, rfl⟩ | ⟨-, hj⟩
    · cases result <;> trivial
    · exact hi.phase hj
  case owner =>
    intro j u hj hkey' hrunning'
    rcases getElem?_set_cases hj with ⟨-, rfl⟩ | ⟨hne, hj⟩
    · cases hrunning'
    · exact absurd (halone hj hkey' hrunning') hne
  case inflight =>
    intro entry hentry
    simp at hentry
  case cached =>
    intro entry hentry
    cases hcache.symm.trans hentry
  case success =>
    intro j u r hj hkey' hsucceeded
    rcases getElem?_set_cases hj with ⟨-, rfl⟩ | ⟨hne, hj⟩
    · cases Option.some.inj hsucceeded.1
      cases (hfailed r rfl).symm.trans hsucceeded.2
    · rcases hi.success hj hkey' hsucceeded with h | h
      · exact absurd (halone hj hkey' h) hne
      · exact .inr h
  case replay =>
    intro j u r hj hkey' hdone
    rcases getElem?_set_cases hj with ⟨-, rfl⟩ | ⟨-, hj⟩
    · cases result <;> cases hdone
    · exact hi.replay hj hkey' hdone

theorem Inv.store (hi : Inv sha256 key s) (ht : s.threads[i]? = some t) {r : Response}
    (hphase : t.phase = .collect key r) (now : Time) :
    Inv sha256 key (afterCollect sha256 i t key r now s) := by
  have hok := hi.phase ht
  rw [hphase] at hok
  obtain ⟨hkey, hsucceeded⟩ := hok
  obtain ⟨hcache, halone⟩ := hi.holder ht hkey (by rw [hphase]; rfl)
  constructor
  case phase =>
    intro j u hj
    rcases getElem?_set_cases hj with ⟨-, rfl⟩ | ⟨-, hj⟩
    · trivial
    · exact hi.phase hj
  case owner =>
    intro j u hj hkey' hrunning'
    rcases getElem?_set_cases hj with ⟨-, rfl⟩ | ⟨hne, hj⟩
    · cases hrunning'
    · exact absurd (halone hj hkey' hrunning') hne
  case inflight =>
    intro entry hentry
    simp [afterCollect] at hentry
  case cached =>
    intro entry hentry
    have hentry : some _ = some entry := (Function.update_self key _ s.cache).symm.trans hentry
    obtain rfl := Option.some.inj hentry
    exact ⟨_, r, Pool.getElem?_set_self ht _, hkey, hsucceeded, rfl⟩
  case success =>
    intro j u r' hj hkey' hsucceeded'
    rcases getElem?_set_cases hj with ⟨rfl, -⟩ | ⟨hne, hj⟩
    · exact .inr ⟨_, Function.update_self _ _ _, rfl⟩
    · rcases hi.success hj hkey' hsucceeded' with h | ⟨entry, hentry, -⟩
      · exact absurd (halone hj hkey' h) hne
      · cases hcache.symm.trans hentry
  case replay =>
    intro j u r' hj hkey' hdone
    rcases getElem?_set_cases hj with ⟨-, rfl⟩ | ⟨-, hj⟩
    · cases hdone
    · obtain ⟨entry, hentry, -⟩ := hi.replay hj hkey' hdone
      cases hcache.symm.trans hentry

/-- A step of a request with another key. -/
theorem Inv.other (hi : Inv sha256 key s) (ht : s.threads[i]? = some t) {key' : String}
    (hkey : t.request.cacheKey = some key') (hne : key ≠ key') (value : Option Inflight)
    (t' : Memory.Thread) (hrequest : t'.request = t.request) (hphase : PhaseOk t' t'.phase) :
    Inv sha256 key ((s.setInflight key' value).set i t') := by
  have hnot : ¬ t.request.cacheKey = some key :=
    fun h => hne (Option.some.inj (h.symm.trans hkey))
  have hsame : Inv sha256 key (s.setInflight key' value) :=
    hi.congr rfl rfl (setInflight_of_ne s hne value)
  exact hsame.set ht hrequest hphase (fun h => absurd h hnot) (fun h => absurd h hnot)
    (fun h => absurd h hnot) fun h => absurd h hnot

/-- A request that finds the key in one of the tables. -/
theorem Inv.answer (hi : Inv sha256 key s) (ht : s.threads[i]? = some t) {key' : String}
    (hphase : t.phase = .readBody key') {result : Result} (source : Option Nat)
    (hok : PhaseOk { t with phase := .done result, source := source } (.done result))
    (hreplay : key' = key → ∀ r, result = .replay r →
      ∃ entry, s.cache key = some entry ∧ r = responseFromCached entry.cached) :
    Inv sha256 key (s.set i { t with phase := .done result, source := source }) := by
  obtain ⟨hkey, hcalled⟩ : PhaseOk t (.readBody key') := hphase ▸ hi.phase ht
  refine hi.set ht rfl hok ?_ ?_ ?_ ?_
  · intro _
    rw [hphase]
    rfl
  · intro _ r h
    exact h
  · intro _ r h
    exact .inl h
  · intro h r hr
    refine hreplay (Option.some.inj (hkey.symm.trans h)) r ?_
    simpa using hr

theorem Inv.check (hi : Inv sha256 key s) (ht : s.threads[i]? = some t) {key' : String}
    (hphase : t.phase = .readBody key') : Inv sha256 key (check sha256 i t key' s) := by
  obtain ⟨hkey, hcalled⟩ : PhaseOk t (.readBody key') := hphase ▸ hi.phase ht
  unfold Memory.check
  split
  case h_1 entry hcache =>
    refine hi.answer ht hphase (some entry.owner) ?_ ?_
    · split <;> exact hcalled
    · rintro rfl r hr
      split at hr
      · cases hr
      · exact ⟨entry, hcache, (Result.replay.inj hr).symm⟩
  case h_2 hcache =>
    split
    case h_1 entry hinflight =>
      refine hi.answer ht hphase (some entry.owner) ?_ ?_
      · split <;> exact hcalled
      · intro _ r hr
        split at hr <;> cases hr
    case h_2 hfree =>
      by_cases hne : key = key'
      · subst hne
        exact hi.take ht hphase hcache hfree
      · exact hi.other ht hkey hne _ _ rfl ⟨hkey, hcalled⟩

theorem evictExpired_cache {ttl : Int} {now : Time} (hlives : Lives ttl key s (.check i now)) :
    (evictExpired ttl now s).cache key = s.cache key := by
  unfold evictExpired
  split
  · rfl
  · cases hcache : s.cache key with
    | none => simp [hcache]
    | some entry =>
      have halive := hlives entry hcache
      simp only [hcache, Option.filter_some, gt_iff_lt, halive.not_gt, not_false_eq_true,
        decide_true, if_true]

theorem Inv.evict {ttl : Int} {now : Time} (hi : Inv sha256 key s)
    (hlives : Lives ttl key s (.check i now)) : Inv sha256 key (evictExpired ttl now s) :=
  hi.congr (evictExpired_threads s ttl now) (evictExpired_cache hlives)
    (by rw [evictExpired_inflight])

theorem Inv.called (hi : Inv sha256 key s) (ht : s.threads[i]? = some t) {key' : String}
    (hphase : t.phase = .callNext key') (result : Called) :
    Inv sha256 key (afterCallNext i t key' s result) := by
  obtain ⟨hkey, hcalled⟩ : PhaseOk t (.callNext key') := hphase ▸ hi.phase ht
  have hrunning : running t.phase = true := by rw [hphase]; rfl
  have hfailed : (∀ r, result = .returned r → r.success = false) → Inv sha256 key
      ((s.setInflight key' none).set i
        { t with phase := .done (finished result), called := some result }) := by
    intro hfailed
    by_cases hne : key = key'
    · subst hne
      exact hi.giveUp ht hkey hrunning hfailed
    · refine hi.other ht hkey hne none _ rfl ?_
      cases result <;> trivial
  cases result with
  | raised => exact hfailed nofun
  | returned r =>
    by_cases hsuccess : r.success = true
    · simp only [Memory.afterCallNext, hsuccess, if_true]
      refine hi.set ht rfl ⟨hkey, rfl, hsuccess⟩ ?_ ?_ ?_ ?_
      · intro _
        rw [hphase]
        rfl
      · intro _ r h
        cases hcalled.symm.trans h.1
      · intro _ r h
        exact .inr rfl
      · nofun
    · simp only [Memory.afterCallNext, hsuccess]
      refine hfailed fun r' hr' => ?_
      cases hr'
      simpa using hsuccess

theorem Inv.collected (hi : Inv sha256 key s) (ht : s.threads[i]? = some t) {key' : String}
    {r : Response} (hphase : t.phase = .collect key' r) (now : Time) :
    Inv sha256 key (afterCollect sha256 i t key' r now s) := by
  by_cases hne : key = key'
  · subst hne
    exact hi.store ht hphase now
  · obtain ⟨hkey, -⟩ : PhaseOk t (.collect key' r) := hphase ▸ hi.phase ht
    have hsame : ∀ value, Inv sha256 key { s with cache := Function.update s.cache key' value } :=
      fun value => hi.congr rfl (Function.update_of_ne hne value s.cache) rfl
    exact (hsame _).other ht hkey hne none _ rfl trivial

theorem Inv.passed (hi : Inv sha256 key s) (ht : s.threads[i]? = some t)
    (hphase : t.phase = .passThrough) (result : Called) :
    Inv sha256 key
      (s.set i { t with phase := .done (finished result), called := some result }) := by
  have hkey : t.request.cacheKey = none := by
    have hok := hi.phase ht
    rwa [hphase] at hok
  have hnot : ¬ t.request.cacheKey = some key := by simp [hkey]
  refine hi.set ht rfl ?_ (fun h => absurd h hnot) (fun h => absurd h hnot)
    (fun h => absurd h hnot) fun h => absurd h hnot
  cases result <;> trivial

theorem inv_step {ttl : Int} {l : Memory.Label} (hi : Inv sha256 key s)
    (hlives : Lives ttl key s l) (h : Memory.step sha256 ttl s l = some s') :
    Inv sha256 key s' := by
  cases step_moves h with
  | arrive request => exact hi.arrive request
  | check now ht hphase =>
    exact (hi.evict hlives).check (by rwa [evictExpired_threads]) hphase
  | passed result ht hphase => exact hi.passed ht hphase result
  | called result ht hphase => exact hi.called ht hphase result
  | collected now ht hphase => exact hi.collected ht hphase now
  | broken now ht hphase => cases hlives

theorem inv_init (sha256 : Bytes → String) (key : String) (start : Time) :
    Inv sha256 key { lastEviction := start } := by
  constructor <;> simp

theorem Inv.unique (hi : Inv sha256 key s) {j : Nat} {r r' : Response}
    (ht : s.threads[i]? = some t) (ht' : s.threads[j]? = some t')
    (hkey : t.request.cacheKey = some key) (hkey' : t'.request.cacheKey = some key)
    (hsuccess : Succeeded t r) (hsuccess' : Succeeded t' r') : i = j := by
  rcases hi.success ht hkey hsuccess with hrun | ⟨entry, hentry, howner⟩
  · obtain ⟨hcache, halone⟩ := hi.holder ht hkey hrun
    rcases hi.success ht' hkey' hsuccess' with hrun' | ⟨entry, hentry, -⟩
    · exact (halone ht' hkey' hrun').symm
    · cases hcache.symm.trans hentry
  · rcases hi.success ht' hkey' hsuccess' with hrun' | ⟨entry', hentry', howner'⟩
    · cases (hi.holder ht' hkey' hrun').1.symm.trans hentry
    · obtain rfl : entry = entry' := Option.some.inj (hentry.symm.trans hentry')
      exact howner.symm.trans howner'

/-- The response of an execution, replayed. -/
structure Repeats (r replay : Response) : Prop where
  statusCode : replay.statusCode = r.statusCode
  body : replay.body = r.body
  header : replay.headers.lookup replayHeader = some "true"

/-- The request of thread `j` is in flight, or its response is stored. -/
def Occupies (s : Memory.System) (key : String) (j : Nat) : Prop :=
  (∃ entry, s.cache key = some entry ∧ entry.owner = j) ∨
    ∃ entry, s.inflight key = some entry ∧ entry.owner = j

theorem repeats_responseFromCached (requestHash : String) (r : Response) :
    Repeats r (responseFromCached (collected requestHash r)) :=
  ⟨rfl, rfl, Dict.lookup_set_self _ _ _⟩

theorem Inv.replays (hi : Inv sha256 key s) (ht : s.threads[i]? = some t)
    (hkey : t.request.cacheKey = some key) {replay : Response}
    (hphase : t.phase = .done (.replay replay)) :
    ∃ (j : Nat) (u : Memory.Thread) (r : Response), s.threads[j]? = some u ∧
      u.request.cacheKey = some key ∧ Succeeded u r ∧ Repeats r replay := by
  obtain ⟨entry, hentry, rfl⟩ := hi.replay ht hkey hphase
  obtain ⟨u, r, hu, hkey', hsucceeded, hcached⟩ := hi.cached hentry
  rw [hcached]
  exact ⟨entry.owner, u, r, hu, hkey', hsucceeded, repeats_responseFromCached _ r⟩

/-- The hash in a table is the one of the request that put it there. -/
theorem Inv.occupied (hi : Inv sha256 key s) {j : Nat} (hj : Occupies s key j) :
    ∃ u, s.threads[j]? = some u ∧ u.request.cacheKey = some key ∧
      ((∃ entry, s.cache key = some entry ∧
          entry.cached.requestHash = u.request.requestHash sha256) ∨
        s.cache key = none ∧ ∃ entry, s.inflight key = some entry ∧
          entry.requestHash = u.request.requestHash sha256) := by
  rcases hj with ⟨entry, hentry, rfl⟩ | ⟨entry, hentry, rfl⟩
  · obtain ⟨u, r, hu, hkey, -, hcached⟩ := hi.cached hentry
    refine ⟨u, hu, hkey, .inl ⟨entry, hentry, ?_⟩⟩
    rw [hcached]
    rfl
  · obtain ⟨hcache, u, hu, hkey, hhash⟩ := hi.inflight hentry
    exact ⟨u, hu, hkey, .inr ⟨hcache, entry, hentry, hhash⟩⟩

/-- A request that differs from the one that occupies its key is refused. -/
theorem Inv.check_conflict (hi : Inv sha256 key s) (hinj : Function.Injective sha256)
    (hhex : ∀ data, '\n' ∉ (sha256 data).toList) (ht : s.threads[i]? = some t)
    (hkey : t.request.cacheKey = some key) {j : Nat} {u : Memory.Thread} (hj : Occupies s key j)
    (hu : s.threads[j]? = some u) (hdiffers : ¬ Request.Same t.request u.request) :
    ∃ source, (Memory.check sha256 i t key s).threads[i]? =
      some { t with phase := .done (.error conflictResponse), source := source } := by
  obtain ⟨u', hu', hkey', htables⟩ := hi.occupied hj
  obtain rfl : u = u' := Option.some.inj (hu.symm.trans hu')
  have hhash : u.request.requestHash sha256 ≠ t.request.requestHash sha256 := fun h =>
    hdiffers (Request.same_of_requestHash_eq hinj hhex (Request.method_of_cacheKey hkey)
      (Request.method_of_cacheKey hkey') h.symm)
  rcases htables with ⟨entry, hcache, hentry⟩ | ⟨hcache, entry, hinflight, hentry⟩
  · refine ⟨some entry.owner, ?_⟩
    simp only [Memory.check, hcache, hentry, hhash, ne_eq, not_false_eq_true, if_true, set_threads]
    exact Pool.getElem?_set_self ht _
  · refine ⟨some entry.owner, ?_⟩
    simp only [Memory.check, hcache, hinflight, hentry, hhash, ne_eq, not_false_eq_true, if_true,
      set_threads]
    exact Pool.getElem?_set_self ht _

/-- A request that has its answer takes no further step. -/
theorem done_step {ttl : Int} {l : Memory.Label} {result : Result}
    (h : Memory.step sha256 ttl s l = some s') (ht : s.threads[i]? = some t)
    (hdone : t.phase = .done result) : s'.threads[i]? = some t := by
  rcases (step_moves h).threads with ⟨request, hthreads⟩ | ⟨j, u, u', hu, hwaiting, hthreads, -⟩
  · rw [hthreads]
    exact getElem?_append_old ht _
  · rw [hthreads, List.getElem?_set_ne, ht]
    rintro rfl
    obtain rfl : t = u := Option.some.inj (ht.symm.trans hu)
    exact hwaiting result hdone

theorem done_run {ttl : Int} {ls : List Memory.Label} {result : Result}
    (h : run (Memory.step sha256 ttl) s ls = some s') (ht : s.threads[i]? = some t)
    (hdone : t.phase = .done result) : s'.threads[i]? = some t :=
  run_preserves (I := fun s => s.threads[i]? = some t) (fun _ _ _ ht h => done_step h ht hdone) ht h

/-- A key that neither table holds goes to the next request that asks. -/
theorem check_free (ht : s.threads[i]? = some t) (hcache : s.cache key = none)
    (hfree : s.inflight key = none) :
    (Memory.check sha256 i t key s).threads[i]? = some { t with phase := .callNext key } := by
  simp only [Memory.check, hcache, hfree, set_threads, setInflight_threads]
  exact Pool.getElem?_set_self ht _

/-- The state after the check of a request with the key. -/
theorem step_check {ttl : Int} {now : Time} (h : Memory.step sha256 ttl s (.check i now) = some s')
    (hi : Inv sha256 key s) (ht : s.threads[i]? = some t) (hkey : t.request.cacheKey = some key) :
    t.phase = .readBody key ∧ s' = Memory.check sha256 i t key (evictExpired ttl now s) := by
  cases step_moves h with
  | @check _ t' key' _ ht' hphase =>
    obtain rfl : t = t' := Option.some.inj (ht.symm.trans ht')
    obtain ⟨hkey', -⟩ : PhaseOk t (.readBody key') := hphase ▸ hi.phase ht
    obtain rfl : key = key' := Option.some.inj (hkey.symm.trans hkey')
    exact ⟨hphase, rfl⟩

theorem Inv.refuses {ttl : Int} {now : Time} (hi : Inv sha256 key s)
    (hinj : Function.Injective sha256) (hhex : ∀ data, '\n' ∉ (sha256 data).toList)
    (hlives : Lives ttl key s (.check i now))
    (h : Memory.step sha256 ttl s (.check i now) = some s') (ht : s.threads[i]? = some t)
    (hkey : t.request.cacheKey = some key) {j : Nat} {u : Memory.Thread} (hj : Occupies s key j)
    (hu : s.threads[j]? = some u) (hdiffers : ¬ Request.Same t.request u.request) :
    ∃ t', s'.threads[i]? = some t' ∧ t'.phase = .done (.error conflictResponse) ∧
      t'.called = none := by
  obtain ⟨hphase, rfl⟩ := step_check h hi ht hkey
  obtain ⟨-, hcalled⟩ : PhaseOk t (.readBody key) := hphase ▸ hi.phase ht
  have hj' : Occupies (evictExpired ttl now s) key j := by
    unfold Occupies
    rw [evictExpired_cache hlives, evictExpired_inflight]
    exact hj
  rw [← evictExpired_threads s ttl now] at ht hu
  obtain ⟨source, hafter⟩ :=
    (hi.evict hlives).check_conflict hinj hhex ht hkey hj' hu hdiffers
  exact ⟨_, hafter, rfl, hcalled⟩

/-- An execution that did not return 2xx leaves the key to the next request. -/
theorem Inv.leaves {ttl : Int} {result : Called} (hi : Inv sha256 key s)
    (h : Memory.step sha256 ttl s (.callNext i result) = some s') (ht : s.threads[i]? = some t)
    (hphase : t.phase = .callNext key) (hfailed : ∀ r, result = .returned r → r.success = false) :
    s'.cache key = none ∧ s'.inflight key = none := by
  obtain ⟨hkey, -⟩ : PhaseOk t (.callNext key) := hphase ▸ hi.phase ht
  have hcache := (hi.holder ht hkey (by rw [hphase]; rfl)).1
  cases step_moves h with
  | passed _ ht' hphase' =>
    obtain rfl := Option.some.inj (ht.symm.trans ht')
    cases hphase.symm.trans hphase'
  | called _ ht' hphase' =>
    obtain rfl := Option.some.inj (ht.symm.trans ht')
    obtain rfl := Memory.Phase.callNext.inj (hphase.symm.trans hphase')
    cases result with
    | raised => simp [Memory.afterCallNext, hcache]
    | returned r => simp [Memory.afterCallNext, hfailed r rfl, hcache]

theorem Inv.retries {ttl : Int} {now : Time} (hi : Inv sha256 key s) (hcache : s.cache key = none)
    (hfree : s.inflight key = none) (ht : s.threads[i]? = some t)
    (hkey : t.request.cacheKey = some key)
    (h : Memory.step sha256 ttl s (.check i now) = some s') :
    s'.threads[i]? = some { t with phase := .callNext key } := by
  obtain ⟨-, rfl⟩ := step_check h hi ht hkey
  have hlives : Lives ttl key s (.check i now) := by
    intro entry hentry
    simp [hcache] at hentry
  rw [← evictExpired_threads s ttl now] at ht
  refine check_free ht ?_ ?_
  · rw [evictExpired_cache hlives, hcache]
  · rw [evictExpired_inflight, hfree]

variable {ttl : Int} {start : Time} {ls : List Memory.Label}

/-- In every state of a run in which the response stored for the key is within its lifetime and
every 2xx body is collected: at most one execution has returned 2xx; a replay repeats it; a request
that differs from the one whose response is stored or that is in flight is refused and never
executed; and an execution that did not return 2xx leaves the key to the next request. -/
theorem one_execution_while_lives (hinj : Function.Injective sha256)
    (hhex : ∀ data, '\n' ∉ (sha256 data).toList)
    (hg : Guarded (Memory.step sha256 ttl) (Lives ttl key) { lastEviction := start } ls)
    (hr : run (Memory.step sha256 ttl) { lastEviction := start } ls = some s) :
    (∀ {i j : Nat} {t t' : Memory.Thread} {r r' : Response}, s.threads[i]? = some t →
        s.threads[j]? = some t' → t.request.cacheKey = some key →
        t'.request.cacheKey = some key → Succeeded t r → Succeeded t' r' → i = j) ∧
      (∀ {i : Nat} {t : Memory.Thread} {replay : Response}, s.threads[i]? = some t →
        t.request.cacheKey = some key → t.phase = .done (.replay replay) →
        ∃ (j : Nat) (u : Memory.Thread) (r : Response), s.threads[j]? = some u ∧
          u.request.cacheKey = some key ∧ Succeeded u r ∧ Repeats r replay) ∧
      (∀ {i j : Nat} {t u : Memory.Thread} {now : Time} {s' : Memory.System},
        s.threads[i]? = some t → t.request.cacheKey = some key → Occupies s key j →
        s.threads[j]? = some u → ¬ Request.Same t.request u.request →
        Lives ttl key s (.check i now) → Memory.step sha256 ttl s (.check i now) = some s' →
        ∀ {ls' : List Memory.Label} {s'' : Memory.System},
          run (Memory.step sha256 ttl) s' ls' = some s'' →
          ∃ t', s''.threads[i]? = some t' ∧ t'.phase = .done (.error conflictResponse) ∧
            t'.called = none) ∧
      ∀ {i : Nat} {t : Memory.Thread} {result : Called} {s' : Memory.System},
        s.threads[i]? = some t → t.phase = .callNext key →
        (∀ r, result = .returned r → r.success = false) →
        Memory.step sha256 ttl s (.callNext i result) = some s' →
        s'.cache key = none ∧ s'.inflight key = none ∧
          ∀ {j : Nat} {u : Memory.Thread} {now : Time} {s'' : Memory.System},
            s'.threads[j]? = some u → u.request.cacheKey = some key →
            Memory.step sha256 ttl s' (.check j now) = some s'' →
            s''.threads[j]? = some { u with phase := .callNext key } := by
  have hi : Inv sha256 key s :=
    run_invariant (fun _ _ _ => inv_step) (inv_init sha256 key start) hg hr
  refine ⟨hi.unique, fun ht hkey => hi.replays ht hkey, ?_, ?_⟩
  · intro i j t u now s' ht hkey hj hu hdiffers hlives h ls' s'' hr'
    obtain ⟨t', ht', hphase, hcalled⟩ :=
      hi.refuses hinj hhex hlives h ht hkey hj hu hdiffers
    exact ⟨t', done_run hr' ht' hphase, hphase, hcalled⟩
  · intro i t result s' ht hphase hfailed h
    obtain ⟨hcache, hfree⟩ := hi.leaves h ht hphase hfailed
    refine ⟨hcache, hfree, fun hu hkey h' => ?_⟩
    have hlives : Lives ttl key s (.callNext i result) := trivial
    exact Inv.retries (inv_step hi hlives h) hcache hfree hu hkey h'

def created : Response := { statusCode := 201, body := [1] }

def aliceRequest : Request := createRequest (some "alice") none "k"

/-- A request executes, its retry gets the response. -/
def retriedRun : List Memory.Label :=
  [.arrive aliceRequest, .check 0 0, .callNext 0 (.returned created),
    .collect 0 true 1, .arrive aliceRequest, .check 1 2]

/-- The retry in the last state of the run. -/
def retried : Memory.Thread where
  request := aliceRequest
  phase := .done (.replay { created with headers := [("Idempotency-Replayed", "true")] })
  source := some 0

theorem one_execution_of_retriedRun :
    ∃ s, run (Memory.step (digestOf digests) 86400) { lastEviction := 0 } retriedRun = some s ∧
      s.threads[1]? = some retried ∧ ∃ (j : Nat) (u : Memory.Thread) (r : Response),
        s.threads[j]? = some u ∧ Succeeded u r ∧
          Repeats r { created with headers := [("Idempotency-Replayed", "true")] } := by
  have hrun : (run (Memory.step (digestOf digests) 86400) { lastEviction := 0 } retriedRun).bind
      (·.threads[1]?) = some retried := by decide +kernel
  obtain ⟨s, hr, ht⟩ := Option.bind_eq_some_iff.mp hrun
  have hlives : Guarded (Memory.step (digestOf digests) 86400) (Lives 86400 "alice:k")
      { lastEviction := 0 } retriedRun := by decide +kernel
  obtain ⟨-, hreplays, -⟩ := one_execution_while_lives digests_injective
    (notMem_digestOf (by decide) (by decide) (by decide +kernel)) hlives hr
  obtain ⟨j, u, r, hu, -, hsucceeded, hrepeats⟩ := hreplays ht (by decide) rfl
  exact ⟨s, hr, ht, j, u, r, hu, hsucceeded, hrepeats⟩

end Marty.Idempotency.Once
