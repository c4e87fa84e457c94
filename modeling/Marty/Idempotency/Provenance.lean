import Marty.Idempotency.Exclusive
import Marty.Idempotency.Isolation
import Marty.Idempotency.Once

/-! Where the responses come from, on both storage paths and in every run: an execution is answered
with its own response built anew, and a replay is that of an execution that succeeded. -/

namespace Marty.Idempotency.Provenance

open Lib Lib.Run Lib.Pool Redis Exclusive

/-- A 2xx response as its own request gets it; the hash plays no part in it. -/
def returnOf (r : Response) : Response := rebuilt (collected "" r)

/-- The result of a request whose call gave `called`, where `R` are the replays. -/
def Sound (R : Response → Prop) (called : Option Called) : Result → Prop
  | .executed r' => ∃ r, called = some (.returned r) ∧ (r.success = true → r' = returnOf r)
  | .replay r' => R r'
  | .error _ | .raised => True

theorem Sound.mono {R R' : Response → Prop} (hR : ∀ r, R r → R' r) {called : Option Called}
    {result : Result} (h : Sound R called result) : Sound R' called result := by
  cases result with
  | replay r => exact hR r h
  | executed | error | raised => exact h

namespace Redis

/-- What a request carries in a phase. -/
def Carries (R : Response → Prop) (t : Thread) : Phase → Prop
  | .readData | .tryLock | .readLock | .callNext _ => t.called = none
  | .collect _ r => Succeeded t r
  | .writeData _ cached => ∃ r, Succeeded t r ∧ cached = collected t.requestHash r
  | .stopRenewal _ result | .release _ result | .releaseDelete _ result | .done result =>
    Sound R t.called result

theorem Carries.mono {R R' : Response → Prop} (hR : ∀ r, R r → R' r) {t : Thread} {p : Phase}
    (h : Carries R t p) : Carries R' t p := by
  cases p with
  | stopRenewal | release | releaseDelete | done => exact Sound.mono hR h
  | _ => exact h

structure Inv (s : System) : Prop where
  thread : ∀ {i : Nat} {t : Thread}, s.threads[i]? = some t → Carries (Replays s) t t.phase
  data : ∀ {payload : CachedPayload}, s.data = some payload → Stored s payload

variable {s s' : System} {i : Nat} {t t' : Thread} {l : Label}

theorem Inv.move (hi : Inv s) (h : Moves s s' i t t') (ht' : Carries (Replays s) t' t'.phase)
    (hdata : ∀ {payload}, s'.data = some payload → s.data = some payload ∨ Stored s' payload) :
    Inv s' where
  thread hj := by
    rcases h.cases hj with ⟨-, rfl⟩ | ⟨-, hj⟩
    · exact ht'.mono fun _ => h.replays
    · exact (hi.thread hj).mono fun _ => h.replays
  data hpayload := (hdata hpayload).elim (fun hold => h.stored (hi.data hold)) id

/-- A step of a request that leaves what is stored alone. -/
theorem Inv.set (hi : Inv s) (ht : s.threads[i]? = some t)
    (hthreads : s'.threads = s.threads.set i t')
    (hdata : s'.data = s.data) (hhash : t'.requestHash = t.requestHash)
    (hcalled : t'.called = t.called) (ht' : Carries (Replays s) t' t'.phase) : Inv s' :=
  hi.move ⟨ht, hthreads, hhash, fun h => hcalled.trans h⟩ ht' fun h => .inl (hdata ▸ h)

theorem Inv.carries (hi : Inv s) (ht : s.threads[i]? = some t) {p : Phase} (hphase : t.phase = p) :
    Carries (Replays s) t p := hphase ▸ hi.thread ht

theorem carries_afterReadData (hi : Inv s) (ht : t.called = none) (requestHash : String) :
    Carries (Replays s) t (afterReadData s.data requestHash) := by
  unfold afterReadData
  split
  case h_1 cached hcached =>
    obtain ⟨payload, hdata, hread⟩ := Option.bind_eq_some_iff.mp hcached
    obtain ⟨j, u, r, hj, hr, rfl⟩ := hi.data hdata
    obtain ⟨_, hback, hreplay⟩ := deserialiseCached_serialiseCached u.requestHash r
    obtain rfl := Option.some.inj (hback.symm.trans hread)
    split
    · trivial
    · exact ⟨j, u, r, hj, hr, hreplay⟩
  case h_2 => exact ht

theorem carries_afterReadLock (R : Response → Prop) (lock : Option LockPayload)
    (requestHash : String) : Carries R t (afterReadLock lock requestHash) := by
  unfold afterReadLock
  split
  · split <;> trivial
  · trivial

theorem carries_afterCallNext (R : Response → Prop) {token : String} {result : Called}
    (h : t.called = some result) : Carries R t (afterCallNext token result) := by
  cases result with
  | returned r =>
    simp only [afterCallNext]
    split
    case isTrue hsuccess => exact ⟨h, hsuccess⟩
    case isFalse hfailure => exact ⟨r, h, fun hsuccess => absurd hsuccess hfailure⟩
  | raised => trivial

theorem Carries.fault {R : Response → Prop} {p p' : Phase} (h : Carries R t p)
    (hfault : afterFault p = some p') : Carries R t p' := by
  cases p <;> cases hfault
  case release | releaseDelete => exact h
  all_goals trivial

theorem inv_step (hi : Inv s) (h : step s l = some s') : Inv s' := by
  cases steps_of_step h with
  | arrive requestHash =>
    have hreplays {r : Response} : Replays s r →
        Replays { s with threads := s.threads ++ [{ requestHash := requestHash }] } r := by
      rintro ⟨j, u, r, hj, hr⟩
      exact ⟨j, u, r, getElem?_append_old hj _, hr⟩
    constructor
    case thread =>
      intro j u hj
      rcases getElem?_append_cases hj with ⟨-, rfl⟩ | hj
      · exact rfl
      · exact (hi.thread hj).mono fun _ => hreplays
    case data =>
      intro payload hpayload
      obtain ⟨j, u, r, hj, hr⟩ := hi.data hpayload
      exact ⟨j, u, r, getElem?_append_old hj _, hr⟩
  | readData ht hphase =>
    have hnone : _ = none := hi.carries ht hphase
    exact hi.set ht rfl rfl rfl rfl (carries_afterReadData hi hnone _)
  | locked ht hphase hfresh hlock => exact hi.set ht rfl rfl rfl rfl (hi.carries ht hphase)
  | blocked ht hphase hfresh hlock => exact hi.set ht rfl rfl rfl rfl (hi.carries ht hphase)
  | readLock ht hphase => exact hi.set ht rfl rfl rfl rfl (carries_afterReadLock _ _ _)
  | callNext result ht hphase =>
    have hnone : _ = none := hi.carries ht hphase
    refine hi.move ⟨ht, rfl, rfl, fun h => ?_⟩ (carries_afterCallNext _ rfl) .inl
    rw [hnone] at h
    cases h
  | collect ok ht hphase =>
    refine hi.set ht rfl rfl rfl rfl ?_
    cases ok with
    | true => exact ⟨_, hi.carries ht hphase, rfl⟩
    | false => trivial
  | @writeData i t token cached ht hphase =>
    obtain ⟨r, hr, rfl⟩ := hi.carries ht hphase
    refine hi.move ⟨ht, rfl, rfl, id⟩ ⟨r, hr.1, fun _ => rfl⟩ fun hpayload => .inr ?_
    exact ⟨i, _, r, getElem?_set_self ht _, hr, (Option.some.inj hpayload).symm⟩
  | stopRenewal ht hphase =>
    refine hi.set ht rfl rfl ?_ ?_ ?_
    · split <;> rfl
    · split <;> rfl
    · split
      · trivial
      · exact hi.carries ht hphase
  | release ht hphase => exact hi.set ht rfl rfl rfl rfl (hi.carries ht hphase)
  | releaseGet ht hphase =>
    refine hi.set ht rfl rfl rfl rfl ?_
    dsimp only
    split <;> exact hi.carries ht hphase
  | releaseDelete ht hphase => exact hi.set ht rfl rfl rfl rfl (hi.carries ht hphase)
  | renewGet ht hrenewal =>
    have hold := hi.thread ht
    exact hi.set ht rfl rfl rfl rfl hold
  | renewExpire ht hrenewal =>
    have hold := hi.thread ht
    exact hi.set ht rfl rfl rfl rfl hold
  | fault ht hfault => exact hi.set ht rfl rfl rfl rfl ((hi.thread ht).fault hfault)
  | renewFault ht hfault =>
    have hold := hi.thread ht
    exact hi.set ht rfl rfl rfl rfl hold
  | expireLock => exact ⟨hi.thread, hi.data⟩
  | expireData => exact ⟨hi.thread, nofun⟩

theorem inv_of_run {ls : List Label} (h : run step {} ls = some s) : Inv s := by
  have hinit : Inv {} := ⟨fun h => by simp at h, nofun⟩
  exact run_preserves (fun _ _ _ hi hs => inv_step hi hs) hinit h

end Redis

namespace Memory

variable (s : Memory.System)

def Replays (replay : Response) : Prop :=
  ∃ (i : Nat) (t : Memory.Thread) (r : Response),
    s.threads[i]? = some t ∧ Once.Succeeded t r ∧ replay = replayOf r

def Stored (cached : CachedResponse) : Prop :=
  ∃ (i : Nat) (t : Memory.Thread) (r : Response) (requestHash : String),
    s.threads[i]? = some t ∧ Once.Succeeded t r ∧ cached = collected requestHash r

/-- What a request carries in a phase; one without a key is only passed on. -/
def Carries (R : Response → Prop) (t : Memory.Thread) : Memory.Phase → Prop
  | .passThrough => t.request.cacheKey = none ∧ t.called = none
  | .readBody _ | .callNext _ => t.called = none
  | .collect _ r => Once.Succeeded t r
  | .done result => t.request.cacheKey ≠ none → Sound R t.called result

structure Inv : Prop where
  thread : ∀ {i : Nat} {t : Memory.Thread}, s.threads[i]? = some t → Carries (Replays s) t t.phase
  cache : ∀ {key : String} {entry : Memory.Entry}, s.cache key = some entry → Stored s entry.cached

variable {s} {s' : Memory.System} {i : Nat} {t t' : Memory.Thread} {l : Memory.Label}

theorem Carries.mono {R R' : Response → Prop} (hR : ∀ r, R r → R' r) {p : Memory.Phase}
    (h : Carries R t p) : Carries R' t p := by
  cases p with
  | done => exact fun hkey => (h hkey).mono hR
  | _ => exact h

theorem succeeded_set (ht : s.threads[i]? = some t) (hthreads : s'.threads = s.threads.set i t')
    (hcalled : ∀ {c}, t.called = some c → t'.called = some c) {j : Nat} {u : Memory.Thread}
    {r : Response} (hj : s.threads[j]? = some u) (hr : Once.Succeeded u r) :
    ∃ v, s'.threads[j]? = some v ∧ Once.Succeeded v r := by
  rw [hthreads]
  by_cases hji : j = i
  · subst hji
    obtain rfl : t = u := Option.some.inj (ht.symm.trans hj)
    exact ⟨t', getElem?_set_self ht t', hcalled hr.1, hr.2⟩
  · exact ⟨u, (List.getElem?_set_ne (Ne.symm hji)).trans hj, hr⟩

theorem Inv.move (hi : Inv s) (ht : s.threads[i]? = some t)
    (hthreads : s'.threads = s.threads.set i t')
    (hcalled : ∀ {c}, t.called = some c → t'.called = some c)
    (ht' : Carries (Replays s) t' t'.phase)
    (hcache : ∀ {key entry}, s'.cache key = some entry →
      s.cache key = some entry ∨ Stored s' entry.cached) : Inv s' := by
  have hreplays {r : Response} : Replays s r → Replays s' r := by
    rintro ⟨j, u, r, hj, hr, rfl⟩
    obtain ⟨v, hv, hr⟩ := succeeded_set ht hthreads hcalled hj hr
    exact ⟨j, v, r, hv, hr, rfl⟩
  constructor
  case thread =>
    intro j u hj
    rw [hthreads] at hj
    rcases getElem?_set_cases hj with ⟨-, rfl⟩ | ⟨-, hj⟩
    · exact ht'.mono fun _ => hreplays
    · exact (hi.thread hj).mono fun _ => hreplays
  case cache =>
    intro key entry hentry
    rcases hcache hentry with hold | hnew
    · obtain ⟨j, u, r, requestHash, hj, hr, hcached⟩ := hi.cache hold
      obtain ⟨v, hv, hr⟩ := succeeded_set ht hthreads hcalled hj hr
      exact ⟨j, v, r, requestHash, hv, hr, hcached⟩
    · exact hnew

theorem Inv.arrive (hi : Inv s) (request : Request) : Inv { s with
    threads := s.threads ++ [{ request := request, phase := Memory.initialPhase request }] } := by
  constructor
  case thread =>
    intro j u hj
    rcases getElem?_append_cases hj with ⟨-, rfl⟩ | hj
    · simp only [Memory.initialPhase]
      split
      case h_1 => exact rfl
      case h_2 hkey => exact ⟨hkey, rfl⟩
    · refine (hi.thread hj).mono ?_
      rintro _ ⟨k, u, r, hk, hr⟩
      exact ⟨k, u, r, getElem?_append_old hk _, hr⟩
  case cache =>
    intro key entry hentry
    obtain ⟨j, u, r, requestHash, hj, hr⟩ := hi.cache hentry
    exact ⟨j, u, r, requestHash, getElem?_append_old hj _, hr⟩

theorem Inv.evict (hi : Inv s) (ttl : Int) (now : Memory.Time) :
    Inv (Memory.evictExpired ttl now s) := by
  have hthreads : (Memory.evictExpired ttl now s).threads = s.threads :=
    Memory.evictExpired_threads s ttl now
  constructor
  case thread =>
    intro j u hj
    refine (hi.thread (hthreads ▸ hj)).mono ?_
    rintro _ ⟨k, v, r, hk, hr⟩
    exact ⟨k, v, r, hthreads ▸ hk, hr⟩
  case cache =>
    intro key entry hentry
    simp only [Stored, hthreads]
    exact hi.cache (Isolation.evictExpired_cache_le hentry)

theorem Inv.check (hi : Inv s) (sha256 : Lib.Base64.Bytes → String) (ht : s.threads[i]? = some t)
    {key : String} (hphase : t.phase = .readBody key) : Inv (Memory.check sha256 i t key s) := by
  have hcarries : Carries (Replays s) t (.readBody key) := hphase ▸ hi.thread ht
  unfold Memory.check
  split
  case h_1 entry hentry =>
    refine hi.move ht rfl id (fun _ => ?_) .inl
    dsimp only
    split
    · trivial
    · obtain ⟨j, u, r, requestHash, hj, hr, hcached⟩ := hi.cache hentry
      exact ⟨j, u, r, hj, hr, by rw [hcached]; rfl⟩
  case h_2 =>
    split
    case h_1 =>
      refine hi.move ht rfl id (fun _ => ?_) .inl
      dsimp only
      split <;> trivial
    case h_2 => exact hi.move ht rfl id hcarries .inl

theorem Inv.called (hi : Inv s) (ht : s.threads[i]? = some t) {key : String}
    (hphase : t.phase = .callNext key) (result : Called) :
    Inv (Memory.afterCallNext i t key s result) := by
  have hnone : t.called = none := by
    have hcarries : Carries (Replays s) t (.callNext key) := hphase ▸ hi.thread ht
    exact hcarries
  have hcalled {c : Called} : t.called = some c → some result = some c := by
    rw [hnone]
    exact nofun
  unfold Memory.afterCallNext
  split
  case h_1 r =>
    dsimp only
    split
    case isTrue hsuccess => exact hi.move ht rfl hcalled ⟨rfl, hsuccess⟩ .inl
    case isFalse hfailure =>
      exact hi.move ht rfl hcalled (fun _ => ⟨r, rfl, fun h => absurd h hfailure⟩) .inl
  case h_2 => exact hi.move ht rfl hcalled (fun _ => trivial) .inl

variable {sha256 : Lib.Base64.Bytes → String} {ttl : Int}

theorem inv_step (hi : Inv s) (h : Memory.step sha256 ttl s l = some s') : Inv s' := by
  cases Memory.step_moves h with
  | arrive request => exact hi.arrive request
  | check now ht hphase =>
    refine (hi.evict ttl now).check sha256 ?_ hphase
    rwa [Memory.evictExpired_threads]
  | @passed i t result ht hphase =>
    obtain ⟨hkey, hnone⟩ : Carries (Replays s) t .passThrough := hphase ▸ hi.thread ht
    refine hi.move ht rfl (fun h => ?_) (fun hne => absurd hkey hne) .inl
    rw [hnone] at h
    cases h
  | called result ht hphase => exact hi.called ht hphase result
  | @collected i t key r now ht hphase =>
    have hsucceeded : Carries (Replays s) t (.collect key r) := hphase ▸ hi.thread ht
    refine hi.move ht rfl id (fun _ => ⟨r, hsucceeded.1, fun _ => rfl⟩) fun hentry => ?_
    rcases Dict.update_eq_some hentry with ⟨-, hnew⟩ | hold
    · obtain rfl := Option.some.inj hnew
      exact .inr ⟨i, _, r, _, getElem?_set_self ht _, hsucceeded, rfl⟩
    · exact .inl hold
  | broken now ht hphase => exact hi.move ht rfl id (fun _ => trivial) .inl

theorem inv_of_run {start : Memory.Time} {ls : List Memory.Label}
    (h : run (Memory.step sha256 ttl) { lastEviction := start } ls = some s) : Inv s := by
  have hinit : Inv { lastEviction := start } := ⟨fun h => by simp at h, nofun⟩
  exact run_preserves (fun _ _ _ hi hs => inv_step hi hs) hinit h

end Memory

end Marty.Idempotency.Provenance
