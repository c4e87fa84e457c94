import Marty.Lib.Pool
import Marty.Idempotency.Memory
import Marty.Idempotency.Store

/-! Which requests can be answered from the entry of which.  Both storage paths know a request by
its namespaced key alone. -/

namespace Marty.Idempotency.Isolation

open Lib Lib.Base64 Lib.Dict Lib.Text Lib.Run Lib.Pool Redis

/-- Results that come from an entry: a replay, or a 409. -/
def isAnswer : Result → Bool
  | .error _ | .replay _ => true
  | .executed _ | .raised => false

section memory

/-- The key that a request in this phase works with. -/
def phaseKey : Memory.Phase → Option String
  | .readBody key | .callNext key | .collect key _ => some key
  | .passThrough | .done _ => none

/-- The request of thread `j` has the key. -/
def Owns (s : Memory.System) (key : String) (j : Nat) : Prop :=
  ∃ u, s.threads[j]? = some u ∧ u.request.cacheKey = some key

/-- Every entry stands under the key of its owner, and every answer has a source with the key of
the request. -/
structure Traced (s : Memory.System) : Prop where
  key : ∀ {i : Nat} {t : Memory.Thread} {key : String}, s.threads[i]? = some t →
    phaseKey t.phase = some key → t.request.cacheKey = some key
  cache : ∀ {key : String} {entry : Memory.Entry}, s.cache key = some entry →
    Owns s key entry.owner
  inflight : ∀ {key : String} {entry : Memory.Inflight}, s.inflight key = some entry →
    Owns s key entry.owner
  source : ∀ {i j : Nat} {t : Memory.Thread}, s.threads[i]? = some t → t.source = some j →
    ∃ key, Owns s key j ∧ t.request.cacheKey = some key
  answered : ∀ {i : Nat} {t : Memory.Thread} {result : Result}, s.threads[i]? = some t →
    t.phase = .done result → isAnswer result = true → ∃ j, t.source = some j

variable {sha256 : Bytes → String} {ttl : Int} {s s' : Memory.System} {i : Nat}
  {t t' : Memory.Thread}

theorem Owns.set (ht : s.threads[i]? = some t) (hthreads : s'.threads = s.threads.set i t')
    (hrequest : t'.request = t.request) {key : String} {j : Nat} (h : Owns s key j) :
    Owns s' key j := by
  obtain ⟨u, hu, hkey⟩ := h
  by_cases hij : j = i
  · subst hij
    obtain rfl : t = u := Option.some.inj (ht.symm.trans hu)
    exact ⟨t', by rw [hthreads]; exact getElem?_set_self ht t', hrequest ▸ hkey⟩
  · exact ⟨u, by rw [hthreads, List.getElem?_set_ne (Ne.symm hij)]; exact hu, hkey⟩

/-- A step of one request.  What it puts into the tables stands under its own key, and what answers
it stood there. -/
theorem Traced.set (hs : Traced s) (ht : s.threads[i]? = some t)
    (hthreads : s'.threads = s.threads.set i t') (hrequest : t'.request = t.request)
    (hphase : ∀ {key}, phaseKey t'.phase = some key → t.request.cacheKey = some key)
    (hcache : ∀ {key entry}, s'.cache key = some entry →
      s.cache key = some entry ∨ entry.owner = i ∧ t.request.cacheKey = some key)
    (hinflight : ∀ {key entry}, s'.inflight key = some entry →
      s.inflight key = some entry ∨ entry.owner = i ∧ t.request.cacheKey = some key)
    (hsource : ∀ {j}, t'.source = some j → t.source = some j ∨
      ∃ key, Owns s key j ∧ t.request.cacheKey = some key)
    (hanswered : ∀ {result}, t'.phase = .done result → isAnswer result = true →
      ∃ j, t'.source = some j) : Traced s' := by
  have howns : ∀ {key j}, Owns s key j → Owns s' key j := Owns.set ht hthreads hrequest
  have hself : ∀ {key}, t.request.cacheKey = some key → Owns s key i := fun h => ⟨t, ht, h⟩
  constructor
  case key =>
    intro j u key hj hkey
    rw [hthreads] at hj
    rcases getElem?_set_cases hj with ⟨-, rfl⟩ | ⟨-, hj⟩
    · exact hrequest ▸ hphase hkey
    · exact hs.key hj hkey
  case cache =>
    intro key entry hentry
    rcases hcache hentry with h | ⟨rfl, h⟩
    · exact howns (hs.cache h)
    · exact howns (hself h)
  case inflight =>
    intro key entry hentry
    rcases hinflight hentry with h | ⟨rfl, h⟩
    · exact howns (hs.inflight h)
    · exact howns (hself h)
  case source =>
    intro j k u hj hk
    rw [hthreads] at hj
    rcases getElem?_set_cases hj with ⟨-, rfl⟩ | ⟨-, hj⟩
    · rw [hrequest]
      rcases hsource hk with h | ⟨key, h, hkey⟩
      · obtain ⟨key, h, hkey⟩ := hs.source ht h
        exact ⟨key, howns h, hkey⟩
      · exact ⟨key, howns h, hkey⟩
    · obtain ⟨key, h, hkey⟩ := hs.source hj hk
      exact ⟨key, howns h, hkey⟩
  case answered =>
    intro j u result hj hdone hanswer
    rw [hthreads] at hj
    rcases getElem?_set_cases hj with ⟨-, rfl⟩ | ⟨-, hj⟩
    · exact hanswered hdone hanswer
    · exact hs.answered hj hdone hanswer

theorem Traced.arrive (hs : Traced s) (request : Request) :
    Traced { s with
      threads := s.threads ++ [{ request := request, phase := Memory.initialPhase request }] } := by
  have howns : ∀ {key j}, Owns s key j → Owns { s with
      threads := s.threads ++ [{ request := request, phase := Memory.initialPhase request }] }
      key j := by
    rintro key j ⟨u, hu, hkey⟩
    exact ⟨u, getElem?_append_old hu _, hkey⟩
  have hnew : (∀ {key}, phaseKey (Memory.initialPhase request) = some key →
      request.cacheKey = some key) ∧ ∀ result, Memory.initialPhase request ≠ .done result := by
    unfold Memory.initialPhase
    split
    case h_1 key hkey => exact ⟨fun h => hkey.trans h, nofun⟩
    case h_2 => exact ⟨nofun, nofun⟩
  constructor
  case key =>
    intro j u key hj hkey
    rcases getElem?_append_cases hj with ⟨-, rfl⟩ | hj
    · exact hnew.1 hkey
    · exact hs.key hj hkey
  case cache => exact fun h => howns (hs.cache h)
  case inflight => exact fun h => howns (hs.inflight h)
  case source =>
    intro j k u hj hk
    rcases getElem?_append_cases hj with ⟨-, rfl⟩ | hj
    · cases hk
    · obtain ⟨key, h, hkey⟩ := hs.source hj hk
      exact ⟨key, howns h, hkey⟩
  case answered =>
    intro j u result hj hdone hanswer
    rcases getElem?_append_cases hj with ⟨-, rfl⟩ | hj
    · exact absurd hdone (hnew.2 result)
    · exact hs.answered hj hdone hanswer

/-- The eviction only takes entries away. -/
theorem evictExpired_cache_le {now : Memory.Time} {key : String} {entry : Memory.Entry}
    (h : (Memory.evictExpired ttl now s).cache key = some entry) : s.cache key = some entry := by
  unfold Memory.evictExpired at h
  split at h
  · exact h
  · exact (Option.filter_eq_some_iff.mp h).1

theorem Traced.evict (hs : Traced s) (now : Memory.Time) :
    Traced (Memory.evictExpired ttl now s) := by
  have howns : ∀ {key j}, Owns s key j → Owns (Memory.evictExpired ttl now s) key j := by
    rintro key j ⟨u, hu, hkey⟩
    exact ⟨u, by rwa [Memory.evictExpired_threads], hkey⟩
  constructor
  case key =>
    intro j u key hj
    rw [Memory.evictExpired_threads] at hj
    exact hs.key hj
  case cache => exact fun h => howns (hs.cache (evictExpired_cache_le h))
  case inflight =>
    intro key entry h
    rw [Memory.evictExpired_inflight] at h
    exact howns (hs.inflight h)
  case source =>
    intro j k u hj hk
    rw [Memory.evictExpired_threads] at hj
    obtain ⟨key, h, hkey⟩ := hs.source hj hk
    exact ⟨key, howns h, hkey⟩
  case answered =>
    intro j u result hj
    rw [Memory.evictExpired_threads] at hj
    exact hs.answered hj

theorem setInflight_none {key key' : String} {entry : Memory.Inflight}
    (h : (s.setInflight key none).inflight key' = some entry) : s.inflight key' = some entry :=
  of_delete_eq_some h

theorem Traced.check (hs : Traced s) (ht : s.threads[i]? = some t) {key : String}
    (hphase : t.phase = .readBody key) : Traced (Memory.check sha256 i t key s) := by
  have hkey : t.request.cacheKey = some key := hs.key ht (by rw [hphase]; rfl)
  unfold Memory.check
  split
  case h_1 entry hentry =>
    refine hs.set ht rfl rfl nofun .inl .inl (fun h => ?_) fun _ _ => ⟨_, rfl⟩
    obtain rfl := Option.some.inj h
    exact .inr ⟨key, hs.cache hentry, hkey⟩
  case h_2 =>
    split
    case h_1 entry hentry =>
      refine hs.set ht rfl rfl nofun .inl .inl (fun h => ?_) fun _ _ => ⟨_, rfl⟩
      obtain rfl := Option.some.inj h
      exact .inr ⟨key, hs.inflight hentry, hkey⟩
    case h_2 =>
      refine hs.set ht rfl rfl (fun h => hkey.trans h) .inl (fun h => ?_) .inl nofun
      rcases update_eq_some h with ⟨rfl, hentry⟩ | h
      · obtain rfl := Option.some.inj hentry
        exact .inr ⟨rfl, hkey⟩
      · exact .inl h

theorem Traced.called (hs : Traced s) (ht : s.threads[i]? = some t) {key : String}
    (hphase : t.phase = .callNext key) (result : Called) :
    Traced (Memory.afterCallNext i t key s result) := by
  have hkey : t.request.cacheKey = some key := hs.key ht (by rw [hphase]; rfl)
  unfold Memory.afterCallNext
  split
  case h_1 r =>
    split
    · exact hs.set ht rfl rfl (fun h => hkey.trans h) .inl .inl .inl nofun
    · refine hs.set ht rfl rfl nofun .inl (fun h => .inl (setInflight_none h)) .inl ?_
      rintro _ ⟨⟩ ⟨⟩
  case h_2 =>
    refine hs.set ht rfl rfl nofun .inl (fun h => .inl (setInflight_none h)) .inl ?_
    rintro _ ⟨⟩ ⟨⟩

theorem traced_step {l : Memory.Label} (hs : Traced s) (h : Memory.step sha256 ttl s l = some s') :
    Traced s' := by
  cases Memory.step_moves h with
  | arrive request => exact hs.arrive request
  | check now ht hphase =>
    exact (hs.evict now).check (by rwa [Memory.evictExpired_threads]) hphase
  | passed result ht hphase =>
    refine hs.set ht rfl rfl nofun .inl .inl .inl ?_
    rintro _ ⟨⟩ hanswer
    cases result <;> cases hanswer
  | called result ht hphase => exact hs.called ht hphase result
  | @collected i t key r now ht hphase =>
    have hkey : t.request.cacheKey = some key := hs.key ht (by rw [hphase]; rfl)
    refine hs.set ht rfl rfl nofun (fun h => ?_) (fun h => .inl (setInflight_none h)) .inl ?_
    · rcases update_eq_some h with ⟨rfl, hentry⟩ | h
      · obtain rfl := Option.some.inj hentry
        exact .inr ⟨rfl, hkey⟩
      · exact .inl h
    · rintro _ ⟨⟩ ⟨⟩
  | broken now ht hphase =>
    refine hs.set ht rfl rfl nofun .inl (fun h => .inl (setInflight_none h)) .inl ?_
    rintro _ ⟨⟩ ⟨⟩

theorem traced_of_run {start : Memory.Time} {ls : List Memory.Label}
    (hr : run (Memory.step sha256 ttl) { lastEviction := start } ls = some s) : Traced s := by
  refine run_preserves (fun _ _ _ => traced_step) ?_ hr
  constructor <;> simp

end memory

section redis

open Store

/-- The request has been answered, or will be once it has read the lock that stopped it. -/
def answering : Redis.Phase → Bool
  | .readLock => true
  | .stopRenewal _ result | .release _ result | .releaseDelete _ result | .done result =>
    isAnswer result
  | .readData | .tryLock | .callNext _ | .collect _ _ | .writeData _ _ => false

/-- A request is answered for what it finds under one of its names. -/
theorem answering_step {v v' : Redis.System} {t t' : Redis.Thread} {l : Redis.Label}
    (hv : v.threads = [t]) (hown : own l = true) (h : Redis.step v l = some v')
    (ht' : v'.threads[0]? = some t') (hanswer : answering t'.phase = true) :
    answering t.phase = true ∨ (∃ i, l = .readData i) ∧ v.data ≠ none ∨
      (∃ i token, l = .tryLock i token) ∧ v.lock ≠ none := by
  have hself : ∀ {i : Nat} {u u' : Redis.Thread}, (i == 0) = true → v.threads[i]? = some u →
      (v.threads.set i u')[0]? = some t' → u = t ∧ u' = t' := by
    intro i u u' hi hu hu'
    obtain rfl : i = 0 := by simpa using hi
    rw [hv] at hu hu'
    exact ⟨by simpa using hu.symm, by simpa using hu'⟩
  cases steps_of_step h with
  | arrive | expireLock | expireData => cases hown
  | readData ht hphase =>
    obtain ⟨rfl, rfl⟩ := hself hown ht ht'
    refine .inr (.inl ⟨⟨_, rfl⟩, fun hdata => ?_⟩)
    rw [hdata] at hanswer
    cases hanswer
  | locked ht hphase =>
    obtain ⟨rfl, rfl⟩ := hself hown ht ht'
    cases hanswer
  | blocked ht hphase _ hlock => exact .inr (.inr ⟨⟨_, _, rfl⟩, by simp [hlock]⟩)
  | readLock ht hphase =>
    obtain ⟨rfl, rfl⟩ := hself hown ht ht'
    exact .inl (by rw [hphase]; rfl)
  | callNext result ht hphase =>
    obtain ⟨rfl, rfl⟩ := hself hown ht ht'
    cases result with
    | raised => cases hanswer
    | returned r =>
      simp only [Redis.afterCallNext] at hanswer
      split at hanswer <;> cases hanswer
  | collect ok ht hphase =>
    obtain ⟨rfl, rfl⟩ := hself hown ht ht'
    cases ok <;> cases hanswer
  | writeData ht hphase =>
    obtain ⟨rfl, rfl⟩ := hself hown ht ht'
    cases hanswer
  | stopRenewal ht hphase =>
    obtain ⟨rfl, rfl⟩ := hself hown ht ht'
    rw [hphase]
    split at hanswer
    · cases hanswer
    · exact .inl hanswer
  | release ht hphase | releaseDelete ht hphase =>
    obtain ⟨rfl, rfl⟩ := hself hown ht ht'
    exact .inl (by rw [hphase]; exact hanswer)
  | releaseGet ht hphase =>
    obtain ⟨rfl, rfl⟩ := hself hown ht ht'
    rw [hphase]
    simp only at hanswer
    split at hanswer <;> exact .inl hanswer
  | renewGet ht | renewExpire ht | renewFault ht =>
    obtain ⟨rfl, rfl⟩ := hself hown ht ht'
    exact .inl hanswer
  | @fault _ u phase ht hfault =>
    obtain ⟨rfl, rfl⟩ := hself hown ht ht'
    generalize u.phase = before at hfault ⊢
    cases before with
    | readData | tryLock | readLock | writeData =>
      cases hfault
      cases hanswer
    | release | releaseDelete =>
      cases hfault
      exact .inl hanswer
    | callNext | collect | stopRenewal | done => cases hfault

/-- Every value stands under a name of the key of its owner, and what a request has looked at was
put there by requests with its own key. -/
structure RedisTraced (sha256 : Bytes → String) (s : Store.System) : Prop where
  key : ∀ {i : Nat} {t : Store.Thread}, s.threads[i]? = some t → t.request.cacheKey = some t.key
  store : ∀ {name : String} {slot : Slot}, s.store name = some slot →
    ∃ u, s.threads[slot.owner]? = some u ∧ Named sha256 name u.key
  source : ∀ {i j : Nat} {t : Store.Thread}, s.threads[i]? = some t → j ∈ t.sources →
    ∃ u, s.threads[j]? = some u ∧ u.key = t.key
  answered : ∀ {i : Nat} {t : Store.Thread}, s.threads[i]? = some t →
    answering t.inner.phase = true → t.sources ≠ []

variable {sha256 : Bytes → String} {s s' : Store.System} {i : Nat}

theorem RedisTraced.arrive (hs : RedisTraced sha256 s) {request : Request} {key : String}
    (hkey : request.cacheKey = some key) :
    RedisTraced sha256 { s with
      threads := s.threads ++ [{
        request := request
        key := key
        inner := { requestHash := request.requestHash sha256 } }] } := by
  constructor
  case key =>
    intro j u hj
    rcases getElem?_append_cases hj with ⟨-, rfl⟩ | hj
    · exact hkey
    · exact hs.key hj
  case store =>
    intro name slot hslot
    obtain ⟨u, hu, hname⟩ := hs.store hslot
    exact ⟨u, getElem?_append_old hu _, hname⟩
  case source =>
    intro j k u hj hk
    rcases getElem?_append_cases hj with ⟨-, rfl⟩ | hj
    · cases hk
    · obtain ⟨u', hu', hsame⟩ := hs.source hj hk
      exact ⟨u', getElem?_append_old hu' _, hsame⟩
  case answered =>
    intro j u hj hanswer
    rcases getElem?_append_cases hj with ⟨-, rfl⟩ | hj
    · cases hanswer
    · exact hs.answered hj hanswer

theorem RedisTraced.move (hs : RedisTraced sha256 s) (hinj : Function.Injective sha256)
    (hhex : ∀ data, ':' ∉ (sha256 data).toList) {l : Redis.Label}
    (h : Store.step sha256 s (.move i l) = some s') : RedisTraced sha256 s' := by
  obtain ⟨t, after, inner, ht, hown, hafter, hinner, rfl⟩ := step_move h
  -- A thread keeps its request and its key.
  have hkeys : ∀ {j : Nat} {u : Store.Thread}, s.threads[j]? = some u →
      ∃ u', (s.threads.set i { t with
        inner := inner, sources := t.sources ++ s.found sha256 t.key l })[j]? = some u' ∧
        u'.key = u.key := by
    intro j u hj
    by_cases hij : j = i
    · subst hij
      obtain rfl : t = u := Option.some.inj (ht.symm.trans hj)
      exact ⟨_, getElem?_set_self ht _, rfl⟩
    · exact ⟨u, (List.getElem?_set_ne (Ne.symm hij)).trans hj, rfl⟩
  constructor
  case key =>
    intro j u hj
    rcases getElem?_set_cases hj with ⟨-, rfl⟩ | ⟨-, hj⟩
    · have hkey := hs.key ht
      exact hkey
    · exact hs.key hj
  case store =>
    intro name slot hslot
    rcases put_eq_some hslot with ⟨rfl, rfl⟩ | hslot
    · exact ⟨_, getElem?_set_self ht _, .inr rfl⟩
    · rcases put_eq_some hslot with ⟨rfl, rfl⟩ | hslot
      · exact ⟨_, getElem?_set_self ht _, .inl rfl⟩
      · obtain ⟨u, hu, hname⟩ := hs.store hslot
        obtain ⟨u', hu', hsame⟩ := hkeys hu
        exact ⟨u', hu', hsame ▸ hname⟩
  case source =>
    have hsource : ∀ {j k : Nat} {u : Store.Thread}, s.threads[j]? = some u → k ∈ u.sources →
        ∃ u', (s.threads.set i { t with
          inner := inner, sources := t.sources ++ s.found sha256 t.key l })[k]? = some u' ∧
          u'.key = u.key := by
      intro j k u hj hk
      obtain ⟨w, hw, hsame⟩ := hs.source hj hk
      obtain ⟨w', hw', hsame'⟩ := hkeys hw
      exact ⟨w', hw', hsame'.trans hsame⟩
    intro j k u hj hk
    rcases getElem?_set_cases hj with ⟨-, rfl⟩ | ⟨-, hj⟩
    · rcases List.mem_append.mp hk with hk | hk
      · have hold := hsource ht hk
        exact hold
      · obtain ⟨name, slot, hname, hslot, rfl⟩ := mem_found hk
        obtain ⟨w, hw, hname'⟩ := hs.store hslot
        obtain ⟨w', hw', hsame⟩ := hkeys hw
        exact ⟨w', hw', hsame.trans (hname'.unique hinj hhex hname)⟩
    · exact hsource hj hk
  case answered =>
    intro j u hj hanswer
    rcases getElem?_set_cases hj with ⟨-, rfl⟩ | ⟨-, hj⟩
    · rcases answering_step rfl hown hafter hinner hanswer with
        hbefore | ⟨⟨k, rfl⟩, hseen⟩ | ⟨⟨k, token, rfl⟩, hseen⟩
      · simp [hs.answered ht hbefore]
      · have hfound : s.found sha256 t.key (.readData k) ≠ [] :=
          found_ne_nil rfl fun hnone => hseen (by simp [System.view, hnone])
        simp [hfound]
      · have hfound : s.found sha256 t.key (.tryLock k token) ≠ [] :=
          found_ne_nil rfl fun hnone => hseen (by simp [System.view, hnone])
        simp [hfound]
    · exact hs.answered hj hanswer

theorem RedisTraced.expire (hs : RedisTraced sha256 s) (name : String) :
    RedisTraced sha256 { s with store := Function.update s.store name none } where
  key := hs.key
  store h := hs.store (of_delete_eq_some h)
  source := hs.source
  answered := hs.answered

theorem redisTraced_of_run (hinj : Function.Injective sha256)
    (hhex : ∀ data, ':' ∉ (sha256 data).toList) {ls : List Store.Label}
    (hr : run (Store.step sha256) {} ls = some s) : RedisTraced sha256 s := by
  refine run_preserves ?_ ?_ hr
  · intro s l s' hs h
    cases l with
    | arrive request =>
      obtain ⟨key, hkey, h⟩ := Option.bind_eq_some_iff.mp h
      cases h
      exact hs.arrive hkey
    | move i l => exact hs.move hinj hhex h
    | expire name =>
      cases h
      exact hs.expire name
  · constructor <;> simp

end redis

/-- The request got a replay or a 409, from the entry of thread `j`. -/
def MemoryAnswers (t : Memory.Thread) (j : Nat) : Prop :=
  (∃ result, t.phase = .done result ∧ isAnswer result = true) ∧ t.source = some j

/-- The request got a replay or a 409, and what thread `j` has stored was looked at for it. -/
def RedisAnswers (t : Store.Thread) (j : Nat) : Prop :=
  (∃ result, t.inner.phase = .done result ∧ isAnswer result = true) ∧ j ∈ t.sources

section isolated

variable (sha256 : Bytes → String) (ttl : Int) (r r' : Request)

/-- In no run is a request `r` answered from the entry of a request `r'`, nor the other way. -/
def MemoryIsolated : Prop :=
  ∀ {start ls s}, run (Memory.step sha256 ttl) { lastEviction := start } ls = some s →
    ∀ {i j t u}, s.threads[i]? = some t → s.threads[j]? = some u → t.request = r →
      u.request = r' → ¬ MemoryAnswers t j ∧ ¬ MemoryAnswers u i

def RedisIsolated : Prop :=
  ∀ {ls s}, run (Store.step sha256) {} ls = some s →
    ∀ {i j t u}, s.threads[i]? = some t → s.threads[j]? = some u → t.request = r →
      u.request = r' → ¬ RedisAnswers t j ∧ ¬ RedisAnswers u i

end isolated

section shared

variable {sha256 : Bytes → String} {ttl : Int} {r r' : Request} {key : String}

theorem isAnswer_refusal (c : Prop) [Decidable c] (e e' : ErrorResponse) :
    isAnswer (if c then .error e else .error e') = true := by
  split <;> rfl

theorem afterReadLock_answers (lock : Option LockPayload) (requestHash : String) :
    ∃ result, afterReadLock lock requestHash = .done result ∧ isAnswer result = true := by
  unfold afterReadLock
  split
  · split <;> exact ⟨_, rfl, rfl⟩
  · exact ⟨_, rfl, rfl⟩

/-- A request that comes while another one with its key is in flight. -/
theorem memory_shared (sha256 : Bytes → String) (ttl : Int) (hr : r.cacheKey = some key)
    (hr' : r'.cacheKey = some key) :
    ∃ s t u, run (Memory.step sha256 ttl) { lastEviction := 0 }
        [.arrive r', .check 0 0, .arrive r, .check 1 0] = some s ∧ s.threads[1]? = some t ∧
      s.threads[0]? = some u ∧ t.request = r ∧ u.request = r' ∧ MemoryAnswers t 0 := by
  simp [run, Memory.step, Memory.initialPhase, hr, hr', Memory.check, Memory.evictExpired,
    Memory.System.set, Memory.System.setInflight, MemoryAnswers, isAnswer_refusal]

theorem redis_shared (hhex : ∀ data, ':' ∉ (sha256 data).toList)
    (hr : r.cacheKey = some key) (hr' : r'.cacheKey = some key) :
    ∃ s t u, run (Store.step sha256) {}
        [.arrive r', .move 0 (.readData 0), .move 0 (.tryLock 0 "a"), .arrive r,
          .move 1 (.readData 0), .move 1 (.tryLock 0 "b"), .move 1 (.readLock 0)] = some s ∧
      s.threads[1]? = some t ∧ s.threads[0]? = some u ∧ t.request = r ∧ u.request = r' ∧
      RedisAnswers t 0 := by
  have hne : Store.dataKey sha256 key ≠ Store.lockKey sha256 key :=
    Store.dataKey_ne_lockKey hhex key key
  simp [run, Store.step, Store.own, Store.System.view, Redis.step, afterReadData, Store.put,
    Redis.System.set, Store.System.found, Store.decidedBy, hr, hr', hne, RedisAnswers,
    afterReadLock_answers]

theorem memoryIsolated_iff {key' : String} (hr : r.cacheKey = some key)
    (hr' : r'.cacheKey = some key') : MemoryIsolated sha256 ttl r r' ↔ key ≠ key' := by
  constructor
  · rintro hisolated rfl
    obtain ⟨s, t, u, hrun, ht, hu, rfl, rfl, hanswers⟩ := memory_shared sha256 ttl hr hr'
    exact (hisolated hrun ht hu rfl rfl).1 hanswers
  · intro hne start ls s hrun i j t u ht hu ht' hu'
    have hs := traced_of_run hrun
    -- Whichever of the two is answered from the other has the key of the other.
    have hsame : ∀ {i j : Nat} {t u : Memory.Thread}, s.threads[i]? = some t →
        s.threads[j]? = some u → MemoryAnswers t j → t.request.cacheKey = u.request.cacheKey := by
      intro i j t u ht hu hanswers
      obtain ⟨key, ⟨u', hu', hkey⟩, hkey'⟩ := hs.source ht hanswers.2
      obtain rfl : u = u' := Option.some.inj (hu.symm.trans hu')
      exact hkey'.trans hkey.symm
    have hdiffer : t.request.cacheKey ≠ u.request.cacheKey := by
      rw [ht', hu', hr, hr']
      exact fun h => hne (Option.some.inj h)
    exact ⟨fun h => hdiffer (hsame ht hu h), fun h => hdiffer (hsame hu ht h).symm⟩

theorem redisIsolated_iff (hinj : Function.Injective sha256)
    (hhex : ∀ data, ':' ∉ (sha256 data).toList) {key' : String} (hr : r.cacheKey = some key)
    (hr' : r'.cacheKey = some key') : RedisIsolated sha256 r r' ↔ key ≠ key' := by
  constructor
  · rintro hisolated rfl
    obtain ⟨s, t, u, hrun, ht, hu, rfl, rfl, hanswers⟩ := redis_shared hhex hr hr'
    exact (hisolated hrun ht hu rfl rfl).1 hanswers
  · intro hne ls s hrun i j t u ht hu ht' hu'
    have hs := redisTraced_of_run hinj hhex hrun
    have hsame : ∀ {i j : Nat} {t u : Store.Thread}, s.threads[i]? = some t →
        s.threads[j]? = some u → RedisAnswers t j → t.request.cacheKey = u.request.cacheKey := by
      intro i j t u ht hu hanswers
      obtain ⟨u', hu', hkey⟩ := hs.source ht hanswers.2
      obtain rfl : u = u' := Option.some.inj (hu.symm.trans hu')
      rw [hs.key ht, hs.key hu, hkey]
    have hdiffer : t.request.cacheKey ≠ u.request.cacheKey := by
      rw [ht', hu', hr, hr']
      exact fun h => hne (Option.some.inj h)
    exact ⟨fun h => hdiffer (hsame ht hu h), fun h => hdiffer (hsame hu ht h).symm⟩

/-- Every replay and every 409 without Redis comes from an entry. -/
theorem memory_answered {start : Memory.Time} {ls : List Memory.Label} {s : Memory.System}
    (hrun : run (Memory.step sha256 ttl) { lastEviction := start } ls = some s) {i : Nat}
    {t : Memory.Thread} {result : Result} (ht : s.threads[i]? = some t)
    (hdone : t.phase = .done result) (hanswer : isAnswer result = true) :
    ∃ j, MemoryAnswers t j := by
  obtain ⟨j, hj⟩ := (traced_of_run hrun).answered ht hdone hanswer
  exact ⟨j, ⟨result, hdone, hanswer⟩, hj⟩

theorem redis_answered (hinj : Function.Injective sha256)
    (hhex : ∀ data, ':' ∉ (sha256 data).toList) {ls : List Store.Label} {s : Store.System}
    (hrun : run (Store.step sha256) {} ls = some s) {i : Nat} {t : Store.Thread} {result : Result}
    (ht : s.threads[i]? = some t) (hdone : t.inner.phase = .done result)
    (hanswer : isAnswer result = true) : ∃ j, RedisAnswers t j := by
  have hsources := (redisTraced_of_run hinj hhex hrun).answered ht (by rw [hdone]; exact hanswer)
  obtain ⟨j, hj⟩ := List.exists_mem_of_ne_nil _ hsources
  exact ⟨j, ⟨result, hdone, hanswer⟩, hj⟩

/-- A request is answered from the entry of another exactly when their namespaced keys are the same
string, whoever makes them; and every replay and every 409 is such an answer. -/
theorem isolated_iff (hinj : Function.Injective sha256)
    (hhex : ∀ data, ':' ∉ (sha256 data).toList) (ttl : Int) {idemKey idemKey' : String}
    (hmethod : r.method ∈ idempotencyMethods) (hmethod' : r'.method ∈ idempotencyMethods)
    (hkey : truthy r.idempotencyKey = some idemKey)
    (hkey' : truthy r'.idempotencyKey = some idemKey') :
    (MemoryIsolated sha256 ttl r r' ↔ ¬ Joined ":" r.identity idemKey r'.identity idemKey') ∧
      (RedisIsolated sha256 r r' ↔ ¬ Joined ":" r.identity idemKey r'.identity idemKey') ∧
      (∀ {start : Memory.Time} {ls : List Memory.Label} {s : Memory.System},
        run (Memory.step sha256 ttl) { lastEviction := start } ls = some s →
        ∀ {i : Nat} {t : Memory.Thread} {result : Result}, s.threads[i]? = some t →
          t.phase = .done result → isAnswer result = true → ∃ j, MemoryAnswers t j) ∧
      ∀ {ls : List Store.Label} {s : Store.System}, run (Store.step sha256) {} ls = some s →
        ∀ {i : Nat} {t : Store.Thread} {result : Result}, s.threads[i]? = some t →
          t.inner.phase = .done result → isAnswer result = true → ∃ j, RedisAnswers t j := by
  have hr : r.cacheKey = some (r.cacheNamespace idemKey) := by
    simp [Request.cacheKey, hmethod, hkey]
  have hr' : r'.cacheKey = some (r'.cacheNamespace idemKey') := by
    simp [Request.cacheKey, hmethod', hkey']
  have hjoined : r.cacheNamespace idemKey = r'.cacheNamespace idemKey' ↔
      Joined ":" r.identity idemKey r'.identity idemKey' := joined_iff rfl
  refine ⟨?_, ?_, memory_answered, redis_answered hinj hhex⟩
  · rw [memoryIsolated_iff hr hr', ne_eq, hjoined]
  · rw [redisIsolated_iff hinj hhex hr hr', ne_eq, hjoined]

theorem isolated_alice_bob :
    MemoryIsolated (digestOf digests) 86400 (createRequest (some "alice") none "k")
        (createRequest (some "bob") none "k") ∧
      RedisIsolated (digestOf digests) (createRequest (some "alice") none "k")
        (createRequest (some "bob") none "k") := by
  have happart : ¬ Joined ":" "alice" "k" "bob" "k" := fun h =>
    absurd ((joined_iff rfl).mpr h) (by decide)
  have hmethod : ∀ user, (createRequest (some user) none "k").method ∈ idempotencyMethods :=
    fun _ => by simp [createRequest, idempotencyMethods]
  have hkey : ∀ user, truthy (createRequest (some user) none "k").idempotencyKey = some "k" :=
    fun _ => rfl
  obtain ⟨hmemory, hredis, -⟩ := isolated_iff digests_injective
    (notMem_digestOf (by decide) (by decide) (by decide +kernel)) 86400 (hmethod "alice")
    (hmethod "bob") (hkey "alice") (hkey "bob")
  exact ⟨hmemory.mpr happart, hredis.mpr happart⟩

def created : Response := { statusCode := 201, body := [1] }

/-- A second request after the first one has been executed. -/
def second (first request : Request) : Option Memory.Thread :=
  (run (Memory.step (digestOf digests) 86400) { lastEviction := 0 }
    [.arrive first, .check 0 0, .callNext 0 (.returned created), .collect 0 true 1,
      .arrive request, .check 1 2]).bind (·.threads[1]?)

def replayed (request : Request) : Memory.Thread where
  request := request
  phase := .done (.replay { created with headers := [("Idempotency-Replayed", "true")] })
  source := some 0

/-- The user `a:b` gets the response of the user `a`, and a request without a user the response of
the user it names in `X-User-ID`. -/
theorem other_principal_replayed :
    second (createRequest (some "a") none "b:c") (createRequest (some "a:b") none "c") =
        some (replayed (createRequest (some "a:b") none "c")) ∧
      second (createRequest (some "alice") none "k") (createRequest none (some "alice") "k") =
        some (replayed (createRequest none (some "alice") "k")) := by
  decide +kernel

end shared

end Marty.Idempotency.Isolation
