import Marty.Resilience.Degradation

/-! Whose values a fallback cache gives out.  Each entry of a cache was returned by the primary
operation for a context with the key of the entry, and nothing more is known of that context. -/

universe u v

namespace Marty.Resilience.FallbackCache

open Lib Lib.Run Degradation

variable {F O : Type u} {α : Type v} {text : F → String} {S : Set (Context F O)}

/-- The primary operation returned the value for a context in `S` with this key. -/
def Origin (text : F → String) (S : Set (Context F O)) (returned : List (Context F O × Option α))
    (key : String) (value : Option α) : Prop :=
  ∃ context ∈ S, generateCacheKey text context = key ∧ (context, value) ∈ returned

theorem Origin.mono {returned returned' : List (Context F O × Option α)} {key : String}
    {value : Option α} (h : Origin text S returned key value)
    (hsub : ∀ r ∈ returned, r ∈ returned') : Origin text S returned' key value := by
  obtain ⟨context, hc, hkey, hmem⟩ := h
  exact ⟨context, hc, hkey, hsub _ hmem⟩

structure Inv (text : F → String) (S : Set (Context F O)) (s : State F O α) : Prop where
  calls : ∀ call ∈ s.calls, call.context ∈ S
  caches : ∀ p ∈ s.providers.getD [], ∀ e ∈ p.entries, Origin text S s.returned e.1 e.2.1
  cached : ∀ a ∈ s.cached, a.1 ∈ S ∧
    Origin text S s.returned (generateCacheKey text a.1) (some a.2)

variable {s s' : State F O α}

theorem mem_set_calls {calls : List (Call F O)} {i : Nat} {c : Call F O}
    (h : ∀ call ∈ calls, call.context ∈ S) (hc : c.context ∈ S) :
    ∀ call ∈ calls.set i c, call.context ∈ S := by
  intro call hcall
  rcases List.mem_or_eq_of_mem_set hcall with hold | rfl
  · exact h call hold
  · exact hc

theorem mem_eraseIdx_calls {calls : List (Call F O)} {i : Nat}
    (h : ∀ call ∈ calls, call.context ∈ S) : ∀ call ∈ calls.eraseIdx i, call.context ∈ S :=
  fun call hcall => h call (List.mem_of_mem_eraseIdx hcall)

theorem Inv.addFallbackProvider (hs : Inv text S s) (provider : NewProvider α) :
    Inv text S (s.addFallbackProvider provider) := by
  refine ⟨hs.calls, fun p hp e he => ?_, hs.cached⟩
  rcases List.mem_append.mp hp with hp | hp
  · exact hs.caches p hp e he
  · obtain rfl := List.mem_singleton.mp hp
    cases provider <;> cases he

theorem Inv.execute (hs : Inv text S s) (feature : String) {context : Context F O}
    (hc : context ∈ S) : Inv text S (s.execute feature context) := by
  have hcalls : ∀ stage, ∀ call ∈ s.calls ++ [⟨context, stage⟩], call.context ∈ S := by
    intro stage call hcall
    rcases List.mem_append.mp hcall with hcall | hcall
    · exact hs.calls call hcall
    · obtain rfl := List.mem_singleton.mp hcall
      exact hc
  unfold State.execute
  split
  · exact ⟨hcalls _, hs.caches, hs.cached⟩
  · exact ⟨hcalls _, hs.caches, hs.cached⟩

/-- After a response has been cached an entry is the new one or an old one. -/
theorem entries_cacheSuccessfulResponse {key : String} {response : Option α} {now : ℚ}
    {providers : List (Provider α)} {p : Provider α} {e : String × (Option α × ℚ)}
    (hp : p ∈ cacheSuccessfulResponse key response now providers) (he : e ∈ p.entries) :
    e = (key, response, now) ∨ ∃ q ∈ providers, e ∈ q.entries := by
  induction providers with
  | nil => cases hp
  | cons q providers ih =>
    have htail : ∀ {ps}, p ∈ q :: ps → (p ∈ ps → e = (key, response, now) ∨
        ∃ q' ∈ q :: providers, e ∈ q'.entries) →
        e = (key, response, now) ∨ ∃ q' ∈ q :: providers, e ∈ q'.entries := by
      intro ps hp h
      rcases List.mem_cons.mp hp with rfl | hp
      · exact .inr ⟨p, List.mem_cons_self, he⟩
      · exact h hp
    have hrest : p ∈ cacheSuccessfulResponse key response now providers →
        e = (key, response, now) ∨ ∃ q' ∈ q :: providers, e ∈ q'.entries := by
      intro hp
      obtain h | ⟨q', hq', he⟩ := ih hp
      · exact .inl h
      · exact .inr ⟨q', List.mem_cons_of_mem q hq', he⟩
    cases q with
    | cached cacheTtl cache =>
      rcases List.mem_cons.mp hp with rfl | hp
      · rcases Dict.mem_set he with h | h
        · exact .inl h
        · exact .inr ⟨_, List.mem_cons_self, h⟩
      · exact .inr ⟨p, List.mem_cons_of_mem _ hp, he⟩
    | default value => exact htail hp hrest
    | backup available => exact htail hp hrest

theorem Inv.finish (hs : Inv text S s) {i : Nat} {context : Context F O} (hc : context ∈ S)
    (now : ℚ) (result : Option (Option α)) : Inv text S (s.finish text i context now result) := by
  cases result with
  | none => exact ⟨mem_set_calls hs.calls hc, hs.caches, hs.cached⟩
  | some response =>
    have hmono : ∀ {key value}, Origin text S s.returned key value →
        Origin text S (s.returned ++ [(context, response)]) key value :=
      fun h => h.mono fun _ hr => List.mem_append_left _ hr
    refine ⟨mem_eraseIdx_calls hs.calls, fun p hp e he => ?_, fun a ha => ?_⟩
    · cases hproviders : s.providers with
      | none =>
        simp only [State.finish, hproviders] at hp
        cases hp
      | some providers =>
        have hcaches := hs.caches
        simp only [State.finish, hproviders] at hp hcaches
        rcases entries_cacheSuccessfulResponse hp he with rfl | ⟨q, hq, he⟩
        · exact ⟨context, hc, rfl, by simp [State.finish]⟩
        · exact hmono (hcaches q hq e he)
    · exact ⟨(hs.cached a ha).1, hmono (hs.cached a ha).2⟩

theorem entries_getFallback (key : String) (now : ℚ) (answer : Option (Option α))
    (p : Provider α) : (p.getFallback key now answer).2.entries = p.entries := by
  cases p <;> rfl

/-- A cache answers with a value it has under the key. -/
theorem mem_entries_of_getFallback {key : String} {now : ℚ} {answer : Option (Option α)}
    {p : Provider α} {value : α} (hp : p.isCached = true)
    (h : (p.getFallback key now answer).1 = some (some value)) :
    ∃ timestamp, (key, some value, timestamp) ∈ p.entries := by
  cases p with
  | cached cacheTtl cache =>
    obtain ⟨⟨response, timestamp⟩, hentry, hresponse⟩ :=
      Option.bind_eq_some_iff.mp (Option.some.inj h)
    obtain ⟨hlookup, -⟩ := Option.filter_eq_some_iff.mp hentry
    obtain rfl : response = some value := hresponse
    exact ⟨timestamp, Dict.mem_of_lookup hlookup⟩
  | default _ => cases hp
  | backup _ => cases hp

theorem Inv.setProvider (hs : Inv text S s) {k : Nat} {p p' : Provider α}
    (hp : (s.providers.getD [])[k]? = some p) (hentries : p'.entries = p.entries) :
    Inv text S { s with providers := s.providers.map (List.set · k p') } := by
  have hmem : p ∈ s.providers.getD [] := List.mem_of_getElem? hp
  have hold := hs.caches
  refine ⟨hs.calls, fun q hq e he => ?_, hs.cached⟩
  cases hproviders : s.providers with
  | none => simp [hproviders] at hq
  | some providers =>
    simp only [hproviders, Option.map_some, Option.getD_some] at hq hold hmem
    rcases List.mem_or_eq_of_mem_set hq with hq | rfl
    · exact hold q hq e he
    · exact hold p hmem e (hentries ▸ he)

theorem Inv.answered (hs : Inv text S s) {i k : Nat} {context : Context F O} (hc : context ∈ S)
    {p : Provider α} (hp : (s.providers.getD [])[k]? = some p)
    {fallback : Option (Option α) × Provider α} (hentries : fallback.2.entries = p.entries)
    (horigin : ∀ value, p.isCached = true → fallback.1 = some (some value) →
      Origin text S s.returned (generateCacheKey text context) (some value)) :
    Inv text S (s.answered i k context p.isCached fallback) := by
  obtain ⟨result, p'⟩ := fallback
  have hset := hs.setProvider hp hentries
  have hnext : Inv text S { s with
      providers := s.providers.map (List.set · k p')
      calls := s.calls.set i ⟨context, .fallback (k + 1)⟩ } :=
    ⟨mem_set_calls hs.calls hc, hset.caches, hs.cached⟩
  rcases result with _ | _ | value
  · exact hnext
  · exact hnext
  · refine ⟨mem_eraseIdx_calls hs.calls, hset.caches, fun a ha => ?_⟩
    simp only [State.answered] at ha
    split at ha
    case isFalse => exact hs.cached a ha
    case isTrue hcached =>
      rcases List.mem_append.mp ha with ha | ha
      · exact hs.cached a ha
      · obtain rfl := List.mem_singleton.mp ha
        exact ⟨hc, horigin value hcached rfl⟩

theorem Inv.consult (hs : Inv text S s) {i k : Nat} {context : Context F O} (hc : context ∈ S)
    (now later : ℚ) (answer : Option (Option α)) :
    Inv text S (s.consult text i k context now later answer) := by
  unfold State.consult
  split
  case h_1 => exact ⟨mem_eraseIdx_calls hs.calls, hs.caches, hs.cached⟩
  case h_2 p hp =>
    split
    case isFalse => exact ⟨mem_set_calls hs.calls hc, hs.caches, hs.cached⟩
    case isTrue =>
      refine hs.answered hc hp (entries_getFallback _ _ _ p) fun value hcached hvalue => ?_
      obtain ⟨timestamp, he⟩ := mem_entries_of_getFallback hcached hvalue
      exact hs.caches p (List.mem_of_getElem? hp) _ he

/-- The contexts of the calls are in `S`. -/
def Within (S : Set (Context F O)) : Label F O α → Prop
  | .executeWithFallback context => context.getD [] ∈ S
  | .decorated _ args kwargs => wrap args kwargs ∈ S
  | _ => True

variable {feature : String} {l : Label F O α}

theorem inv_step (hs : Inv text S s) (hl : Within S l) (h : step text feature s l = some s') :
    Inv text S s' := by
  cases l with
  | setDegradationLevel level =>
    obtain rfl := Option.some.inj h
    exact ⟨hs.calls, hs.caches, hs.cached⟩
  | setFeatureHealth healthy =>
    obtain rfl := Option.some.inj h
    exact ⟨hs.calls, hs.caches, hs.cached⟩
  | addFallbackProvider provider =>
    obtain rfl := Option.some.inj h
    exact hs.addFallbackProvider provider
  | executeWithFallback context =>
    obtain rfl := Option.some.inj h
    exact hs.execute feature hl
  | decorated fallbackValue args kwargs =>
    obtain rfl := Option.some.inj h
    refine Inv.execute ?_ feature hl
    split
    · exact hs.addFallbackProvider _
    · exact hs
  | finish i result now =>
    simp only [step] at h
    split at h
    case h_2 => cases h
    case h_1 context hi =>
      obtain rfl := Option.some.inj h
      exact hs.finish (hs.calls _ (List.mem_of_getElem? hi)) now result
  | consult i now later answer =>
    simp only [step] at h
    split at h
    case h_2 => cases h
    case h_1 context k hi =>
      obtain rfl := Option.some.inj h
      exact hs.consult (hs.calls _ (List.mem_of_getElem? hi)) now later answer
  | cancel i =>
    simp only [step] at h
    split at h
    case isFalse => cases h
    case isTrue =>
      obtain rfl := Option.some.inj h
      exact ⟨mem_eraseIdx_calls hs.calls, hs.caches, hs.cached⟩

theorem inv_of_run {config : DegradationConfig} {ls : List (Label F O α)}
    (hls : ∀ l ∈ ls, Within S l) (hr : run (step text feature) { config := config } ls = some s) :
    Inv text S s := by
  have hstart : Inv text S ({ config := config } : State F O α) :=
    ⟨List.forall_mem_nil _, List.forall_mem_nil _, List.forall_mem_nil _⟩
  exact run_invariant (fun _ _ _ => inv_step) hstart (guarded_of_mem (fun _ => hls) _) hr

/-- Every answer out of a cache was returned for a context that is the same as the call's. -/
def Isolated (same : Context F O → Context F O → Prop) (s : State F O α) : Prop :=
  ∀ a ∈ s.cached, ∃ context, (context, some a.2) ∈ s.returned ∧ same context a.1

/-- A value is cached for one context, and the next call, for the other one, fails. -/
def crossing (a b : Context F O) (value : α) : List (Label F O α) :=
  [.addFallbackProvider (.cached 300), .executeWithFallback (some a),
    .finish 0 (some (some value)) 0, .executeWithFallback (some b), .finish 0 none 1,
    .consult 0 1 1 none]

theorem run_crossing (feature : String) {a b : Context F O}
    (hkey : generateCacheKey text a = generateCacheKey text b) (value : α) :
    ∃ s, run (step text feature) {} (crossing a b value) = some s ∧
      s.returned = [(a, some value)] ∧ s.cached = [(b, value)] := by
  have henabled : ({} : DegradationConfig).isFeatureEnabled feature = true := by
    simp [DegradationConfig.isFeatureEnabled]
  have hfresh : (1 : ℚ) < 300 := by decide
  simp [crossing, run, step, State.addFallbackProvider, State.execute, State.finish, State.consult,
    State.answered, henabled, NewProvider.provider, cacheSuccessfulResponse, Dict.set, hkey,
    Provider.isAvailable, Provider.getFallback, Provider.isCached, hfresh, Option.filter_some]

/-- The arguments of a decorated call leave no trace in the key. -/
theorem generateCacheKey_wrap (args : List (Value F O)) (kwargs : Context F O) :
    generateCacheKey text (wrap args kwargs) = "" := by
  have hparts : ∀ key, ((wrap args kwargs).lookup key).bind (·.text? text) = none := by
    intro key
    rw [Option.bind_eq_none_iff]
    intro value h
    rcases List.mem_cons.mp (Dict.mem_of_lookup h) with h | h
    · obtain rfl := congrArg Prod.snd h
      rfl
    · obtain rfl := congrArg Prod.snd (List.mem_singleton.mp h)
      rfl
  simp [generateCacheKey, hparts]

/-- For every notion of equal contexts: the calls with contexts in a set are isolated in every run
exactly when no two of these contexts that differ have the same key; and the decorated calls are
exactly when they all have equal arguments. -/
theorem isolated_iff_same [Inhabited α] (text : F → String) (feature : String)
    (same : Context F O → Context F O → Prop) :
    (∀ S : Set (Context F O),
      (∀ (config : DegradationConfig) (ls : List (Label F O α)) (s : State F O α),
        (∀ l ∈ ls, Within S l) → run (step text feature) { config := config } ls = some s →
          Isolated same s) ↔
        ∀ a ∈ S, ∀ b ∈ S, generateCacheKey text a = generateCacheKey text b → same a b) ∧
      ∀ A : Set (List (Value F O) × Context F O),
        (∀ (config : DegradationConfig) (ls : List (Label F O α)) (s : State F O α),
          (∀ l ∈ ls, Within {c | ∃ a ∈ A, c = wrap a.1 a.2} l) →
            run (step text feature) { config := config } ls = some s → Isolated same s) ↔
          ∀ a ∈ A, ∀ b ∈ A, same (wrap a.1 a.2) (wrap b.1 b.2) := by
  have hcontexts : ∀ S : Set (Context F O),
      (∀ (config : DegradationConfig) (ls : List (Label F O α)) (s : State F O α),
        (∀ l ∈ ls, Within S l) → run (step text feature) { config := config } ls = some s →
          Isolated same s) ↔
        ∀ a ∈ S, ∀ b ∈ S, generateCacheKey text a = generateCacheKey text b → same a b := by
    intro S
    constructor
    · intro h a ha b hb hkey
      obtain ⟨s, hr, hreturned, hcached⟩ := run_crossing feature hkey (default : α)
      have hwithin : ∀ l ∈ crossing a b (default : α), Within S l := by
        simp [crossing, Within, ha, hb]
      obtain ⟨context, hmem, hsame⟩ := h {} _ s hwithin hr (b, default) (by simp [hcached])
      rw [hreturned, List.mem_singleton] at hmem
      obtain rfl := congrArg Prod.fst hmem
      exact hsame
    · intro h config ls s hls hr a ha
      obtain ⟨hc, context, hcontext, hkey, hmem⟩ := (inv_of_run hls hr).cached a ha
      exact ⟨context, hmem, h context hcontext a.1 hc hkey⟩
  refine ⟨hcontexts, fun A => (hcontexts _).trans ⟨fun h a ha b hb => ?_, ?_⟩⟩
  · exact h _ ⟨a, ha, rfl⟩ _ ⟨b, hb, rfl⟩
      ((generateCacheKey_wrap _ _).trans (generateCacheKey_wrap _ _).symm)
  · rintro h _ ⟨a, ha, rfl⟩ _ ⟨b, hb, rfl⟩ -
    exact h a ha b hb

/-- The context of a call `balance(n)`. -/
def account (n : Int) : Context ℚ Unit := wrap [.int n] []

/-- The balance of account 1 is cached, and the call for account 2 fails. -/
def balances : List (Label ℚ Unit Int) :=
  [.addFallbackProvider (.cached 300), .decorated none [.int 1] [], .finish 0 (some (some 10)) 0,
    .decorated none [.int 2] [], .finish 0 none 1, .consult 0 1 1 none]

theorem other_balance_answered : ∃ s, run (step toString "balance") {} balances = some s ∧
    s.returned = [(account 1, some 10)] ∧ s.cached = [(account 2, 10)] ∧
    ¬ Isolated (· = ·) s := by
  have hkey : generateCacheKey toString (account 1) = generateCacheKey toString (account 2) :=
    (generateCacheKey_wrap _ _).trans (generateCacheKey_wrap _ _).symm
  obtain ⟨s, hr, hreturned, hcached⟩ := run_crossing "balance" hkey (10 : Int)
  refine ⟨s, hr, hreturned, hcached, fun h => ?_⟩
  obtain ⟨context, hmem, hsame⟩ := h (account 2, 10) (by simp [hcached])
  rw [hreturned, List.mem_singleton] at hmem
  obtain rfl := congrArg Prod.fst hmem
  simp [account, wrap] at hsame

end Marty.Resilience.FallbackCache
