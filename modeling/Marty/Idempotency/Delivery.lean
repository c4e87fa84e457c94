import Marty.Idempotency.Exclusive

/-! What becomes of an execution whose response has been stored.  The error of a failed renewal
task surfaces where the request stops it. -/

namespace Marty.Idempotency.Delivery

open Lib Lib.Run Lib.Pool Redis Exclusive

/-- The response that is returned once it has been collected and stored. -/
def deliver (t : Thread) (r : Response) : Result := .executed (rebuilt (collected t.requestHash r))

/-- The phases after the write, for a request that returns the result if nothing fails. -/
inductive Ends (result : Result) : Phase → Prop
  | stopRenewal {token : String} : Ends result (.stopRenewal token result)
  | release {token : String} : Ends result (.release token result)
  | releaseDelete {token : String} : Ends result (.releaseDelete token result)
  | done {result' : Result} : Ends result (.done result')

/-- What a request that has been executed carries to the write. -/
def Carries (t : Thread) : Phase → Prop
  | .collect _ r => Succeeded t r
  | .writeData _ cached => ∃ r, Succeeded t r ∧ cached = collected t.requestHash r
  | _ => True

def Wrote (t : Thread) : Prop := ∃ r, Succeeded t r ∧ Ends (deliver t r) t.phase

structure Inv (tr : List Label) (s : System) : Prop where
  thread : ∀ {i : Nat} {t : Thread}, s.threads[i]? = some t →
    Carries t t.phase ∧ (.writeData i ∈ tr → Wrote t)
  bound : ∀ {i : Nat}, .writeData i ∈ tr → i < s.threads.length

variable {tr : List Label} {s s' : System} {i : Nat} {t t' : Thread} {l : Label}

theorem mem_of_snoc (hl : ∀ j, l ≠ .writeData j) (h : .writeData i ∈ tr ++ [l]) :
    .writeData i ∈ tr :=
  (List.mem_append.mp h).resolve_right fun h => hl i (List.mem_singleton.mp h).symm

theorem Inv.quiet (hi : Inv tr s) (hthreads : s'.threads = s.threads)
    (hl : ∀ j, l ≠ .writeData j) : Inv (tr ++ [l]) s' where
  thread hj := ⟨(hi.thread (hthreads ▸ hj)).1, fun h =>
    (hi.thread (hthreads ▸ hj)).2 (mem_of_snoc hl h)⟩
  bound h := hthreads ▸ hi.bound (mem_of_snoc hl h)

theorem Inv.set (hi : Inv tr s) (ht : s.threads[i]? = some t)
    (hthreads : s'.threads = s.threads.set i t') (hl : ∀ j, l = .writeData j → j = i)
    (hcarries : Carries t' t'.phase)
    (hwrote : (.writeData i ∈ tr → Wrote t) → .writeData i ∈ tr ++ [l] → Wrote t') :
    Inv (tr ++ [l]) s' where
  thread := by
    intro j u hj
    rw [hthreads] at hj
    rcases getElem?_set_cases hj with ⟨rfl, rfl⟩ | ⟨hne, hj⟩
    · exact ⟨hcarries, hwrote (hi.thread ht).2⟩
    · refine ⟨(hi.thread hj).1, fun hmem => (hi.thread hj).2 ?_⟩
      rcases List.mem_append.mp hmem with hmem | hmem
      · exact hmem
      · exact absurd (hl j (List.mem_singleton.mp hmem).symm) hne
  bound := by
    intro j hmem
    rw [hthreads, List.length_set]
    rcases List.mem_append.mp hmem with hmem | hmem
    · exact hi.bound hmem
    · rw [hl j (List.mem_singleton.mp hmem).symm]
      exact lt_length ht

/-- A step of a request other than its write. -/
theorem Inv.move (hi : Inv tr s) (ht : s.threads[i]? = some t)
    (hthreads : s'.threads = s.threads.set i t') (hl : ∀ j, l ≠ .writeData j)
    (hcarries : Carries t' t'.phase) (hwrote : Wrote t → Wrote t') : Inv (tr ++ [l]) s' :=
  hi.set ht hthreads (fun j h => absurd h (hl j)) hcarries fun hold hmem =>
    hwrote (hold (mem_of_snoc hl hmem))

/-- A request that is not yet past the write has not written. -/
theorem not_wrote {phase : Phase} (hphase : t.phase = phase) (h : ∀ result, ¬ Ends result phase) :
    ¬ Wrote t := by
  rintro ⟨r, -, hends⟩
  exact h _ (hphase ▸ hends)

theorem carries_afterReadData (data : Option CachedPayload) (requestHash : String) :
    Carries t (afterReadData data requestHash) := by
  unfold afterReadData
  split
  · split <;> trivial
  · trivial

theorem carries_afterReadLock (lock : Option LockPayload) (requestHash : String) :
    Carries t (afterReadLock lock requestHash) := by
  unfold afterReadLock
  split
  · split <;> trivial
  · trivial

theorem carries_afterCallNext {token : String} {result : Called} (h : t.called = some result) :
    Carries t (afterCallNext token result) := by
  cases result with
  | returned r =>
    simp only [afterCallNext]
    split
    case isTrue hsuccess => exact ⟨h, hsuccess⟩
    case isFalse => trivial
  | raised => trivial

theorem carries_afterFault {phase phase' : Phase} (h : afterFault phase = some phase') :
    Carries t phase' := by
  cases phase <;> cases h <;> trivial

theorem Ends.afterFault {result : Result} {phase phase' : Phase} (hends : Ends result phase)
    (h : afterFault phase = some phase') : Ends result phase' := by
  cases hends <;> cases h
  · exact .done
  · exact .done

theorem step_inv (hi : Inv tr s) (h : step s l = some s') : Inv (tr ++ [l]) s' := by
  cases steps_of_step h with
  | arrive requestHash =>
    have hnew {j : Nat} (hmem : .writeData j ∈ tr ++ [.arrive requestHash]) : .writeData j ∈ tr :=
      mem_of_snoc (l := .arrive requestHash) (fun _ => nofun) hmem
    constructor
    case thread =>
      intro j u hj
      rcases getElem?_append_cases hj with ⟨rfl, rfl⟩ | hj
      · exact ⟨trivial, fun hmem => absurd (hi.bound (hnew hmem)) (Nat.lt_irrefl _)⟩
      · exact ⟨(hi.thread hj).1, fun hmem => (hi.thread hj).2 (hnew hmem)⟩
    case bound =>
      intro j hmem
      exact Nat.lt_of_lt_of_le (hi.bound (hnew hmem)) (by simp)
  | readData ht hphase =>
    exact hi.move ht rfl nofun (carries_afterReadData _ _) fun h =>
      absurd h (not_wrote hphase nofun)
  | locked ht hphase hfresh hlock =>
    exact hi.move ht rfl nofun trivial fun h => absurd h (not_wrote hphase nofun)
  | blocked ht hphase hfresh hlock =>
    exact hi.move ht rfl nofun trivial fun h => absurd h (not_wrote hphase nofun)
  | readLock ht hphase =>
    exact hi.move ht rfl nofun (carries_afterReadLock _ _) fun h =>
      absurd h (not_wrote hphase nofun)
  | callNext result ht hphase =>
    exact hi.move ht rfl nofun (carries_afterCallNext rfl) fun h =>
      absurd h (not_wrote hphase nofun)
  | collect ok ht hphase =>
    refine hi.move ht rfl nofun ?_ fun h => absurd h (not_wrote hphase nofun)
    cases ok with
    | true =>
      have hsucceeded : Carries _ (.collect _ _) := hphase ▸ (hi.thread ht).1
      exact ⟨_, hsucceeded, rfl⟩
    | false => trivial
  | writeData ht hphase =>
    refine hi.set ht rfl (fun j h => (Label.writeData.inj h).symm) trivial fun _ _ => ?_
    obtain ⟨r, hr, rfl⟩ : Carries _ (.writeData _ _) := hphase ▸ (hi.thread ht).1
    exact ⟨r, hr, .stopRenewal⟩
  | stopRenewal ht hphase =>
    refine hi.move ht rfl nofun ?_ ?_
    · split <;> trivial
    · rintro ⟨r, hr, hends⟩
      rw [hphase] at hends
      cases hends
      split
      · exact ⟨r, hr, .done⟩
      · exact ⟨r, hr, .release⟩
  | release ht hphase =>
    exact hi.move ht rfl nofun trivial fun ⟨r, hr, _⟩ => ⟨r, hr, .done⟩
  | releaseGet ht hphase =>
    refine hi.move ht rfl nofun ?_ ?_
    · dsimp only
      split <;> trivial
    · rintro ⟨r, hr, hends⟩
      rw [hphase] at hends
      cases hends
      refine ⟨r, hr, ?_⟩
      dsimp only
      split
      · exact .releaseDelete
      · exact .done
  | releaseDelete ht hphase =>
    exact hi.move ht rfl nofun trivial fun ⟨r, hr, _⟩ => ⟨r, hr, .done⟩
  | renewGet ht hrenewal => exact hi.move ht rfl nofun (hi.thread ht).1 fun h => h
  | renewExpire ht hrenewal => exact hi.move ht rfl nofun (hi.thread ht).1 fun h => h
  | fault ht hfault =>
    exact hi.move ht rfl nofun (carries_afterFault hfault) fun ⟨r, hr, hends⟩ =>
      ⟨r, hr, hends.afterFault hfault⟩
  | renewFault ht hfault => exact hi.move ht rfl nofun (hi.thread ht).1 fun h => h
  | expireLock => exact hi.quiet rfl fun _ => nofun
  | expireData => exact hi.quiet rfl fun _ => nofun

theorem run_inv (h : run step {} tr = some s) : Inv tr s := by
  have hinit : Inv [] {} := ⟨fun h => by simp at h, fun h => by simp at h⟩
  have hg : Guarded step (fun _ _ => True) {} tr := guarded_of_mem (fun _ _ _ => trivial) _
  exact run_trace_invariant (fun _ _ _ _ hi _ hs => step_inv hi hs) hinit hg h

/-! From the end of the renewal on. -/

/-- The release of the lock has been tried. -/
def Attempted (i : Nat) (tr : List Label) : Prop :=
  .release i ∈ tr ∨ .releaseGet i ∈ tr ∨ .fault i ∈ tr

/-- A request that is left with a result, before and after it has tried to release. -/
inductive Leaves (i : Nat) (result : Result) (tr : List Label) : Phase → Prop
  | release {token : String} : Leaves i result tr (.release token result)
  | releaseDelete {token : String} : Attempted i tr →
      Leaves i result tr (.releaseDelete token result)
  | done : Attempted i tr → Leaves i result tr (.done result)

theorem Attempted.snoc (h : Attempted i tr) (l : Label) : Attempted i (tr ++ [l]) :=
  h.imp (List.mem_append_left _) (.imp (List.mem_append_left _) (List.mem_append_left _))

theorem Leaves.snoc {result : Result} {phase : Phase} (h : Leaves i result tr phase) (l : Label) :
    Leaves i result (tr ++ [l]) phase := by
  cases h with
  | release => exact .release
  | releaseDelete h => exact .releaseDelete (h.snoc l)
  | done h => exact .done (h.snoc l)

theorem Leaves.fault {result : Result} {tr' : List Label} {phase phase' : Phase}
    (h : Leaves i result tr phase) (hfault : afterFault phase = some phase')
    (hattempted : Attempted i tr') : Leaves i result tr' phase' := by
  cases h <;> cases hfault
  · exact .done hattempted
  · exact .done hattempted

theorem leaves_set {result : Result} {j : Nat} {u u' : Thread} (ht : s.threads[i]? = some t)
    (hleaves : Leaves i result tr t.phase) (hu : s.threads[j]? = some u)
    (hthreads : s'.threads = s.threads.set j u')
    (hmove : j = i → Leaves i result tr u.phase → Leaves i result (tr ++ [l]) u'.phase) :
    ∃ t', s'.threads[i]? = some t' ∧ Leaves i result (tr ++ [l]) t'.phase := by
  rw [hthreads]
  by_cases hji : j = i
  · subst hji
    obtain rfl : t = u := Option.some.inj (ht.symm.trans hu)
    exact ⟨u', getElem?_set_self hu u', hmove rfl hleaves⟩
  · exact ⟨t, (List.getElem?_set_ne hji).trans ht, hleaves.snoc l⟩

/-- A request that is past the renewal keeps its result to the end. -/
theorem step_leaves {result : Result} (ht : s.threads[i]? = some t)
    (hleaves : Leaves i result tr t.phase) (h : step s l = some s') :
    ∃ t', s'.threads[i]? = some t' ∧ Leaves i result (tr ++ [l]) t'.phase := by
  cases steps_of_step h with
  | arrive requestHash => exact ⟨t, getElem?_append_old ht _, hleaves.snoc _⟩
  | readData hu hphase | locked hu hphase _ _ | blocked hu hphase _ _ | readLock hu hphase
  | callNext _ hu hphase | collect _ hu hphase | writeData hu hphase | stopRenewal hu hphase =>
    refine leaves_set ht hleaves hu rfl fun _ hleaves => ?_
    rw [hphase] at hleaves
    cases hleaves
  | release hu hphase =>
    refine leaves_set ht hleaves hu rfl fun hji hleaves => ?_
    rw [hphase] at hleaves
    cases hleaves
    exact .done (.inl (by simp [hji]))
  | @releaseGet j _ _ _ hu hphase =>
    refine leaves_set ht hleaves hu rfl fun hji hleaves => ?_
    rw [hphase] at hleaves
    cases hleaves
    have hattempted : Attempted i (tr ++ [.releaseGet j]) := .inr (.inl (by simp [hji]))
    dsimp only
    split
    · exact .releaseDelete hattempted
    · exact .done hattempted
  | releaseDelete hu hphase =>
    refine leaves_set ht hleaves hu rfl fun _ hleaves => ?_
    rw [hphase] at hleaves
    cases hleaves with
    | releaseDelete hattempted => exact .done (hattempted.snoc _)
  | renewGet hu _ | renewExpire hu _ | renewFault hu _ =>
    exact leaves_set ht hleaves hu rfl fun _ hleaves => hleaves.snoc _
  | fault hu hfault =>
    refine leaves_set ht hleaves hu rfl fun hji hleaves => ?_
    exact hleaves.fault hfault (.inr (.inr (by simp [hji])))
  | expireLock => exact ⟨t, ht, hleaves.snoc _⟩
  | expireData => exact ⟨t, ht, hleaves.snoc _⟩

theorem run_leaves {result : Result} {ls : List Label} (ht : s.threads[i]? = some t)
    (hleaves : Leaves i result [] t.phase) (hr : run step s ls = some s') :
    ∃ t', s'.threads[i]? = some t' ∧ Leaves i result ls t'.phase := by
  have hg : Guarded step (fun _ _ => True) s ls := guarded_of_mem (fun _ _ _ => trivial) _
  exact run_trace_invariant
    (I := fun tr s => ∃ t, s.threads[i]? = some t ∧ Leaves i result tr t.phase)
    (fun tr s l s' ⟨t, ht, hleaves⟩ _ h => step_leaves ht hleaves h) ⟨t, ht, hleaves⟩ hg hr

theorem done_set {result : Result} {j : Nat} {u u' : Thread} (ht : s.threads[i]? = some t)
    (hdone : t.phase = .done result) (hu : s.threads[j]? = some u)
    (hthreads : s'.threads = s.threads.set j u')
    (hmove : u.phase = .done result → u'.phase = .done result) :
    ∃ t', s'.threads[i]? = some t' ∧ t'.phase = .done result := by
  rw [hthreads]
  by_cases hji : j = i
  · subst hji
    obtain rfl : t = u := Option.some.inj (ht.symm.trans hu)
    exact ⟨u', getElem?_set_self hu u', hmove hdone⟩
  · exact ⟨t, (List.getElem?_set_ne hji).trans ht, hdone⟩

/-- A request that has returned is left as it is. -/
theorem step_done {result : Result} (ht : s.threads[i]? = some t) (hdone : t.phase = .done result)
    (h : step s l = some s') : ∃ t', s'.threads[i]? = some t' ∧ t'.phase = .done result := by
  cases steps_of_step h with
  | arrive requestHash => exact ⟨t, getElem?_append_old ht _, hdone⟩
  | readData hu hphase | locked hu hphase _ _ | blocked hu hphase _ _ | readLock hu hphase
  | callNext _ hu hphase | collect _ hu hphase | writeData hu hphase | stopRenewal hu hphase
  | release hu hphase | releaseGet hu hphase | releaseDelete hu hphase =>
    refine done_set ht hdone hu rfl fun hdone => ?_
    cases hphase.symm.trans hdone
  | renewGet hu _ | renewExpire hu _ | renewFault hu _ => exact done_set ht hdone hu rfl id
  | fault hu hfault =>
    refine done_set ht hdone hu rfl fun hdone => ?_
    rw [hdone] at hfault
    cases hfault
  | expireLock => exact ⟨t, ht, hdone⟩
  | expireData => exact ⟨t, ht, hdone⟩

theorem run_done {result : Result} {ls : List Label} (ht : s.threads[i]? = some t)
    (hdone : t.phase = .done result) (hr : run step s ls = some s') :
    ∃ t', s'.threads[i]? = some t' ∧ t'.phase = .done result :=
  run_preserves (I := fun s => ∃ t, s.threads[i]? = some t ∧ t.phase = .done result)
    (fun _ _ _ ⟨_, ht, hdone⟩ h => step_done ht hdone h) ⟨t, ht, hdone⟩ hr

/-- The request returns its response and has tried to release its lock. -/
def Delivered (i : Nat) (t : Thread) (result : Result) (ls : List Label) : Prop :=
  ∃ r, Succeeded t r ∧ result = deliver t r ∧ Attempted i ls

/-- When the renewal task is stopped, the result of the request is the response that it has
stored. -/
theorem stopped_with_response (hr : run step {} tr = some s) (hwrite : .writeData i ∈ tr)
    (ht : s.threads[i]? = some t) {token : String} {result : Result}
    (hphase : t.phase = .stopRenewal token result) :
    ∃ r, Succeeded t r ∧ result = deliver t r := by
  obtain ⟨r, hsucceeded, hends⟩ := ((run_inv hr).thread ht).2 hwrite
  rw [hphase] at hends
  cases hends
  exact ⟨r, hsucceeded, rfl⟩

/-- The run from here on ends with this result for the request. -/
def Returns (i : Nat) (s : System) (ls : List Label) (result : Result) : Prop :=
  ∃ s' t', run step s ls = some s' ∧ s'.threads[i]? = some t' ∧ t'.phase = .done result

theorem returns_release {token : String} {result : Result} (ht : s.threads[i]? = some t)
    (hphase : t.phase = .release token result) : Returns i s [.release i] result := by
  have hstep : step s (.release i) =
      some ({ s with lock := if lockToken s.lock = some token then none else s.lock }.set i
        { t with phase := .done result }) := by
    simp only [step, ht, hphase, Option.bind_eq_bind, Option.bind_some]
  exact ⟨_, { t with phase := .done result }, by rw [run, hstep]; rfl, getElem?_set_self ht _, rfl⟩

theorem Returns.eq_of_done {result result' : Result} {ls : List Label}
    (h : Returns i s ls result') (ht : s.threads[i]? = some t) (hdone : t.phase = .done result) :
    result' = result := by
  obtain ⟨s', t', hr, ht', hdone'⟩ := h
  obtain ⟨u, hu, hdone⟩ := run_done ht hdone hr
  obtain rfl : t' = u := Option.some.inj (ht'.symm.trans hu)
  exact Phase.done.inj (hdone'.symm.trans hdone)

theorem Returns.of_release {token : String} {result result' : Result} {ls : List Label}
    (h : Returns i s ls result') (ht : s.threads[i]? = some t)
    (hphase : t.phase = .release token result) : result' = result ∧ Attempted i ls := by
  obtain ⟨s', t', hr, ht', hdone⟩ := h
  have hstart : Leaves i result [] t.phase := by
    rw [hphase]
    exact .release
  obtain ⟨u, hu, hleaves⟩ := run_leaves ht hstart hr
  obtain rfl : t' = u := Option.some.inj (ht'.symm.trans hu)
  rw [hdone] at hleaves
  cases hleaves with
  | done hattempted => exact ⟨rfl, hattempted⟩

/-- What has been executed and stored is delivered exactly when the renewal task has not failed
before it is stopped; the request can always return. -/
theorem delivered_iff {s₁ : System} (hr : run step {} tr = some s) (hwrite : .writeData i ∈ tr)
    (ht : s.threads[i]? = some t) (hstop : step s (.stopRenewal i) = some s₁) :
    (∃ ls result, Returns i s₁ ls result) ∧
      ∀ ls result, Returns i s₁ ls result → (Delivered i t result ls ↔ t.renewal ≠ .failed) := by
  cases steps_of_step hstop with
  | @stopRenewal _ u token stopped hu hphase =>
    obtain rfl : t = u := Option.some.inj (ht.symm.trans hu)
    obtain ⟨r, hsucceeded, rfl⟩ := stopped_with_response hr hwrite ht hphase
    by_cases hfailed : t.renewal = .failed
    · rw [if_pos hfailed]
      have ht₁ := getElem?_set_self ht { t with phase := .done .raised }
      refine ⟨⟨[], _, _, _, rfl, ht₁, rfl⟩, fun ls result hreturns => ?_⟩
      refine iff_of_false ?_ (not_not_intro hfailed)
      rintro ⟨r', -, rfl, -⟩
      cases hreturns.eq_of_done ht₁ rfl
    · rw [if_neg hfailed]
      have ht₁ := getElem?_set_self ht
        { t with phase := .release token (deliver t r), renewal := .stopped }
      refine ⟨⟨_, _, returns_release ht₁ rfl⟩, fun ls result hreturns => ?_⟩
      obtain ⟨rfl, hattempted⟩ := hreturns.of_release ht₁ rfl
      exact iff_of_true ⟨r, hsucceeded, rfl, hattempted⟩ hfailed

def storedRun : List Label :=
  [.arrive "h", .readData 0, .tryLock 0 "a", .callNext 0 (.returned created), .collect 0 true,
    .writeData 0]

/-- The first read of the renewal task fails while the request is executed. -/
def failedRenewalRun : List Label :=
  [.arrive "h", .readData 0, .tryLock 0 "a", .callNext 0 (.returned created), .renewFault 0,
    .collect 0 true, .writeData 0]

/-- The client of an execution that has been stored gets an error, and its lock stays. -/
theorem failed_renewal_raises : ∃ s t s₁ t₁, run step {} failedRenewalRun = some s ∧
    s.threads[0]? = some t ∧ Succeeded t created ∧ .writeData 0 ∈ failedRenewalRun ∧
    step s (.stopRenewal 0) = some s₁ ∧ s₁.threads[0]? = some t₁ ∧ t₁.phase = .done .raised ∧
    s₁.lock = some ⟨"h", "a"⟩ :=
  ⟨_, _, _, _, rfl, rfl, ⟨rfl, rfl⟩, by simp [failedRenewalRun], rfl, rfl, rfl, rfl⟩

theorem stored_delivered : ∃ s t s₁, run step {} storedRun = some s ∧ s.threads[0]? = some t ∧
    step s (.stopRenewal 0) = some s₁ ∧ ∃ ls result, Delivered 0 t result ls := by
  have hstored : ∃ s t s₁, run step {} storedRun = some s ∧ s.threads[0]? = some t ∧
      step s (.stopRenewal 0) = some s₁ ∧ t.renewal ≠ .failed :=
    ⟨_, _, _, rfl, rfl, rfl, by decide⟩
  obtain ⟨s, t, s₁, hr, ht, hstop, hfailed⟩ := hstored
  obtain ⟨⟨ls, result, hreturns⟩, hdelivered⟩ :=
    delivered_iff hr (by simp [storedRun]) ht hstop
  exact ⟨s, t, s₁, hr, ht, hstop, ls, result, (hdelivered ls result hreturns).mpr hfailed⟩

end Marty.Idempotency.Delivery
