import Mathlib.Data.List.Basic

/-! Runs of a system given by a partial step function.  A label carries everything the
environment decides: who moves, what time it is, what an outside call answers. -/

universe u v

namespace Lib.Run

variable {σ : Type u} {ℓ : Type v} {step : σ → ℓ → Option σ} {guard : σ → ℓ → Prop}

def run (step : σ → ℓ → Option σ) : σ → List ℓ → Option σ
  | s, [] => some s
  | s, l :: ls => (step s l).bind fun s' => run step s' ls

/-- Every step of the run meets the guard in the state before it. -/
def Guarded (step : σ → ℓ → Option σ) (guard : σ → ℓ → Prop) : σ → List ℓ → Prop
  | _, [] => True
  | s, l :: ls =>
    guard s l ∧
      match step s l with
      | none => True
      | some s' => Guarded step guard s' ls

instance decidableGuarded [∀ s l, Decidable (guard s l)] :
    ∀ (s : σ) (ls : List ℓ), Decidable (Guarded step guard s ls)
  | _, [] => .isTrue trivial
  | s, l :: ls =>
    have : Decidable (match step s l with
        | none => True
        | some s' => Guarded step guard s' ls) :=
      match step s l with
      | none => .isTrue trivial
      | some s' => decidableGuarded s' ls
    inferInstanceAs (Decidable (_ ∧ _))

theorem run_cons {s s' : σ} {l : ℓ} {ls : List ℓ} (h : run step s (l :: ls) = some s') :
    ∃ t, step s l = some t ∧ run step t ls = some s' := by
  simpa [run, Option.bind_eq_some_iff] using h

theorem run_append (s : σ) (ls ls' : List ℓ) :
    run step s (ls ++ ls') = (run step s ls).bind fun t => run step t ls' := by
  induction ls generalizing s with
  | nil => rfl
  | cons l ls ih => simp [run, ih, Option.bind_assoc]

theorem Guarded.head {s : σ} {l : ℓ} {ls : List ℓ} (h : Guarded step guard s (l :: ls)) :
    guard s l := h.1

theorem Guarded.tail {s t : σ} {l : ℓ} {ls : List ℓ} (h : Guarded step guard s (l :: ls))
    (hs : step s l = some t) : Guarded step guard t ls := by
  have h := h.2
  rwa [hs] at h

theorem Guarded.and {guard' : σ → ℓ → Prop} {s : σ} {ls : List ℓ} (h : Guarded step guard s ls)
    (h' : Guarded step guard' s ls) : Guarded step (fun s l => guard s l ∧ guard' s l) s ls := by
  induction ls generalizing s with
  | nil => trivial
  | cons l ls ih =>
    refine ⟨⟨h.head, h'.head⟩, ?_⟩
    cases hs : step s l with
    | none => trivial
    | some t => exact ih (h.tail hs) (h'.tail hs)

/-- What every guarded step preserves, every guarded run preserves, with the labels passed so
far in view. -/
theorem run_trace_invariant {I : List ℓ → σ → Prop}
    (hstep : ∀ tr s l s', I tr s → guard s l → step s l = some s' → I (tr ++ [l]) s')
    {tr ls : List ℓ} {s s' : σ} (hs : I tr s) (hg : Guarded step guard s ls)
    (hr : run step s ls = some s') : I (tr ++ ls) s' := by
  induction ls generalizing tr s with
  | nil =>
    obtain rfl : s = s' := by simpa [run] using hr
    simpa using hs
  | cons l ls ih =>
    obtain ⟨t, ht, hr⟩ := run_cons hr
    simpa using ih (hstep tr s l t hs hg.head ht) (hg.tail ht) hr

theorem run_invariant {I : σ → Prop}
    (hstep : ∀ s l s', I s → guard s l → step s l = some s' → I s')
    {ls : List ℓ} {s s' : σ} (hs : I s) (hg : Guarded step guard s ls)
    (hr : run step s ls = some s') : I s' :=
  @run_trace_invariant _ _ _ _ (fun _ => I) (fun _ => hstep) [] _ _ _ hs hg hr

theorem guarded_of_mem {ls : List ℓ} (h : ∀ s, ∀ l ∈ ls, guard s l) (s : σ) :
    Guarded step guard s ls := by
  induction ls generalizing s with
  | nil => trivial
  | cons l ls ih =>
    refine ⟨h s l List.mem_cons_self, ?_⟩
    split
    · trivial
    · exact ih (fun s l hl => h s l (List.mem_cons_of_mem _ hl)) _

/-- A run is guarded when each of its labels meets the guard in the state that the labels before it
lead to. -/
theorem guarded_iff {ls : List ℓ} {s : σ} : Guarded step guard s ls ↔
    ∀ n s' l, run step s (ls.take n) = some s' → ls[n]? = some l → guard s' l := by
  induction ls generalizing s with
  | nil => simp [Guarded]
  | cons l ls ih =>
    constructor
    · intro h n s' l' hr hl
      cases n with
      | zero =>
        obtain rfl : s = s' := by simpa [run] using hr
        obtain rfl : l = l' := by simpa using hl
        exact h.head
      | succ n =>
        obtain ⟨t, ht, hr⟩ := run_cons hr
        exact ih.mp (h.tail ht) n s' l' hr (by simpa using hl)
    · intro h
      refine ⟨h 0 s l rfl rfl, ?_⟩
      split
      case h_1 => trivial
      case h_2 t ht => exact ih.mpr fun n s' l' hr hl => h (n + 1) s' l' (by simpa [run, ht]) hl

/-- Guards that agree where an invariant holds, which the steps preserve. -/
theorem guarded_congr {I : σ → Prop} {guard' : σ → ℓ → Prop}
    (hstep : ∀ s l s', I s → step s l = some s' → I s')
    (h : ∀ s l, I s → (guard s l ↔ guard' s l)) {ls : List ℓ} {s : σ} (hs : I s) :
    Guarded step guard s ls ↔ Guarded step guard' s ls := by
  induction ls generalizing s with
  | nil => exact Iff.rfl
  | cons l ls ih =>
    refine and_congr (h s l hs) ?_
    split
    case h_1 => exact Iff.rfl
    case h_2 t ht => exact ih (hstep s l t hs ht)

theorem run_preserves {I : σ → Prop} (hstep : ∀ s l s', I s → step s l = some s' → I s')
    {ls : List ℓ} {s s' : σ} (hs : I s) (hr : run step s ls = some s') : I s' := by
  have hg : Guarded step (fun _ _ => True) s ls := guarded_of_mem (fun _ _ _ => trivial) s
  exact run_invariant (fun s l s' hs _ h => hstep s l s' hs h) hs hg hr

/-- Where the guard says exactly that the next state is good, a run is guarded when every state
it reaches is. -/
theorem forall_take_iff_guarded {I : σ → Prop}
    (hstep : ∀ s l, I s → (guard s l ↔ ∀ s', step s l = some s' → I s')) {ls : List ℓ} {s : σ}
    (hs : I s) : (∀ n s', run step s (ls.take n) = some s' → I s') ↔ Guarded step guard s ls := by
  induction ls generalizing s with
  | nil =>
    refine ⟨fun _ => trivial, fun _ n s' hr => ?_⟩
    obtain rfl : s = s' := by simpa [run] using hr
    exact hs
  | cons l ls ih =>
    constructor
    · intro h
      have hl : ∀ s', step s l = some s' → I s' :=
        fun s' hs' => h 1 s' (by simp [run, hs'])
      refine ⟨(hstep s l hs).mpr hl, ?_⟩
      split
      case h_1 => trivial
      case h_2 t ht => exact (ih (hl t ht)).mp fun n s' hr => h (n + 1) s' (by simpa [run, ht])
    · intro hg n s' hr
      cases n with
      | zero =>
        obtain rfl : s = s' := by simpa [run] using hr
        exact hs
      | succ n =>
        obtain ⟨t, ht, hr⟩ := run_cons hr
        exact (ih ((hstep s l hs).mp hg.head t ht)).mpr (hg.tail ht) n s' hr

end Lib.Run
