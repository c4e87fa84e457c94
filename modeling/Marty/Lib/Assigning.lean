import Mathlib.Order.Basic
import Marty.Lib.Run

/-! Records whose fields are assigned with a check: an assignment that is rejected leaves the
record as it is, and the run goes on. -/

universe u v w

namespace Lib.Assigning

open Lib.Run

variable {σ : Type u} {α : Type v} {assign : σ → α → Option σ} {I : σ → Prop}
  {guard : σ → α → Prop}

def attempt (assign : σ → α → Option σ) (s : σ) (a : α) : Option σ := some ((assign s a).getD s)

theorem attempt_of_some {s s' : σ} {a : α} (h : assign s a = some s') :
    attempt assign s a = some s' := by
  rw [attempt, h, Option.getD_some]

theorem attempt_of_none {s : σ} {a : α} (h : assign s a = none) : attempt assign s a = some s := by
  rw [attempt, h, Option.getD_none]

/-- Where the guard says of each assignment that is accepted whether it keeps the record good, and
nothing of the rejected ones, a run keeps the record good exactly when it is guarded. -/
theorem good_iff_guarded
    (haccept : ∀ s a s', I s → assign s a = some s' → (guard s a ↔ I s'))
    (hreject : ∀ s a, I s → assign s a = none → guard s a) {s : σ} (hs : I s) (as : List α) :
    (∀ n s', run (attempt assign) s (as.take n) = some s' → I s') ↔
      Guarded (attempt assign) guard s as := by
  apply forall_take_iff_guarded
  · intro s a hs
    cases hassign : assign s a with
    | none =>
      simp only [attempt_of_none hassign, Option.some.injEq, forall_eq']
      exact iff_of_true (hreject s a hs hassign) hs
    | some s' =>
      simp only [attempt_of_some hassign, Option.some.injEq, forall_eq']
      exact haccept s a s' hs hassign
  · exact hs

/-- The first record has to be good, too. -/
theorem good_iff (haccept : ∀ s a s', I s → assign s a = some s' → (guard s a ↔ I s'))
    (hreject : ∀ s a, I s → assign s a = none → guard s a) (s : σ) (as : List α) :
    (∀ n s', run (attempt assign) s (as.take n) = some s' → I s') ↔
      I s ∧ Guarded (attempt assign) guard s as := by
  constructor
  · intro h
    have hs : I s := h 0 s rfl
    exact ⟨hs, (good_iff_guarded haccept hreject hs as).mp h⟩
  · rintro ⟨hs, hg⟩
    exact (good_iff_guarded haccept hreject hs as).mpr hg

/-! Two fields in order, of which the assignments to one are checked against the other. -/

section

variable {δ : Type w} [Preorder δ] {lower upper : σ → δ} {given : α → Option δ}

/-- What is given to the lower field is not above the upper one. -/
def Below (upper : σ → δ) (given : α → Option δ) (s : σ) (a : α) : Prop :=
  ∀ d ∈ given a, d ≤ upper s

/-- Where all assignments to the lower field are accepted, and those to the upper one are checked,
the fields stay in order exactly when nothing above the upper one is given to the lower. -/
theorem ordered_iff_below
    (hgiven : ∀ s a, ∀ d ∈ given a, ∃ s', assign s a = some s' ∧ lower s' = d ∧ upper s' = upper s)
    (hother : ∀ s a s', given a = none → assign s a = some s' →
      lower s' = lower s ∧ (upper s' = upper s ∨ lower s ≤ upper s'))
    {s : σ} (hs : lower s ≤ upper s) (as : List α) :
    (∀ n s', run (attempt assign) s (as.take n) = some s' → lower s' ≤ upper s') ↔
      Guarded (attempt assign) (Below upper given) s as := by
  apply good_iff_guarded (I := fun s => lower s ≤ upper s)
  · intro s a s' hs hassign
    cases hgive : given a with
    | none =>
      obtain ⟨hlower, hupper⟩ := hother s a s' hgive hassign
      have hs' : lower s' ≤ upper s' := by
        rw [hlower]
        cases hupper with
        | inl hsame => rwa [hsame]
        | inr hle => exact hle
      exact iff_of_true (by simp [Below, hgive]) hs'
    | some d =>
      obtain ⟨s'', hs'', hlower, hupper⟩ := hgiven s a d hgive
      obtain rfl := Option.some.inj (hassign.symm.trans hs'')
      simp [Below, hgive, hlower, hupper]
  · intro s a _ hassign d hd
    obtain ⟨s', hs', -⟩ := hgiven s a d hd
    cases hassign.symm.trans hs'
  · exact hs

end

end Lib.Assigning
