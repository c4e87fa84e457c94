import Mathlib.Order.Nat

/-! A loop of attempts: one follows another as long as `again` says so. -/

universe u

namespace Lib.Retrying

variable {σ : Type u} (step : Nat → σ → σ) (again : Nat → Bool)

/-- The loop from attempt `n` on, with at most `left` attempts after it: the number of the last
attempt, and the state after it. -/
def loop : (left n : Nat) → σ → Nat × σ
  | 0, n, s => (n, step n s)
  | left + 1, n, s => if again n then loop left (n + 1) (step n s) else (n, step n s)

/-- The attempts from `n` on end with attempt `k`. -/
structure Ends (n k : Nat) : Prop where
  le : n ≤ k
  goesOn : ∀ i, n ≤ i → i < k → again i = true
  last : again k = false

variable {again}

theorem Ends.unique {n k k' : Nat} (h : Ends again n k) (h' : Ends again n k') : k = k' := by
  rcases Nat.lt_trichotomy k k' with hlt | heq | hlt
  · have hagain := h'.goesOn k h.le hlt
    rw [h.last] at hagain
    cases hagain
  · exact heq
  · have hagain := h.goesOn k' h'.le hlt
    rw [h'.last] at hagain
    cases hagain

theorem Ends.cons {n k : Nat} (hagain : again n = true) (h : Ends again (n + 1) k) :
    Ends again n k where
  le := n.le_succ.trans h.le
  goesOn i hn hk := by
    rcases Nat.eq_or_lt_of_le hn with rfl | hlater
    · exact hagain
    · exact h.goesOn i hlater hk
  last := h.last

/-- What holds before the first attempt, and after every attempt that is not the last one, holds
before the last. -/
theorem loop_induction {motive : Nat → σ → Prop} {left n : Nat} {s : σ}
    (hstop : again (n + left) = false) (hinit : motive n s)
    (hstep : ∀ i s, again i = true → motive i s → motive (i + 1) (step i s)) :
    ∃ k s', Ends again n k ∧ motive k s' ∧ loop step again left n s = (k, step k s') := by
  induction left generalizing n s with
  | zero => exact ⟨n, s, ⟨le_rfl, fun _ _ _ => by omega, hstop⟩, hinit, rfl⟩
  | succ left ih =>
    rw [loop]
    split
    case isTrue hagain =>
      have hstop : again (n + 1 + left) = false := by rwa [Nat.add_right_comm]
      obtain ⟨k, s', hends, hmotive, hloop⟩ := ih hstop (hstep n s hagain hinit)
      exact ⟨k, s', hends.cons hagain, hmotive, hloop⟩
    case isFalse hlast =>
      have hends : Ends again n n :=
        ⟨le_rfl, fun _ _ _ => by omega, Bool.eq_false_iff.mpr hlast⟩
      exact ⟨n, s, hends, hinit, rfl⟩

end Lib.Retrying
