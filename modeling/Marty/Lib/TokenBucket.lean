import Mathlib.Algebra.Order.Field.Basic
import Mathlib.Tactic.Linarith
import Mathlib.Tactic.Ring
import Marty.Lib.Events

/-! Token buckets.  A bucket that is refilled at a steady rate up to its size, and pays one token
for every event, lets through at most its size and the refill of any interval. -/

universe u

namespace Lib.TokenBucket

open Events

variable {K : Type u} [Field K] [LinearOrder K] [IsStrictOrderedRing K]
  {rate burst tokens last now : K} {events : List K}

/-- No closed interval holds more events than the bucket and its refill pay for. -/
def Limited (rate burst : K) (events : List K) : Prop :=
  ∀ s t, s ≤ t → (within s t events : K) ≤ burst + rate * (t - s)

/-- What is in the bucket and what was taken out since `s` is covered by its size and the refill
since `s`. -/
structure Accounts (rate burst tokens last : K) (events : List K) : Prop where
  nonneg : 0 ≤ tokens
  le_burst : tokens ≤ burst
  past : ∀ a ∈ events, a ≤ last
  covered : ∀ s, s ≤ last → (since s events : K) + tokens ≤ burst + rate * (last - s)

/-- Every event is paid for by the refill up to `now` alone, so that a full bucket may be put in
place. -/
structure Settled (rate now : K) (events : List K) : Prop where
  past : ∀ a ∈ events, a ≤ now
  covered : ∀ s, s ≤ now → (since s events : K) ≤ rate * (now - s)

theorem settled_nil (hrate : 0 ≤ rate) (now : K) : Settled rate now [] := by
  refine ⟨by simp, fun s hs => ?_⟩
  simpa [since] using mul_nonneg hrate (sub_nonneg.mpr hs)

theorem Settled.mono {now' : K} (hrate : 0 ≤ rate) (h : Settled rate now events)
    (hle : now ≤ now') : Settled rate now' events := by
  refine ⟨fun a ha => (h.past a ha).trans hle, fun s hs => ?_⟩
  by_cases hs' : s ≤ now
  · have := h.covered s hs'
    nlinarith [mul_nonneg hrate (sub_nonneg.mpr hle)]
  · rw [since_eq_zero fun a ha => (h.past a ha).trans_lt (not_le.mp hs')]
    simpa using mul_nonneg hrate (sub_nonneg.mpr hs)

/-- A full bucket. -/
theorem Settled.accounts (hburst : 0 ≤ burst) (h : Settled rate now events) :
    Accounts rate burst burst now events := by
  refine ⟨hburst, le_refl burst, h.past, fun s hs => ?_⟩
  have := h.covered s hs
  linarith

theorem Accounts.refill (hrate : 0 ≤ rate) (h : Accounts rate burst tokens last events)
    (hle : last ≤ now) :
    Accounts rate burst (min burst (tokens + (now - last) * rate)) now events := by
  have hgain : 0 ≤ (now - last) * rate := mul_nonneg (sub_nonneg.mpr hle) hrate
  have hburst : 0 ≤ burst := h.nonneg.trans h.le_burst
  refine ⟨le_min hburst (by linarith [h.nonneg]), min_le_left _ _,
    fun a ha => (h.past a ha).trans hle, fun s hs => ?_⟩
  by_cases hs' : s ≤ last
  · have hcovered := h.covered s hs'
    have hmin := min_le_right burst (tokens + (now - last) * rate)
    nlinarith
  · rw [since_eq_zero fun a ha => (h.past a ha).trans_lt (not_le.mp hs')]
    have hmin := min_le_left burst (tokens + (now - last) * rate)
    have hgain' := mul_nonneg hrate (sub_nonneg.mpr hs)
    push_cast
    linarith

theorem Accounts.take (h : Accounts rate burst tokens last events) (htoken : 1 ≤ tokens) :
    Accounts rate burst (tokens - 1) last (events ++ [last]) := by
  refine ⟨sub_nonneg.mpr htoken, by linarith [h.le_burst], ?_, fun s hs => ?_⟩
  · intro a ha
    rcases List.mem_append.mp ha with ha | ha
    · exact h.past a ha
    · exact (List.mem_singleton.mp ha).le
  · rw [since_append, if_pos hs]
    push_cast
    linarith [h.covered s hs]

/-- A token that is taken for nothing. -/
theorem Accounts.waste (h : Accounts rate burst tokens last events) (htoken : 1 ≤ tokens) :
    Accounts rate burst (tokens - 1) last events :=
  ⟨sub_nonneg.mpr htoken, by linarith [h.le_burst], h.past,
    fun s hs => by linarith [h.covered s hs]⟩

/-- An event that the bucket has paid for keeps every interval within its bound. -/
theorem Limited.append (hrate : 0 ≤ rate) (hlimited : Limited rate burst events)
    (h : Accounts rate burst tokens last (events ++ [last])) :
    Limited rate burst (events ++ [last]) := by
  intro s t hst
  by_cases ht : t < last
  · rw [within_append_of_lt ht]
    exact hlimited s t hst
  · have hle : last ≤ t := not_lt.mp ht
    by_cases hs : s ≤ last
    · have hcount : (within s t (events ++ [last]) : K) ≤ since s (events ++ [last]) := by
        exact_mod_cast within_le_since s t (events ++ [last])
      have hcovered := h.covered s hs
      have hlater := mul_le_mul_of_nonneg_left (sub_le_sub_right hle s) hrate
      linarith [h.nonneg]
    · have hnone : within s t (events ++ [last]) = 0 := by
        refine Nat.le_zero.mp ((within_le_since _ _ _).trans ?_)
        exact (since_eq_zero fun a ha => (h.past a ha).trans_lt (not_le.mp hs)).le
      have hburst : 0 ≤ burst := h.nonneg.trans h.le_burst
      have hgain := mul_nonneg hrate (sub_nonneg.mpr hst)
      rw [hnone]
      push_cast
      linarith

theorem limited_nil (hrate : 0 ≤ rate) (hburst : 0 ≤ burst) : Limited rate burst [] := by
  intro s t hst
  have hgain := mul_nonneg hrate (sub_nonneg.mpr hst)
  simp only [within, List.countP_nil, Nat.cast_zero]
  linarith

/-- A bucket that would have filled up by now is settled. -/
theorem Accounts.settled (hrate : 0 ≤ rate) (h : Accounts rate burst tokens last events)
    (hle : last ≤ now) (hfull : burst ≤ tokens + (now - last) * rate) :
    Settled rate now events := by
  refine ⟨fun a ha => (h.past a ha).trans hle, fun s hs => ?_⟩
  by_cases hs' : s ≤ last
  · have hcovered := h.covered s hs'
    have hsplit : rate * (now - s) = rate * (last - s) + (now - last) * rate := by ring
    linarith
  · rw [since_eq_zero fun a ha => (h.past a ha).trans_lt (not_le.mp hs')]
    simpa using mul_nonneg hrate (sub_nonneg.mpr hs)

end Lib.TokenBucket
