import Mathlib.Algebra.Order.Group.Defs
import Mathlib.Data.List.Basic

/-! Events in time, counted over intervals and sliding windows.  Events are listed in the order
in which they are added. -/

universe u

namespace Lib.Events

variable {K : Type u} [LinearOrder K] {s t now : K} {events : List K}

/-- The number of events at or after `s`. -/
def since (s : K) (events : List K) : ℕ := events.countP fun a => s ≤ a

/-- The number of events in the closed interval. -/
def within (s t : K) (events : List K) : ℕ := events.countP fun a => s ≤ a ∧ a ≤ t

theorem within_le_since (s t : K) (events : List K) : within s t events ≤ since s events :=
  List.countP_mono_left fun _ _ h => by simp_all

theorem since_anti (h : s ≤ t) (events : List K) : since t events ≤ since s events :=
  List.countP_mono_left fun _ _ ha => decide_eq_true (h.trans (of_decide_eq_true ha))

theorem since_eq_zero (h : ∀ a ∈ events, a < s) : since s events = 0 :=
  List.countP_eq_zero.mpr fun a ha => by simpa using h a ha

theorem since_append (s now : K) (events : List K) :
    since s (events ++ [now]) = since s events + if s ≤ now then 1 else 0 := by
  by_cases h : s ≤ now <;> simp [since, List.countP_append, h]

/-- An event after the interval does not count. -/
theorem within_append_of_lt (h : t < now) (s : K) (events : List K) :
    within s t (events ++ [now]) = within s t events := by
  simp [within, List.countP_append, h.not_ge]

/-- Where events are kept that lie at or after `bound`. -/
def Keeps (bound : K) (kept events : List K) : Prop :=
  ∀ y, bound ≤ y → kept.filter (y ≤ ·) = events.filter (y ≤ ·)

theorem Keeps.mono {bound bound' : K} {kept : List K} (h : Keeps bound kept events)
    (hle : bound ≤ bound') : Keeps bound' kept events :=
  fun y hy => h y (hle.trans hy)

theorem Keeps.append {bound : K} {kept : List K} (h : Keeps bound kept events) (now : K) :
    Keeps bound (kept ++ [now]) (events ++ [now]) := by
  intro y hy
  rw [List.filter_append, List.filter_append, h y hy]

theorem keeps_nil {bound : K} (h : ∀ a ∈ events, a < bound) : Keeps bound [] events := by
  intro y hy
  refine (List.filter_eq_nil_iff.mpr fun a ha => ?_).symm
  simpa using (h a ha).trans_le hy

theorem filter_dropWhile_of_le {bound y : K} (h : bound ≤ y) (kept : List K) :
    (kept.dropWhile (· < bound)).filter (y ≤ ·) = kept.filter (y ≤ ·) := by
  induction kept with
  | nil => rfl
  | cons a kept ih =>
    by_cases ha : a < bound
    · have hy : ¬ y ≤ a := (ha.trans_le h).not_ge
      simp [ha, hy, ih]
    · simp [ha]

/-- Dropping old events from the front loses none of the others. -/
theorem Keeps.dropWhile {bound bound' : K} {kept : List K} (h : Keeps bound kept events)
    (hle : bound ≤ bound') : Keeps bound' (kept.dropWhile (· < bound')) events := by
  intro y hy
  rw [filter_dropWhile_of_le hy, h y (hle.trans hy)]

theorem Keeps.since_eq {bound : K} {kept : List K} (h : Keeps bound kept events) (hs : bound ≤ s) :
    since s kept = since s events := by
  rw [since, since, List.countP_eq_length_filter, List.countP_eq_length_filter, h s hs]

section window

variable [AddCommGroup K] [IsOrderedAddMonoid K] {d : K} {n : ℕ}

/-- No closed window of length `d` holds more than `n` events. -/
def Sparse (d : K) (n : ℕ) (events : List K) : Prop := ∀ t, within (t - d) t events ≤ n

omit [IsOrderedAddMonoid K] in
theorem sparse_nil (d : K) (n : ℕ) : Sparse d n [] := fun _ => Nat.zero_le n

/-- A new event may be added when the window that it closes has room. -/
theorem Sparse.append (h : Sparse d n events) (hroom : since (now - d) events < n) :
    Sparse d n (events ++ [now]) := by
  intro t
  by_cases ht : t < now
  · rw [within_append_of_lt ht]
    exact h t
  · have hle : now - d ≤ t - d := sub_le_sub_right (not_lt.mp ht) d
    calc within (t - d) t (events ++ [now])
        ≤ since (t - d) (events ++ [now]) := within_le_since _ _ _
      _ ≤ since (now - d) (events ++ [now]) := since_anti hle _
      _ ≤ since (now - d) events + 1 := by
          rw [since_append]
          split <;> omega
      _ ≤ n := hroom

end window

end Lib.Events
