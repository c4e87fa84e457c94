import Mathlib.Data.List.Basic

/-! A pool of processes: a list of their states, addressed by index. -/

universe u

namespace Lib.Pool

variable {α : Type u} {pool : List α} {i : Nat} {a b : α}

theorem lt_length (h : pool[i]? = some a) : i < pool.length :=
  (List.getElem?_eq_some_iff.mp h).1

/-- The count of a class of states, when one process moves from `a` to `b`. -/
theorem countP_set (h : pool[i]? = some a) (b : α) (p : α → Bool) :
    (pool.set i b).countP p + (if p a then 1 else 0) =
      pool.countP p + (if p b then 1 else 0) := by
  obtain ⟨hi, rfl⟩ := List.getElem?_eq_some_iff.mp h
  rw [List.countP_set hi]
  have hle : (if p pool[i] then 1 else 0) ≤ pool.countP p := List.boole_getElem_le_countP hi
  omega

/-- What the move of one process leaves as it was. -/
theorem map_set {β : Type u} (h : pool[i]? = some a) {f : α → β} (hf : f b = f a) :
    (pool.set i b).map f = pool.map f := by
  obtain ⟨hi, rfl⟩ := List.getElem?_eq_some_iff.mp h
  have hlt : i < (pool.map f).length := by simpa using hi
  have hget : (pool.map f)[i] = f b := by rw [List.getElem_map, hf]
  rw [List.map_set, ← hget, List.set_getElem_self]

/-- After one process has moved, a process is the one that moved or an old one. -/
theorem getElem?_set_cases {j : Nat} {c : α} (h : (pool.set i b)[j]? = some c) :
    j = i ∧ c = b ∨ j ≠ i ∧ pool[j]? = some c := by
  by_cases hj : j = i
  · subst hj
    obtain ⟨hlt, h⟩ := List.getElem?_eq_some_iff.mp h
    exact .inl ⟨rfl, by simpa using h.symm⟩
  · rw [List.getElem?_set_ne (Ne.symm hj)] at h
    exact .inr ⟨hj, h⟩

theorem getElem?_set_self (h : pool[i]? = some a) (b : α) : (pool.set i b)[i]? = some b :=
  List.getElem?_set_self (lt_length h)

theorem getElem?_append_old (h : pool[i]? = some a) (b : α) : (pool ++ [b])[i]? = some a :=
  (List.getElem?_append_left (lt_length h)).trans h

/-- After a process has joined, a process is the new one or an old one. -/
theorem getElem?_append_cases {j : Nat} {c : α} (h : (pool ++ [b])[j]? = some c) :
    j = pool.length ∧ c = b ∨ pool[j]? = some c := by
  by_cases hj : j < pool.length
  · rw [List.getElem?_append_left hj] at h
    exact .inr h
  · rw [List.getElem?_append_right (Nat.le_of_not_lt hj), List.getElem?_singleton] at h
    split at h
    case isTrue hzero => exact .inl ⟨by omega, (Option.some.inj h).symm⟩
    case isFalse => cases h

end Lib.Pool
