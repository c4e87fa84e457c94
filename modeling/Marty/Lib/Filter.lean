import Mathlib.Data.Option.Basic
import Mathlib.Tactic.Tauto

/-! List comprehensions whose test may raise: the first element that it raises on ends them. -/

universe u

namespace Lib

variable {α : Type u} {test : α → Option Bool} {l l' : List α} {a : α}

/-- A list comprehension whose test may raise. -/
def filter? (test : α → Option Bool) : List α → Option (List α)
  | [] => some []
  | a :: as =>
    (test a).bind fun keep => (filter? test as).map fun rest => if keep then a :: rest else rest

theorem mem_filter? (h : filter? test l = some l') : a ∈ l' ↔ a ∈ l ∧ test a = some true := by
  induction l generalizing l' with
  | nil =>
    obtain rfl := Option.some.inj h
    simp
  | cons b l ih =>
    obtain ⟨keep, hkeep, h⟩ := Option.bind_eq_some_iff.mp h
    obtain ⟨rest, hrest, rfl⟩ := Option.map_eq_some_iff.mp h
    cases keep with
    | false =>
      have hne : a = b → test a ≠ some true := by
        rintro rfl
        simp [hkeep]
      simp only [Bool.false_eq_true, if_false, ih hrest, List.mem_cons]
      tauto
    | true =>
      have heq : a = b → test a = some true := by
        rintro rfl
        exact hkeep
      simp only [if_true, List.mem_cons, ih hrest]
      tauto

theorem filter?_eq_none : filter? test l = none ↔ ∃ a ∈ l, test a = none := by
  induction l with
  | nil => simp [filter?]
  | cons a l ih => cases ha : test a <;> simp [filter?, ha, ih]

theorem filter?_ne_nil (h : filter? test l = some l') :
    l' ≠ [] ↔ ∃ a ∈ l, test a = some true := by
  constructor
  · intro hne
    obtain ⟨a, ha⟩ := List.exists_mem_of_ne_nil l' hne
    exact ⟨a, (mem_filter? h).mp ha⟩
  · rintro ⟨a, ha⟩
    exact List.ne_nil_of_mem ((mem_filter? h).mpr ha)

end Lib
