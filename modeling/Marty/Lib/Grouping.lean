import Mathlib.Data.List.Perm.Basic
import Marty.Lib.Dict

/-! Dictionaries of lists: each item is appended to the list of its key. -/

universe u v

namespace Lib.Grouping

variable {α : Type u} {κ : Type v} [DecidableEq κ]

/-- `d[key(x)].append(x)`, where a missing list is empty. -/
def insert (key : α → κ) (x : α) (d : List (κ × List α)) : List (κ × List α) :=
  Dict.set (key x) ((d.lookup (key x)).getD [] ++ [x]) d

/-- The lists have the items under their keys, each in the order in which they came, and all of
them together have all of the items. -/
structure Groups (key : α → κ) (d : List (κ × List α)) (items : List α) : Prop where
  lookup : ∀ k, (d.lookup k).getD [] = items.filter (key · = k)
  perm : (d.flatMap (·.2)).Perm items

theorem perm_flatMap_set (k : κ) (x : α) (d : List (κ × List α)) :
    ((Dict.set k ((d.lookup k).getD [] ++ [x]) d).flatMap (·.2)).Perm (d.flatMap (·.2) ++ [x]) := by
  induction d with
  | nil => exact List.Perm.refl _
  | cons entry d ih =>
    obtain ⟨k', xs⟩ := entry
    by_cases h : k' = k
    · subst h
      rw [List.lookup_cons_self, Option.getD_some, Dict.set, if_pos rfl, List.flatMap_cons,
        List.flatMap_cons, List.append_assoc, List.append_assoc]
      exact List.perm_append_comm.append_left xs
    · rw [List.lookup_cons, beq_false_of_ne (Ne.symm h), Dict.set, if_neg h, List.flatMap_cons,
        List.flatMap_cons, List.append_assoc]
      exact ih.append_left xs

namespace Groups

variable {key : α → κ} {d : List (κ × List α)} {items : List α}

theorem nil : Groups key [] [] := ⟨fun _ => rfl, List.Perm.refl _⟩

theorem insert (h : Groups key d items) (x : α) :
    Groups key (Grouping.insert key x d) (items ++ [x]) where
  lookup := by
    intro k
    rw [Grouping.insert, List.filter_append, ← h.lookup k]
    by_cases hk : k = key x
    · rw [hk, Dict.lookup_set_self]
      simp
    · rw [Dict.lookup_set_of_ne hk]
      simp [Ne.symm hk]
  perm := (perm_flatMap_set (key x) x d).trans (h.perm.append_right [x])

end Groups

end Lib.Grouping
