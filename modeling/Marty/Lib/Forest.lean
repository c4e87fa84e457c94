import Mathlib.Logic.Function.Basic
import Mathlib.Logic.Relation
import Mathlib.Order.Basic

/-! Forests that are kept as a table of nodes, each of which names its parent. -/

universe u v w

namespace Lib.Forest

variable {κ : Type u} {ν : Type v} {ρ : Type w} (parent : ν → Option κ)

/-- `a` is the parent of `b`. -/
def Edge (nodes : κ → Option ν) (a b : κ) : Prop := ∃ n, nodes b = some n ∧ parent n = some a

/-- The parent of every node is there. -/
def Closed (nodes : κ → Option ν) : Prop :=
  ∀ a b, Edge parent nodes a b → (nodes a).isSome

variable {parent} {nodes : κ → Option ν} {a b : κ} {n : ν}

/-- Where every node ranks above its parent there is no cycle. -/
theorem not_cycle [Preorder ρ] (rank : ν → ρ)
    (hrank : ∀ {b n a m}, nodes b = some n → parent n = some a → nodes a = some m →
      rank m < rank n) (hclosed : Closed parent nodes) (a : κ) :
    ¬ Relation.TransGen (Edge parent nodes) a a := by
  have hlt : ∀ {a b}, Relation.TransGen (Edge parent nodes) a b →
      ∀ {m n}, nodes a = some m → nodes b = some n → rank m < rank n := by
    intro a b h
    induction h with
    | single h =>
      intro m n hm hn
      obtain ⟨n', hn', hparent⟩ := h
      obtain rfl := Option.some.inj (hn'.symm.trans hn)
      exact hrank hn hparent hm
    | tail hpath h ih =>
      intro m n hm hn
      obtain ⟨k, hk⟩ := Option.isSome_iff_exists.mp (hclosed _ _ h)
      obtain ⟨n', hn', hparent⟩ := h
      obtain rfl := Option.some.inj (hn'.symm.trans hn)
      exact (ih hm hk).trans (hrank hn hparent hk)
  intro hcycle
  obtain ⟨n, hn⟩ : ∃ n, nodes a = some n := by
    cases Relation.TransGen.head'_iff.mp hcycle with
    | intro b h => exact Option.isSome_iff_exists.mp (hclosed _ _ h.1)
  exact lt_irrefl _ (hlt hcycle hn hn)

/-- A new node is nobody's parent. -/
theorem not_edge_of_none (hclosed : Closed parent nodes) (hnew : nodes a = none) :
    ¬ Edge parent nodes a b := by
  intro h
  have hsome := hclosed _ _ h
  rw [hnew] at hsome
  cases hsome

variable [DecidableEq κ]

/-- A new node adds the edge to its parent and no other. -/
theorem edge_update (hnew : nodes a = none) {p c : κ} :
    Edge parent (Function.update nodes a (some n)) p c ↔
      c = a ∧ parent n = some p ∨ Edge parent nodes p c := by
  by_cases hc : c = a
  · subst hc
    simp [Edge, hnew]
  · simp [Edge, hc]

/-- No node gets a second child when a new one goes under a node without children. -/
theorem single_update (hnew : nodes a = none)
    (hsingle : ∀ {p x y}, Edge parent nodes p x → Edge parent nodes p y → x = y)
    (hchildless : ∀ p, parent n = some p → ∀ c, ¬ Edge parent nodes p c) {p x y : κ}
    (hx : Edge parent (Function.update nodes a (some n)) p x)
    (hy : Edge parent (Function.update nodes a (some n)) p y) : x = y := by
  rcases (edge_update hnew).mp hx with ⟨rfl, hp⟩ | hxold
  · rcases (edge_update hnew).mp hy with ⟨rfl, -⟩ | hyold
    · rfl
    · exact absurd hyold (hchildless p hp y)
  · rcases (edge_update hnew).mp hy with ⟨rfl, hp⟩ | hyold
    · exact absurd hxold (hchildless p hp x)
    · exact hsingle hxold hyold

end Lib.Forest
