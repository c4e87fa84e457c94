import Mathlib.Data.Fintype.Card
import Mathlib.Logic.Relation

/-! Chains of links, each of which names at most one further link. -/

universe u

namespace Lib.Chain

variable {α : Type u} (next : α → Option α)

/-- The links from the first one to the last, where there are at most as many as the number. -/
def follow : Nat → α → Option (List α)
  | 0, _ => none
  | n + 1, a =>
    match next a with
    | none => some [a]
    | some b => (follow n b).map (a :: ·)

def Next (a b : α) : Prop := next a = some b

/-- The chain comes back to one of its links. -/
def Cyclic (a : α) : Prop :=
  ∃ b, Relation.ReflTransGen (Next next) a b ∧ Relation.TransGen (Next next) b b

variable {next} {a b : α} {n : Nat}

theorem not_cyclic_of_last (h : next a = none) : ¬ Cyclic next a := by
  have hlast : ∀ b, ¬ Next next a b := by
    intro b hb
    rw [Next, h] at hb
    cases hb
  rintro ⟨b, hpath, hcycle⟩
  rcases Relation.ReflTransGen.cases_head hpath with rfl | ⟨c, hc, -⟩
  · obtain ⟨c, hc, -⟩ := Relation.TransGen.head'_iff.mp hcycle
    exact hlast c hc
  · exact hlast c hc

theorem cyclic_iff_of_next (h : next a = some b) : Cyclic next a ↔ Cyclic next b := by
  constructor
  · rintro ⟨c, hpath, hcycle⟩
    rcases Relation.ReflTransGen.cases_head hpath with rfl | ⟨d, hd, hrest⟩
    · -- The first link itself is the one that is come back to.
      obtain ⟨d, hd, hback⟩ := Relation.TransGen.head'_iff.mp hcycle
      obtain rfl := Option.some.inj (h.symm.trans hd)
      exact ⟨_, hback, hcycle⟩
    · obtain rfl := Option.some.inj (h.symm.trans hd)
      exact ⟨c, hrest, hcycle⟩
  · rintro ⟨c, hpath, hcycle⟩
    exact ⟨c, .head h hpath, hcycle⟩

theorem not_cyclic_of_follow {links : List α} (h : follow next n a = some links) :
    ¬ Cyclic next a := by
  induction n generalizing a links with
  | zero => cases h
  | succ n ih =>
    rw [follow] at h
    split at h
    case h_1 hlast => exact not_cyclic_of_last hlast
    case h_2 b hnext =>
      obtain ⟨rest, hrest, -⟩ := Option.map_eq_some_iff.mp h
      rw [cyclic_iff_of_next hnext]
      exact ih hrest

/-- A chain within a finite set that does not come back to a link has an end, and no more links
than the set has members. -/
theorem exists_follow {s : Finset α} (hs : ∀ b, Relation.ReflTransGen (Next next) a b → b ∈ s)
    (hn : s.card ≤ n) (h : ¬ Cyclic next a) : ∃ links, follow next n a = some links := by
  classical
  induction n generalizing s a with
  | zero =>
    rw [Finset.card_eq_zero.mp (Nat.le_zero.mp hn)] at hs
    exact absurd (hs a .refl) (Finset.notMem_empty a)
  | succ n ih =>
    rw [follow]
    cases hnext : next a with
    | none => exact ⟨_, rfl⟩
    | some b =>
      have hmem : a ∈ s := hs a .refl
      have hrest : ∀ c, Relation.ReflTransGen (Next next) b c → c ∈ s.erase a := by
        intro c hc
        refine Finset.mem_erase.mpr ⟨?_, hs c (.head hnext hc)⟩
        rintro rfl
        exact h ⟨_, .refl, Relation.TransGen.head' hnext hc⟩
      have hcard : (s.erase a).card ≤ n := by
        rw [Finset.card_erase_of_mem hmem]
        omega
      obtain ⟨links, hlinks⟩ := ih hrest hcard (by rwa [← cyclic_iff_of_next hnext])
      exact ⟨a :: links, by simp [hlinks]⟩

/-- A chain over a finite type has an end exactly when it does not come back. -/
theorem follow_card_iff [Fintype α] :
    (∃ links, follow next (Fintype.card α) a = some links) ↔ ¬ Cyclic next a :=
  ⟨fun ⟨_, h⟩ => not_cyclic_of_follow h,
    exists_follow (s := Finset.univ) (fun _ _ => Finset.mem_univ _) Finset.card_univ.le⟩

end Lib.Chain
