import Mathlib.Data.List.Basic

/-! Lists of ranges of integers, with both ends in.  When the ranges are in order and a gap is
between any two of them, each is as long as what the list covers allows. -/

namespace Lib.Ranges

def Covers (ranges : List (Int × Int)) (x : Int) : Prop := ∃ r ∈ ranges, r.1 ≤ x ∧ x ≤ r.2

structure Separated (ranges : List (Int × Int)) : Prop where
  nonempty : ∀ r ∈ ranges, r.1 ≤ r.2
  gaps : ranges.Pairwise fun r r' => r.2 + 1 < r'.1

variable {ranges : List (Int × Int)} {r r' : Int × Int} {x : Int}

@[simp] theorem not_covers_nil : ¬Covers [] x := fun h => by
  obtain ⟨_, hr, _⟩ := h
  cases hr

@[simp] theorem covers_cons : Covers (r :: ranges) x ↔ r.1 ≤ x ∧ x ≤ r.2 ∨ Covers ranges x := by
  simp only [Covers, List.exists_mem_cons_iff]

namespace Separated

theorem nil : Separated [] where
  nonempty _ h := nomatch h
  gaps := .nil

theorem cons (h : Separated ranges) (hr : r.1 ≤ r.2) (hgap : ∀ r' ∈ ranges, r.2 + 1 < r'.1) :
    Separated (r :: ranges) :=
  ⟨List.forall_mem_cons.mpr ⟨hr, h.nonempty⟩, .cons hgap h.gaps⟩

/-- Two ranges of the list are one and the same, or a gap is between them. -/
theorem eq_or_gap (h : Separated ranges) (hr : r ∈ ranges) (hr' : r' ∈ ranges) :
    r = r' ∨ r.2 + 1 < r'.1 ∨ r'.2 + 1 < r.1 := by
  obtain ⟨i, hi, rfl⟩ := List.mem_iff_getElem.mp hr
  obtain ⟨j, hj, rfl⟩ := List.mem_iff_getElem.mp hr'
  have hgaps := List.pairwise_iff_getElem.mp h.gaps
  rcases Nat.lt_trichotomy i j with hlt | rfl | hgt
  · exact .inr (.inl (hgaps i j hi hj hlt))
  · exact .inl rfl
  · exact .inr (.inr (hgaps j i hj hi hgt))

/-- A range ends where the list stops to cover. -/
theorem not_covers_succ (h : Separated ranges) (hr : r ∈ ranges) : ¬Covers ranges (r.2 + 1) := by
  intro hcovers
  obtain ⟨r', hr', hle, hge⟩ := hcovers
  have hnonempty := h.nonempty r hr
  obtain rfl | hgap | hgap := h.eq_or_gap hr hr'
  · omega
  · omega
  · omega

/-- A range begins where the list starts to cover. -/
theorem not_covers_pred (h : Separated ranges) (hr : r ∈ ranges) : ¬Covers ranges (r.1 - 1) := by
  intro hcovers
  obtain ⟨r', hr', hle, hge⟩ := hcovers
  have hnonempty := h.nonempty r hr
  obtain rfl | hgap | hgap := h.eq_or_gap hr hr'
  · omega
  · omega
  · omega

/-- The ranges are in increasing order, with something between them that is not covered. -/
theorem increasing (h : Separated ranges) :
    ranges.Pairwise fun r r' => r.2 < r'.1 ∧ ∃ x, r.2 < x ∧ x < r'.1 ∧ ¬Covers ranges x := by
  refine h.gaps.imp_of_mem fun {r r'} hr _ hgap => ⟨by omega, r.2 + 1, by omega, hgap, ?_⟩
  exact h.not_covers_succ hr

end Separated

end Lib.Ranges
