import Marty.Lib.Ranges
import Marty.Security.KeyAnomaly

/-! `_group_consecutive_hours`: the ranges cover exactly the hours, and none can be made longer. -/

namespace Marty.Security.KeyAnomaly

open Lib.Ranges

variable {start stop : Int} {hours : List Int}

/-- The open range begins every other range, or comes before it. -/
theorem le_of_mem_groupFrom (hle : start ≤ stop) (hlater : ∀ hour ∈ hours, stop < hour)
    (hsorted : hours.Pairwise (· < ·)) : ∀ r ∈ groupFrom start stop hours, start ≤ r.1 := by
  induction hours generalizing start stop with
  | nil =>
    intro r hr
    rw [List.mem_singleton.mp hr]
  | cons hour hours ih =>
    have hhour : stop < hour := hlater hour List.mem_cons_self
    obtain ⟨hnext, hrest⟩ := List.pairwise_cons.mp hsorted
    intro r hr
    unfold groupFrom at hr
    split at hr
    · exact ih (by omega) hnext hrest r hr
    · rcases List.mem_cons.mp hr with rfl | hr
      · exact le_rfl
      · exact (hle.trans hhour.le).trans (ih le_rfl hnext hrest r hr)

/-- Inside the loop, with an open range before the hours that are left. -/
theorem groupFrom_spec (hle : start ≤ stop) (hlater : ∀ hour ∈ hours, stop < hour)
    (hsorted : hours.Pairwise (· < ·)) :
    Separated (groupFrom start stop hours) ∧
      ∀ x, Covers (groupFrom start stop hours) x ↔ start ≤ x ∧ x ≤ stop ∨ x ∈ hours := by
  induction hours generalizing start stop with
  | nil =>
    refine ⟨.cons .nil hle (fun _ h => nomatch h), fun x => ?_⟩
    simp [groupFrom]
  | cons hour hours ih =>
    have hhour : stop < hour := hlater hour List.mem_cons_self
    obtain ⟨hnext, hrest⟩ := List.pairwise_cons.mp hsorted
    unfold groupFrom
    split
    case isTrue hconsecutive =>
      obtain ⟨hseparated, hcovers⟩ := ih (show start ≤ hour by omega) hnext hrest
      refine ⟨hseparated, fun x => ?_⟩
      rw [hcovers, List.mem_cons, ← or_assoc]
      refine or_congr_left ?_
      omega
    case isFalse hgap =>
      obtain ⟨hseparated, hcovers⟩ := ih (le_refl hour) hnext hrest
      refine ⟨hseparated.cons hle fun r hr => ?_, fun x => ?_⟩
      · have hfirst : hour ≤ r.1 := le_of_mem_groupFrom le_rfl hnext hrest r hr
        show stop + 1 < r.1
        omega
      · rw [covers_cons, hcovers, List.mem_cons, le_antisymm_iff, and_comm (a := x ≤ hour)]

theorem pairwise_lt_insertionSort (h : hours.Nodup) :
    (hours.insertionSort (· ≤ ·)).Pairwise (· < ·) := by
  have hnodup : (hours.insertionSort (· ≤ ·)).Nodup :=
    (List.perm_insertionSort _ _).nodup_iff.mpr h
  exact ((List.pairwise_insertionSort (· ≤ ·) hours).and hnodup).imp fun h => lt_of_le_of_ne h.1 h.2

theorem groupConsecutiveHours_separated (h : hours.Nodup) :
    Separated (groupConsecutiveHours hours) ∧
      ∀ x, Covers (groupConsecutiveHours hours) x ↔ x ∈ hours := by
  have hsorted := pairwise_lt_insertionSort h
  have hmem : ∀ x, x ∈ hours.insertionSort (· ≤ ·) ↔ x ∈ hours :=
    fun x => List.mem_insertionSort _
  unfold groupConsecutiveHours
  cases hs : hours.insertionSort (· ≤ ·) with
  | nil =>
    refine ⟨.nil, fun x => ?_⟩
    rw [← hmem, hs]
    exact iff_of_false not_covers_nil List.not_mem_nil
  | cons first rest =>
    rw [hs] at hsorted
    obtain ⟨hlater, hrest⟩ := List.pairwise_cons.mp hsorted
    obtain ⟨hseparated, hcovers⟩ := groupFrom_spec le_rfl hlater hrest
    refine ⟨hseparated, fun x => ?_⟩
    rw [hcovers, ← hmem, hs, List.mem_cons, le_antisymm_iff, and_comm (a := x ≤ first)]

/-- The ranges are in order, they cover the hours and nothing else, none can be extended at either
end, and none is empty. -/
theorem groupConsecutiveHours_spec (hours : List Int) (h : hours.Nodup) :
    (groupConsecutiveHours hours).Pairwise
        (fun r r' => r.2 < r'.1 ∧ ∃ x, r.2 < x ∧ x < r'.1 ∧ x ∉ hours) ∧
      (∀ x, (∃ r ∈ groupConsecutiveHours hours, r.1 ≤ x ∧ x ≤ r.2) ↔ x ∈ hours) ∧
      (∀ r ∈ groupConsecutiveHours hours, r.1 - 1 ∉ hours ∧ r.2 + 1 ∉ hours) ∧
      ∀ r ∈ groupConsecutiveHours hours, r.1 ≤ r.2 := by
  obtain ⟨hseparated, hcovers⟩ := groupConsecutiveHours_separated h
  refine ⟨?_, hcovers, fun r hr => ?_, hseparated.nonempty⟩
  · exact hseparated.increasing.imp fun ⟨hlt, x, hbefore, hafter, hx⟩ =>
      ⟨hlt, x, hbefore, hafter, fun h => hx ((hcovers x).mpr h)⟩
  · exact ⟨fun h => hseparated.not_covers_pred hr ((hcovers _).mpr h),
      fun h => hseparated.not_covers_succ hr ((hcovers _).mpr h)⟩

theorem groupConsecutiveHours_spec_night :
    (∃ r ∈ groupConsecutiveHours [23, 9, 8, 22, 10], r.1 ≤ 9 ∧ 9 ≤ r.2) ↔
      9 ∈ ([23, 9, 8, 22, 10] : List Int) :=
  (groupConsecutiveHours_spec [23, 9, 8, 22, 10] (by decide)).2.1 9

example : groupConsecutiveHours [23, 9, 8, 22, 10] = [(8, 10), (22, 23)] := by decide

end Marty.Security.KeyAnomaly
