import Mathlib.Data.String.Basic

/-! Texts that are joined from any number of parts, and the segments between the separators. -/

universe u

namespace Lib.Segments

variable {α : Type u} [DecidableEq α] {sep : α}

/-- The segments of the joined text are those of the parts. -/
theorem splitOn_intercalate {parts : List (List α)} (hne : parts ≠ []) :
    ([sep].intercalate parts).splitOn sep = parts.flatMap (·.splitOn sep) := by
  induction parts with
  | nil => exact absurd rfl hne
  | cons part parts ih =>
    cases parts with
    | nil => simp
    | cons next parts =>
      rw [List.intercalate_cons_cons, List.append_assoc, List.singleton_append,
        List.splitOn_append_cons_self, ih (List.cons_ne_nil _ _)]
      rfl

theorem intercalate_eq_iff {parts parts' : List (List α)} (hne : parts ≠ []) (hne' : parts' ≠ []) :
    [sep].intercalate parts = [sep].intercalate parts' ↔
      parts.flatMap (·.splitOn sep) = parts'.flatMap (·.splitOn sep) := by
  rw [← splitOn_intercalate hne, ← splitOn_intercalate hne']
  constructor
  · intro h
    rw [h]
  · intro h
    have hjoin : [sep].intercalate (([sep].intercalate parts).splitOn sep) =
        [sep].intercalate parts := List.intercalate_splitOn sep
    rw [← hjoin, h, List.intercalate_splitOn]

theorem flatMap_splitOn {parts : List (List α)} (h : ∀ part ∈ parts, sep ∉ part) :
    parts.flatMap (·.splitOn sep) = parts := by
  induction parts with
  | nil => rfl
  | cons part parts ih =>
    obtain ⟨hpart, hparts⟩ := List.forall_mem_cons.mp h
    rw [List.flatMap_cons, List.splitOn_eq_singleton hpart, ih hparts, List.singleton_append]

/-- The segments of strings. -/
def segments (sep : Char) (parts : List String) : List (List Char) :=
  parts.flatMap (·.toList.splitOn sep)

variable {c : Char} {parts parts' : List String}

theorem segments_cons (part : String) :
    segments c (part :: parts) = part.toList.splitOn c ++ segments c parts :=
  List.flatMap_cons

theorem join_eq_iff {s : String} (hs : s.toList = [c]) (hne : parts ≠ []) (hne' : parts' ≠ []) :
    s.intercalate parts = s.intercalate parts' ↔ segments c parts = segments c parts' := by
  rw [← String.toList_inj, String.toList_intercalate, String.toList_intercalate, hs,
    intercalate_eq_iff (by simpa using hne) (by simpa using hne'), segments, segments,
    List.flatMap_map, List.flatMap_map]

/-- Parts without a separator are their own segments. -/
theorem segments_eq_iff (h : ∀ part ∈ parts, c ∉ part.toList)
    (h' : ∀ part ∈ parts', c ∉ part.toList) :
    segments c parts = segments c parts' ↔ parts = parts' := by
  have hmap : ∀ {parts : List String}, (∀ part ∈ parts, c ∉ part.toList) →
      segments c parts = parts.map String.toList := by
    intro parts h
    rw [segments, ← List.flatMap_map]
    exact flatMap_splitOn (by simpa using h)
  rw [hmap h, hmap h']
  exact List.map_inj_right fun _ _ => String.toList_inj.mp

end Lib.Segments
