import Mathlib.Data.List.Lookmap
import Mathlib.Logic.Function.Basic

/-! Dictionaries: in insertion order, as lists of pairs, and as functions. -/

universe u v

namespace Lib.Dict

variable {α : Type u} {β : Type v} [DecidableEq α]

/-- `d[key] = value`: a key that is present keeps its place. -/
def set (key : α) (value : β) : List (α × β) → List (α × β)
  | [] => [(key, value)]
  | entry :: d => if entry.1 = key then (key, value) :: d else entry :: set key value d

theorem mem_set {key : α} {value : β} {d : List (α × β)} {entry : α × β}
    (h : entry ∈ set key value d) : entry = (key, value) ∨ entry ∈ d := by
  induction d with
  | nil => exact .inl (List.mem_singleton.mp h)
  | cons old d ih =>
    unfold set at h
    split at h
    · exact (List.mem_cons.mp h).imp_right (List.mem_cons_of_mem old)
    · rcases List.mem_cons.mp h with rfl | h
      · exact .inr List.mem_cons_self
      · exact (ih h).imp_right (List.mem_cons_of_mem old)

theorem mem_of_lookup {key : α} {value : β} {d : List (α × β)} (h : d.lookup key = some value) :
    (key, value) ∈ d := by
  obtain ⟨before, after, rfl, -⟩ := List.lookup_eq_some_iff.mp h
  simp

theorem lookup_ne_none {key : α} {d : List (α × β)} :
    d.lookup key ≠ none ↔ key ∈ d.map (·.1) := by
  rw [Ne, List.lookup_eq_none_iff, List.mem_map, not_forall]
  refine exists_congr fun entry => ?_
  rw [Classical.not_imp, bne_iff_ne, Ne, not_not]
  exact and_congr_right fun _ => eq_comm

theorem lookup_set_self (key : α) (value : β) (d : List (α × β)) :
    (set key value d).lookup key = some value := by
  induction d with
  | nil => simp [set]
  | cons entry d ih =>
    obtain ⟨k, v⟩ := entry
    by_cases h : k = key
    · simp [set, h]
    · have hne : (key == k) = false := beq_false_of_ne fun e => h e.symm
      simp [set, h, List.lookup_cons, hne, ih]

theorem lookup_set_of_ne {key key' : α} (hne : key' ≠ key) (value : β) (d : List (α × β)) :
    (set key value d).lookup key' = d.lookup key' := by
  have hkey : (key' == key) = false := beq_false_of_ne hne
  induction d with
  | nil => simp [set, List.lookup_cons, hkey]
  | cons entry d ih =>
    obtain ⟨k, v⟩ := entry
    by_cases h : k = key
    · simp [set, h, List.lookup_cons, hkey]
    · simp [set, h, List.lookup_cons, ih]

/-- The dictionary after `d.pop(key, None)`. -/
def delete (key : α) (d : List (α × β)) : List (α × β) := d.filter (·.1 ≠ key)

theorem lookup_delete_self (key : α) (d : List (α × β)) : (delete key d).lookup key = none := by
  refine List.lookup_eq_none_iff.mpr fun entry hentry => bne_iff_ne.mpr fun heq => ?_
  exact of_decide_eq_true (List.mem_filter.mp hentry).2 heq.symm

theorem lookup_delete_of_ne {key key' : α} (hne : key' ≠ key) (d : List (α × β)) :
    (delete key d).lookup key' = d.lookup key' := by
  induction d with
  | nil => rfl
  | cons entry d ih =>
    obtain ⟨k, v⟩ := entry
    by_cases hk : k = key
    · have hkey : (key' == k) = false := beq_false_of_ne fun e => hne (e.trans hk)
      rw [List.lookup_cons, hkey, ← ih]
      simp [delete, hk]
    · have hcons : delete key ((k, v) :: d) = (k, v) :: delete key d := by simp [delete, hk]
      rw [hcons, List.lookup_cons, List.lookup_cons, ih]

/-- `d.update(entries)` -/
def updated (d entries : List (α × β)) : List (α × β) :=
  entries.foldl (fun d entry => set entry.1 entry.2 d) d

theorem lookup_updated {d entries : List (α × β)} {key : α} (h : (entries.map (·.1)).Nodup) :
    (updated d entries).lookup key = (entries.lookup key).or (d.lookup key) := by
  induction entries generalizing d with
  | nil => rfl
  | cons entry entries ih =>
    obtain ⟨k, v⟩ := entry
    obtain ⟨hk, hnodup⟩ := List.nodup_cons.mp h
    have hrest : (updated d ((k, v) :: entries)).lookup key =
        (entries.lookup key).or ((set k v d).lookup key) := ih hnodup
    by_cases hkey : key = k
    · subst hkey
      have hnone : entries.lookup key = none := by
        refine List.lookup_eq_none_iff.mpr fun e he => bne_iff_ne.mpr ?_
        rintro rfl
        exact hk (List.mem_map.mpr ⟨e, he, rfl⟩)
      rw [hrest, hnone, lookup_set_self]
      simp
    · rw [hrest, lookup_set_of_ne hkey, List.lookup_cons, beq_false_of_ne hkey]

theorem set_of_notMem {key : α} (value : β) {d : List (α × β)} (h : key ∉ d.map (·.1)) :
    set key value d = d ++ [(key, value)] := by
  induction d with
  | nil => rfl
  | cons entry d ih =>
    rw [List.map_cons, List.mem_cons, not_or] at h
    rw [set, if_neg fun heq => h.1 heq.symm, ih h.2]
    rfl

/-- Distinct keys are kept in their order. -/
theorem updated_eq_append {d entries : List (α × β)} (h : ((d ++ entries).map (·.1)).Nodup) :
    updated d entries = d ++ entries := by
  induction entries generalizing d with
  | nil => simp [updated]
  | cons entry entries ih =>
    have hkey : entry.1 ∉ d.map (·.1) := by
      rw [List.map_append, List.map_cons, List.nodup_append] at h
      intro hmem
      exact h.2.2 _ hmem _ List.mem_cons_self rfl
    calc
      updated d (entry :: entries) = updated (d ++ [entry]) entries := by
        rw [← set_of_notMem entry.2 hkey]
        rfl
      _ = d ++ [entry] ++ entries := ih (by simpa using h)
      _ = d ++ entry :: entries := by simp

theorem map_fst_set {key : α} (value : β) {d : List (α × β)} (h : key ∈ d.map (·.1)) :
    (set key value d).map (·.1) = d.map (·.1) := by
  induction d with
  | nil => cases h
  | cons entry d ih =>
    by_cases heq : entry.1 = key
    · simp [set, heq]
    · simp [set, heq, ih ((List.mem_cons.mp h).resolve_left fun he => heq he.symm)]

section map

variable {γ : Type v} (f : β → γ)

theorem lookup_map_snd (key : α) (d : List (α × β)) :
    (d.map fun entry => (entry.1, f entry.2)).lookup key = (d.lookup key).map f := by
  induction d with
  | nil => rfl
  | cons entry d ih =>
    obtain ⟨k, v⟩ := entry
    rw [List.map_cons, List.lookup_cons, List.lookup_cons, ih]
    cases key == k <;> rfl

theorem map_snd_set (key : α) (value : β) (d : List (α × β)) :
    (set key value d).map (fun entry => (entry.1, f entry.2)) =
      set key (f value) (d.map fun entry => (entry.1, f entry.2)) := by
  induction d with
  | nil => rfl
  | cons entry d ih =>
    by_cases h : entry.1 = key
    · simp [set, h]
    · simp [set, h, ih]

end map

theorem nodup_set {key : α} (value : β) {d : List (α × β)} (h : (d.map (·.1)).Nodup) :
    ((set key value d).map (·.1)).Nodup := by
  by_cases hkey : key ∈ d.map (·.1)
  · rwa [map_fst_set value hkey]
  · rw [set_of_notMem value hkey, List.map_append, List.nodup_append]
    refine ⟨h, by simp, fun k hk k' hk' => ?_⟩
    obtain rfl : k' = key := List.mem_singleton.mp hk'
    rintro rfl
    exact hkey hk

theorem nodup_updated {d entries : List (α × β)} (h : (d.map (·.1)).Nodup) :
    ((updated d entries).map (·.1)).Nodup := by
  induction entries generalizing d with
  | nil => exact h
  | cons entry entries ih => exact ih (nodup_set entry.2 h)

theorem mem_updated {d entries : List (α × β)} {entry : α × β} (h : entry ∈ updated d entries) :
    entry ∈ entries ∨ entry ∈ d := by
  induction entries generalizing d with
  | nil => exact .inr h
  | cons old entries ih =>
    rcases ih h with h | h
    · exact .inl (List.mem_cons_of_mem old h)
    · rcases mem_set h with rfl | h
      · exact .inl List.mem_cons_self
      · exact .inr h

theorem mem_iff_lookup {d : List (α × β)} (h : (d.map (·.1)).Nodup) {key : α} {value : β} :
    (key, value) ∈ d ↔ d.lookup key = some value := by
  refine ⟨fun hmem => ?_, mem_of_lookup⟩
  obtain ⟨before, after, rfl⟩ := List.mem_iff_append.mp hmem
  refine List.lookup_eq_some_iff.mpr ⟨before, after, rfl, fun entry hentry => ?_⟩
  rw [List.map_append, List.nodup_append] at h
  exact bne_iff_ne.mpr fun heq => h.2.2 _ (List.mem_map_of_mem hentry) key (by simp) heq.symm

theorem lookup_map {γ : Type v} (f : α → β → γ) (key : α) (d : List (α × β)) :
    (d.map fun entry => (entry.1, f entry.1 entry.2)).lookup key = (d.lookup key).map (f key) := by
  induction d with
  | nil => rfl
  | cons entry d ih =>
    obtain ⟨k, v⟩ := entry
    rw [List.map_cons, List.lookup_cons, List.lookup_cons, ih]
    by_cases hk : key = k
    · simp [hk]
    · simp [beq_false_of_ne hk]

section functions

variable {d : α → Option β} {key key' : α} {value : Option β} {entry : β}

/-- After an update an entry is the new one or an old one. -/
theorem update_eq_some (h : Function.update d key value key' = some entry) :
    key' = key ∧ value = some entry ∨ d key' = some entry := by
  by_cases hkey : key' = key
  · subst hkey
    exact .inl ⟨rfl, by rwa [Function.update_self] at h⟩
  · exact .inr (by rwa [Function.update_of_ne hkey] at h)

theorem of_delete_eq_some (h : Function.update d key none key' = some entry) :
    d key' = some entry := by
  rcases update_eq_some h with ⟨-, h⟩ | h
  · cases h
  · exact h

end functions

end Lib.Dict
