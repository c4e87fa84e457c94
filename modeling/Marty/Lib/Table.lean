import Mathlib.Data.List.Nodup

/-! Tables with a primary key, as lists of rows with pairwise distinct keys. -/

universe u v w

namespace Lib.Table

variable {α : Type u} {κ : Type v} [DecidableEq κ] {key : α → κ} {rows : List α} {a b : α}

/-- Write back the row with the key of `a`. -/
def update (key : α → κ) (a : α) (rows : List α) : List α :=
  rows.map fun b => if key b = key a then a else b

def delete (key : α → κ) (k : κ) (rows : List α) : List α := rows.filter fun b => key b ≠ k

/-- Change the row with a key in place. -/
def modify (key : α → κ) (k : κ) (f : α → α) (rows : List α) : List α :=
  rows.map fun b => if key b = k then f b else b

theorem map_modify {β : Type w} {g : α → β} {k : κ} {f : α → α}
    (hf : ∀ b ∈ rows, key b = k → g (f b) = g b) : (modify key k f rows).map g = rows.map g := by
  rw [modify, List.map_map]
  refine List.map_congr_left fun b hb => ?_
  simp only [Function.comp]
  split
  case isTrue hk => exact hf b hb hk
  case isFalse => rfl

theorem map_key_modify {k : κ} {f : α → α} (hf : ∀ b, key (f b) = key b) :
    (modify key k f rows).map key = rows.map key := map_modify fun b _ _ => hf b

theorem nodup_modify {k : κ} {f : α → α} (hf : ∀ b, key (f b) = key b)
    (h : (rows.map key).Nodup) : ((modify key k f rows).map key).Nodup := by
  rwa [map_key_modify hf]

theorem mem_modify {k : κ} {f : α → α} :
    a ∈ modify key k f rows ↔
      (∃ b ∈ rows, key b = k ∧ a = f b) ∨ a ∈ rows ∧ key a ≠ k := by
  simp only [modify, List.mem_map]
  constructor
  · rintro ⟨b, hb, rfl⟩
    split
    case isTrue hk => exact .inl ⟨b, hb, hk, rfl⟩
    case isFalse hk => exact .inr ⟨hb, hk⟩
  · rintro (⟨b, hb, hk, rfl⟩ | ⟨ha, hk⟩)
    · exact ⟨b, hb, if_pos hk⟩
    · exact ⟨a, ha, if_neg hk⟩

def get (key : α → κ) (k : κ) (rows : List α) : Option α := rows.find? (key · = k)

/-- Change the row with a key, or add one. -/
def upsert (key : α → κ) (k : κ) (new : α) (f : α → α) (rows : List α) : List α :=
  match get key k rows with
  | none => rows ++ [new]
  | some _ => modify key k f rows

/-- A row with a key that is not in use is added. -/
theorem upsert_of_notMem {k : κ} {f : α → α} (h : k ∉ rows.map key) :
    upsert key k a f rows = rows ++ [a] := by
  have hfree : get key k rows = none := by
    simpa [get] using h
  rw [upsert, hfree]

omit [DecidableEq κ] in
theorem nodup_append_singleton (hnodup : (rows.map key).Nodup) (h : key a ∉ rows.map key) :
    ((rows ++ [a]).map key).Nodup := by
  rw [List.map_append, List.map_singleton, ← List.concat_eq_append]
  exact hnodup.concat h

/-- A row takes the place of the one with its key. -/
theorem nodup_upsert_const {k : κ} (ha : key a = k) (h : (rows.map key).Nodup) :
    ((upsert key k a (fun _ => a) rows).map key).Nodup := by
  by_cases hk : k ∈ rows.map key
  · obtain ⟨b, hb⟩ : ∃ b, get key k rows = some b := by
      simpa [get, ← Option.isSome_iff_exists] using hk
    rw [upsert, hb]
    change ((modify key k (fun _ => a) rows).map key).Nodup
    rwa [map_modify fun b _ hkey => ha.trans hkey.symm]
  · rw [upsert_of_notMem hk]
    exact nodup_append_singleton h (ha ▸ hk)

theorem key_of_get {k : κ} (h : get key k rows = some a) : key a = k := by
  simpa using List.find?_some h

section

variable {k k' : κ} {f : α → α} (hf : ∀ b, key (f b) = key b)
include hf

theorem get_modify : get key k' (modify key k f rows) =
    (get key k' rows).map fun b => if key b = k then f b else b := by
  rw [get, modify, List.find?_map, get]
  congr 2
  funext b
  simp only [Function.comp]
  split
  · rw [hf]
  · rfl

theorem get_modify_self : get key k (modify key k f rows) = (get key k rows).map f := by
  rw [get_modify hf]
  cases h : get key k rows with
  | none => rfl
  | some b => simp [key_of_get h]

theorem get_modify_of_ne (hne : k' ≠ k) : get key k' (modify key k f rows) = get key k' rows := by
  rw [get_modify hf]
  cases h : get key k' rows with
  | none => rfl
  | some b => simp [key_of_get h, hne]

theorem get_upsert_self (ha : key a = k) :
    get key k (upsert key k a f rows) = some (((get key k rows).map f).getD a) := by
  unfold upsert
  split
  case h_1 h =>
    have hfind : rows.find? (key · = k) = none := h
    rw [h]
    simp [get, List.find?_append, hfind, ha]
  case h_2 b h => simp [get_modify_self hf, h]

theorem get_upsert_of_ne (ha : key a = k) (hne : k' ≠ k) :
    get key k' (upsert key k a f rows) = get key k' rows := by
  unfold upsert
  split
  case h_1 => simp [get, List.find?_append, ha, hne.symm]
  case h_2 => exact get_modify_of_ne hf hne

theorem nodup_upsert (ha : key a = k) (h : (rows.map key).Nodup) :
    ((upsert key k a f rows).map key).Nodup := by
  unfold upsert
  split
  case h_1 hnone =>
    have hfree : k ∉ rows.map key := by
      simpa [get] using hnone
    exact nodup_append_singleton h (ha ▸ hfree)
  case h_2 => exact nodup_modify hf h

end

theorem map_key_update : (update key a rows).map key = rows.map key := by
  rw [update, List.map_map]
  refine List.map_congr_left fun b _ => ?_
  simp only [Function.comp]
  split
  · next h => exact h.symm
  · rfl

theorem mem_update_of_ne (hb : b ∈ rows) (hne : key b ≠ key a) : b ∈ update key a rows :=
  List.mem_map.mpr ⟨b, hb, if_neg hne⟩

theorem mem_delete_of_ne {k : κ} (hb : b ∈ rows) (hne : key b ≠ k) : b ∈ delete key k rows :=
  List.mem_filter.mpr ⟨hb, by simpa using hne⟩

theorem nodup_delete {k : κ} (hnodup : (rows.map key).Nodup) :
    ((delete key k rows).map key).Nodup :=
  hnodup.sublist (List.filter_sublist.map key)

theorem update_of_forall_ne (h : ∀ c ∈ rows, key c ≠ key a) : update key a rows = rows := by
  conv_rhs => rw [← List.map_id rows]
  exact List.map_congr_left fun c hc => if_neg (h c hc)

theorem delete_of_forall_ne {k : κ} (h : ∀ c ∈ rows, key c ≠ k) : delete key k rows = rows :=
  List.filter_eq_self.mpr fun c hc => by simpa using h c hc

section filter

variable {p : α → Bool} (hnodup : (rows.map key).Nodup) (hb : b ∈ rows)
include hnodup hb

omit [DecidableEq κ] in
theorem key_ne_of_mem_filter {c : α} (hp : p b = false) (hc : c ∈ rows.filter p) :
    key c ≠ key b := by
  intro h
  obtain ⟨hmem, hpc⟩ := List.mem_filter.mp hc
  rw [List.inj_on_of_nodup_map hnodup hmem hb h, hp] at hpc
  cases hpc

/-- Writing back a row commutes with a selection that does not see the difference. -/
theorem filter_update (hkey : key a = key b) (hp : p a = p b) :
    (update key a rows).filter p = update key a (rows.filter p) := by
  rw [update, List.filter_map, update]
  congr 1
  refine List.filter_congr fun c hc => ?_
  simp only [Function.comp]
  split
  · next h => rw [hp, List.inj_on_of_nodup_map hnodup hc hb (h.trans hkey)]
  · rfl

theorem filter_update_of_not (hkey : key a = key b) (ha : p a = false) (hp : p b = false) :
    (update key a rows).filter p = rows.filter p := by
  rw [filter_update hnodup hb hkey (ha.trans hp.symm)]
  exact update_of_forall_ne fun c hc => hkey ▸ key_ne_of_mem_filter hnodup hb hp hc

theorem filter_update_of_eq_singleton (hkey : key a = key b) (ha : p a = true)
    (h : rows.filter p = [b]) : (update key a rows).filter p = [a] := by
  have hp : p b = true := (List.mem_filter.mp (h ▸ List.mem_singleton_self b)).2
  rw [filter_update hnodup hb hkey (ha.trans hp.symm), h]
  simp [update, hkey]

theorem filter_delete_of_not (hp : p b = false) :
    (delete key (key b) rows).filter p = rows.filter p := by
  rw [delete, List.filter_comm]
  exact delete_of_forall_ne fun c hc => key_ne_of_mem_filter hnodup hb hp hc

end filter

theorem filter_delete_of_eq_singleton {p : α → Bool} (h : rows.filter p = [b]) :
    (delete key (key b) rows).filter p = [] := by
  rw [delete, List.filter_comm, h]
  simp

end Lib.Table
