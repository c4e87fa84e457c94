import Marty.Lib.Table

/-! Seeds in a table with a primary key.  The rows of a seed are those with its code, of which
there may be any number: all of them are refreshed, and where there is none one is inserted. -/

universe u v w x

namespace Lib

structure Seeding (σ : Type u) (ρ : Type v) (κ : Type w) (ι : Type x) where
  code : ρ → κ
  id : ρ → ι
  seedCode : σ → κ
  fresh : σ → ρ
  refresh : σ → ρ → ρ
  code_fresh : ∀ s, code (fresh s) = seedCode s
  code_refresh : ∀ s r, code (refresh s r) = code r
  id_refresh : ∀ s r, id (refresh s r) = id r

namespace Seeding

variable {σ : Type u} {ρ : Type v} {κ : Type w} {ι : Type x} [DecidableEq κ]
  (seeding : Seeding σ ρ κ ι) {s : σ} {seeds : List σ} {r : ρ} {rows rows' : List ρ}

/-- An insertion under an identifier that is in use fails. -/
def upsert [DecidableEq ι] (rows : List ρ) (s : σ) : Option (List ρ) :=
  if seeding.seedCode s ∈ rows.map seeding.code then
    some (Table.modify seeding.code (seeding.seedCode s) (seeding.refresh s) rows)
  else if seeding.id (seeding.fresh s) ∈ rows.map seeding.id then none
  else some (rows ++ [seeding.fresh s])

def seed [DecidableEq ι] (seeds : List σ) (rows : List ρ) : Option (List ρ) :=
  seeds.foldlM seeding.upsert rows

/-- The row as its seed has it. -/
def refreshed (seeds : List σ) (r : ρ) : ρ :=
  match seeds.find? (seeding.seedCode · = seeding.code r) with
  | none => r
  | some s => seeding.refresh s r

def missing (seeds : List σ) (rows : List ρ) : List σ :=
  seeds.filter (seeding.seedCode · ∉ rows.map seeding.code)

/-- No row has the identifier of a missing one. -/
def Free (seeds : List σ) (rows : List ρ) : Prop :=
  ∀ s ∈ seeding.missing seeds rows, seeding.id (seeding.fresh s) ∉ rows.map seeding.id

instance [DecidableEq ι] : Decidable (seeding.Free seeds rows) := List.decidableBAll _ _

def seeded (seeds : List σ) (rows : List ρ) : List ρ :=
  rows.map (seeding.refreshed seeds) ++ (seeding.missing seeds rows).map seeding.fresh

@[simp] theorem code_refreshed (seeds : List σ) (r : ρ) :
    seeding.code (seeding.refreshed seeds r) = seeding.code r := by
  unfold refreshed
  split
  case h_1 => rfl
  case h_2 => exact seeding.code_refresh _ _

@[simp] theorem id_refreshed (seeds : List σ) (r : ρ) :
    seeding.id (seeding.refreshed seeds r) = seeding.id r := by
  unfold refreshed
  split
  case h_1 => rfl
  case h_2 => exact seeding.id_refresh _ _

theorem refreshed_of_notMem (h : seeding.code r ∉ seeds.map seeding.seedCode) :
    seeding.refreshed seeds r = r := by
  have hnone : seeds.find? (seeding.seedCode · = seeding.code r) = none := by
    refine List.find?_eq_none.mpr fun s hs => ?_
    rw [decide_eq_true_eq]
    exact fun heq => h (heq ▸ List.mem_map_of_mem hs)
  rw [refreshed, hnone]

theorem refreshed_cons_self (h : seeding.code r = seeding.seedCode s) :
    seeding.refreshed (s :: seeds) r = seeding.refresh s r := by
  simp [refreshed, h]

theorem refreshed_cons_of_ne (h : seeding.code r ≠ seeding.seedCode s) :
    seeding.refreshed (s :: seeds) r = seeding.refreshed seeds r := by
  simp [refreshed, Ne.symm h]

theorem map_code_modify (k : κ) :
    (Table.modify seeding.code k (seeding.refresh s) rows).map seeding.code =
      rows.map seeding.code :=
  Table.map_key_modify (seeding.code_refresh s)

/-- One seed after the other: what the rest makes of the rows that have been refreshed. -/
theorem seeded_modify (hs : seeding.seedCode s ∉ seeds.map seeding.seedCode)
    (hmem : seeding.seedCode s ∈ rows.map seeding.code) :
    seeding.seeded seeds
        (Table.modify seeding.code (seeding.seedCode s) (seeding.refresh s) rows) =
      seeding.seeded (s :: seeds) rows := by
  have hmissing : seeding.missing (s :: seeds) rows = seeding.missing seeds rows :=
    List.filter_cons_of_neg (by simpa using hmem)
  rw [seeded, seeded, hmissing, missing, map_code_modify, missing, Table.modify, List.map_map]
  congr 1
  refine List.map_congr_left fun r _ => ?_
  simp only [Function.comp]
  split
  case isTrue heq =>
    rw [seeding.refreshed_cons_self heq, refreshed_of_notMem]
    rwa [seeding.code_refresh, heq]
  case isFalse hne => rw [seeding.refreshed_cons_of_ne hne]

theorem missing_append (hs : seeding.seedCode s ∉ seeds.map seeding.seedCode) :
    seeding.missing seeds (rows ++ [seeding.fresh s]) = seeding.missing seeds rows := by
  refine List.filter_congr fun s' hs' => ?_
  have hne : seeding.seedCode s' ≠ seeding.seedCode s := fun heq =>
    hs (heq ▸ List.mem_map_of_mem hs')
  simp [seeding.code_fresh, hne]

theorem seeded_append (hs : seeding.seedCode s ∉ seeds.map seeding.seedCode)
    (hnone : seeding.seedCode s ∉ rows.map seeding.code) :
    seeding.seeded seeds (rows ++ [seeding.fresh s]) = seeding.seeded (s :: seeds) rows := by
  have hmissing : seeding.missing (s :: seeds) rows = s :: seeding.missing seeds rows :=
    List.filter_cons_of_pos (by simpa using hnone)
  have hrows : rows.map (seeding.refreshed (s :: seeds)) = rows.map (seeding.refreshed seeds) :=
    List.map_congr_left fun r hr => seeding.refreshed_cons_of_ne fun heq =>
      hnone (heq ▸ List.mem_map_of_mem hr)
  have hfresh : seeding.refreshed seeds (seeding.fresh s) = seeding.fresh s := by
    rw [refreshed_of_notMem]
    rwa [seeding.code_fresh]
  rw [seeded, seeded, seeding.missing_append hs, hmissing, hrows, List.map_append,
    List.map_singleton, hfresh, List.map_cons, List.append_assoc, List.singleton_append]

theorem free_modify (hmem : seeding.seedCode s ∈ rows.map seeding.code) :
    seeding.Free seeds
        (Table.modify seeding.code (seeding.seedCode s) (seeding.refresh s) rows) ↔
      seeding.Free (s :: seeds) rows := by
  have hmissing : seeding.missing (s :: seeds) rows = seeding.missing seeds rows :=
    List.filter_cons_of_neg (by simpa using hmem)
  have hids : (Table.modify seeding.code (seeding.seedCode s) (seeding.refresh s) rows).map
      seeding.id = rows.map seeding.id := Table.map_modify fun r _ _ => seeding.id_refresh s r
  rw [Free, Free, hmissing, hids, missing, map_code_modify, missing]

theorem free_append (hs : seeding.seedCode s ∉ seeds.map seeding.seedCode)
    (hid : seeding.id (seeding.fresh s) ∉ seeds.map (seeding.id <| seeding.fresh ·))
    (hnone : seeding.seedCode s ∉ rows.map seeding.code)
    (hfree : seeding.id (seeding.fresh s) ∉ rows.map seeding.id) :
    seeding.Free seeds (rows ++ [seeding.fresh s]) ↔ seeding.Free (s :: seeds) rows := by
  have hmissing : seeding.missing (s :: seeds) rows = s :: seeding.missing seeds rows :=
    List.filter_cons_of_pos (by simpa using hnone)
  rw [Free, Free, seeding.missing_append hs, hmissing, List.forall_mem_cons]
  constructor
  · intro h
    exact ⟨hfree, fun s' hs' hmem => h s' hs' (by simp [hmem])⟩
  · intro h s' hs'
    have hne : seeding.id (seeding.fresh s') ≠ seeding.id (seeding.fresh s) := fun heq =>
      hid (List.mem_map.mpr ⟨s', (List.mem_filter.mp hs').1, heq⟩)
    simpa [hne] using h.2 s' hs'

/-- Seeds with different codes and identifiers are seeded exactly when the identifiers of the
missing ones are free: the rows of each are refreshed, and the missing ones come last. -/
theorem seed_eq [DecidableEq ι] (hcodes : (seeds.map seeding.seedCode).Nodup)
    (hids : (seeds.map (seeding.id <| seeding.fresh ·)).Nodup) (rows : List ρ) :
    seeding.seed seeds rows =
      if seeding.Free seeds rows then some (seeding.seeded seeds rows) else none := by
  induction seeds generalizing rows with
  | nil =>
    have hrows : rows.map (seeding.refreshed []) = rows := List.map_id rows
    simp [seed, Free, seeded, missing, hrows]
  | cons s seeds ih =>
    obtain ⟨hcode, hcodes⟩ := List.nodup_cons.mp hcodes
    obtain ⟨hid, hids⟩ := List.nodup_cons.mp hids
    have hstep : seeding.seed (s :: seeds) rows =
        (seeding.upsert rows s).bind (seeding.seed seeds) := rfl
    rw [hstep, upsert]
    split
    case isTrue hmem =>
      rw [Option.bind_some, ih hcodes hids, seeding.seeded_modify hcode hmem]
      simp only [seeding.free_modify hmem]
    case isFalse hnone =>
      split
      case isTrue hused =>
        have hmem : s ∈ seeding.missing (s :: seeds) rows :=
          List.mem_filter.mpr ⟨List.mem_cons_self, by simpa using hnone⟩
        rw [if_neg fun h => h s hmem hused, Option.bind_none]
      case isFalse hfree =>
        rw [Option.bind_some, ih hcodes hids, seeding.seeded_append hcode hnone]
        simp only [seeding.free_append hcode hid hnone hfree]

section keep

variable {keep : ρ → Bool} (hfresh : ∀ s ∈ seeds, keep (seeding.fresh s) = false)
  (hrefresh : ∀ r, keep (seeding.refreshed seeds r) = keep r)
include hfresh hrefresh

/-- A selection that takes out the seeds and does not see whether a row has been refreshed. -/
theorem filter_seeded (rows : List ρ) : (seeding.seeded seeds rows).filter keep =
    (rows.filter keep).map (seeding.refreshed seeds) := by
  have hnone : ((seeding.missing seeds rows).map seeding.fresh).filter keep = [] := by
    refine List.filter_eq_nil_iff.mpr fun r hr => ?_
    obtain ⟨s, hs, rfl⟩ := List.mem_map.mp hr
    simp [hfresh s (List.mem_filter.mp hs).1]
  rw [seeded, List.filter_append, hnone, List.append_nil, List.filter_map]
  simp only [Function.comp_def, hrefresh]

/-- The selection gives back the rows exactly when it keeps each of them and none has been
changed. -/
theorem filter_seeded_eq_self_iff : (seeding.seeded seeds rows).filter keep = rows ↔
    ∀ r ∈ rows, keep r = true ∧ seeding.refreshed seeds r = r := by
  rw [seeding.filter_seeded hfresh hrefresh]
  constructor
  · intro h
    have hlength : (rows.filter keep).length = rows.length := by
      rw [← List.length_map (seeding.refreshed seeds), h]
    have hkeep := List.length_filter_eq_length_iff.mp hlength
    rw [List.filter_eq_self.mpr hkeep] at h
    have hsame := List.map_inj_left.mp (h.trans (List.map_id rows).symm)
    exact fun r hr => ⟨hkeep r hr, hsame r hr⟩
  · intro h
    rw [List.filter_eq_self.mpr fun r hr => (h r hr).1]
    exact (List.map_congr_left fun r hr => (h r hr).2).trans (List.map_id rows)

end keep

end Seeding

end Lib
