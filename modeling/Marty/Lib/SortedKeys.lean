import Mathlib.Data.List.Sort
import Mathlib.Data.String.Basic
import Marty.Lib.JsonText

/-! `json.dumps(value, sort_keys=True, ...)`: a text that is the same for values that differ in the
order of their keys only, and for no others. -/

namespace Lib.JsonText

variable {F : Type}

namespace Value

mutual

/-- The value with the entries of every dictionary in the order of their keys. -/
def sortKeys : Value F → Value F
  | .arr values => .arr (sortKeysItems values)
  | .obj entries => .obj ((sortKeysEntries entries).insertionSort fun a b => a.1 ≤ b.1)
  | value => value

def sortKeysItems : List (Value F) → List (Value F)
  | [] => []
  | value :: values => sortKeys value :: sortKeysItems values

def sortKeysEntries : List (String × Value F) → List (String × Value F)
  | [] => []
  | (key, value) :: entries => (key, sortKeys value) :: sortKeysEntries entries

end

/-- The values are equal but for the order of keys, at every level. -/
inductive Same : Value F → Value F → Prop
  | refl (value : Value F) : Same value value
  | arr {values values' : List (Value F)} (h : values.length = values'.length)
      (hvalues : ∀ pair ∈ values.zip values', Same pair.1 pair.2) :
      Same (.arr values) (.arr values')
  | obj {entries entries' : List (String × Value F)}
      (hkeys : (entries.map (·.1)).Perm (entries'.map (·.1)))
      (hvalues : ∀ key value value', (key, value) ∈ entries → (key, value') ∈ entries' →
        Same value value') : Same (.obj entries) (.obj entries')

theorem sortKeysItems_eq_map (values : List (Value F)) :
    sortKeysItems values = values.map sortKeys := by
  induction values with
  | nil => rfl
  | cons value values ih => rw [sortKeysItems, ih, List.map_cons]

theorem sortKeysEntries_eq_map (entries : List (String × Value F)) :
    sortKeysEntries entries = entries.map fun e => (e.1, e.2.sortKeys) := by
  induction entries with
  | nil => rfl
  | cons entry entries ih => rw [sortKeysEntries, ih, List.map_cons]

theorem map_fst_sortKeysEntries (entries : List (String × Value F)) :
    (sortKeysEntries entries).map (·.1) = entries.map (·.1) := by
  simp [sortKeysEntries_eq_map, Function.comp_def]

/-- Lists without repeated keys are sorted alike exactly when they hold the same entries. -/
theorem insertionSort_eq_iff {entries entries' : List (String × Value F)}
    (h : (entries.map (·.1)).Nodup) :
    (entries.insertionSort fun a b => a.1 ≤ b.1) = (entries'.insertionSort fun a b => a.1 ≤ b.1) ↔
      entries.Perm entries' := by
  constructor
  · intro heq
    have hsorted := List.perm_insertionSort (fun a b : String × Value F => a.1 ≤ b.1) entries
    have hsorted' := List.perm_insertionSort (fun a b : String × Value F => a.1 ≤ b.1) entries'
    exact hsorted.symm.trans (heq ▸ hsorted')
  · intro hperm
    apply List.Perm.eq_of_pairwise _ (List.pairwise_insertionSort _ entries)
      (List.pairwise_insertionSort _ entries')
    · exact (List.perm_insertionSort _ entries).trans
        (hperm.trans (List.perm_insertionSort _ entries').symm)
    · intro a b ha hb hab hba
      rw [List.mem_insertionSort] at ha hb
      exact List.inj_on_of_nodup_map h ha (hperm.mem_iff.mpr hb) (le_antisymm hab hba)

/-- Which entries sorting the keys below them makes the same. -/
theorem perm_sortKeysEntries_iff {entries entries' : List (String × Value F)}
    (h : (entries.map (·.1)).Nodup) (h' : (entries'.map (·.1)).Nodup) :
    (sortKeysEntries entries).Perm (sortKeysEntries entries') ↔
      (entries.map (·.1)).Perm (entries'.map (·.1)) ∧
        ∀ key value value', (key, value) ∈ entries → (key, value') ∈ entries' →
          value.sortKeys = value'.sortKeys := by
  have hnodup (es : List (String × Value F)) (hes : (es.map (·.1)).Nodup) :
      (sortKeysEntries es).Nodup := .of_map (·.1) (by rwa [map_fst_sortKeysEntries])
  constructor
  · intro hperm
    refine ⟨?_, fun key value value' hmem hmem' => ?_⟩
    · simpa only [map_fst_sortKeysEntries] using hperm.map (·.1)
    · have hsorted : (key, value.sortKeys) ∈ sortKeysEntries entries' := by
        rw [← hperm.mem_iff, sortKeysEntries_eq_map]
        exact List.mem_map.mpr ⟨_, hmem, rfl⟩
      rw [sortKeysEntries_eq_map] at hsorted
      obtain ⟨entry, hentry, heq⟩ := List.mem_map.mp hsorted
      obtain ⟨hkey, hvalue⟩ := Prod.mk.inj heq
      obtain rfl := List.inj_on_of_nodup_map h' hentry hmem' hkey
      exact hvalue.symm
  · rintro ⟨hkeys, hvalues⟩
    rw [List.perm_ext_iff_of_nodup (hnodup _ h) (hnodup _ h')]
    intro entry
    simp only [sortKeysEntries_eq_map, List.mem_map]
    constructor
    · rintro ⟨⟨key, value⟩, hmem, rfl⟩
      obtain ⟨⟨_, value'⟩, hmem', rfl⟩ :=
        List.mem_map.mp (hkeys.mem_iff.mp (List.mem_map_of_mem hmem))
      exact ⟨_, hmem', by rw [hvalues _ value value' hmem hmem']⟩
    · rintro ⟨⟨key, value'⟩, hmem', rfl⟩
      obtain ⟨⟨_, value⟩, hmem, rfl⟩ :=
        List.mem_map.mp (hkeys.mem_iff.mpr (List.mem_map_of_mem hmem'))
      exact ⟨_, hmem, by rw [hvalues _ value value' hmem hmem']⟩

theorem Same.sortKeys_eq {value value' : Value F} (h : Same value value') (hw : value.WellFormed)
    (hw' : value'.WellFormed) : value.sortKeys = value'.sortKeys := by
  induction h with
  | refl => rfl
  | @arr values values' hlength hvalues ih =>
    rw [WellFormed, wellFormeds_iff] at hw hw'
    rw [sortKeys, sortKeys, sortKeysItems_eq_map, sortKeysItems_eq_map]
    congr 1
    apply List.ext_getElem (by simpa using hlength)
    intro i hi hi'
    rw [List.length_map] at hi hi'
    have hpair : (values[i], values'[i]) ∈ values.zip values' :=
      List.mem_iff_getElem.mpr ⟨i, by simpa using ⟨hi, hi'⟩, List.getElem_zip⟩
    rw [List.getElem_map, List.getElem_map]
    exact ih _ hpair (hw _ (List.getElem_mem hi)) (hw' _ (List.getElem_mem hi'))
  | obj hkeys hvalues ih =>
    rw [WellFormed, wellFormedEntries_iff] at hw hw'
    rw [sortKeys, sortKeys, obj.injEq,
      insertionSort_eq_iff (by rw [map_fst_sortKeysEntries]; exact hw.1),
      perm_sortKeysEntries_iff hw.1 hw'.1]
    exact ⟨hkeys, fun key value value' hmem hmem' =>
      ih key value value' hmem hmem' (hw.2 _ hmem) (hw'.2 _ hmem')⟩

mutual

theorem same_of_sortKeys_eq : ∀ {value value' : Value F}, value.WellFormed → value'.WellFormed →
    value.sortKeys = value'.sortKeys → Same value value'
  | .arr values, value', hw, hw', h => by
    cases value' <;> simp only [sortKeys, reduceCtorEq, arr.injEq] at h
    case arr values' =>
    rw [WellFormed] at hw hw'
    have hitems := same_items_of_sortKeys_eq hw hw' h
    exact .arr hitems.1 hitems.2
  | .obj entries, value', hw, hw', h => by
    cases value' <;> simp only [sortKeys, reduceCtorEq, obj.injEq] at h
    case obj entries' =>
    rw [WellFormed] at hw hw'
    rw [insertionSort_eq_iff (by rw [map_fst_sortKeysEntries]; exact hw.1),
      perm_sortKeysEntries_iff hw.1 hw'.1] at h
    exact .obj h.1 (same_entries_of_sortKeys_eq entries hw.2 (wellFormedEntries_iff.mp hw'.2) h.2)
  | .null, value', _, _, h => by
    cases value' <;> simp only [sortKeys, reduceCtorEq] at h
    exact .refl _
  | .bool _, value', _, _, h | .int _, value', _, _, h | .float _, value', _, _, h
  | .str _, value', _, _, h => by
    cases value' <;> simp only [sortKeys, reduceCtorEq] at h
    cases h
    exact .refl _

theorem same_items_of_sortKeys_eq : ∀ {values values' : List (Value F)}, WellFormeds values →
    WellFormeds values' → sortKeysItems values = sortKeysItems values' →
      values.length = values'.length ∧ ∀ pair ∈ values.zip values', Same pair.1 pair.2
  | [], [], _, _, _ => ⟨rfl, fun _ h => nomatch h⟩
  | [], _ :: _, _, _, h | _ :: _, [], _, _, h => by simp [sortKeysItems] at h
  | value :: values, value' :: values', hw, hw', h => by
    rw [sortKeysItems, sortKeysItems, List.cons.injEq] at h
    have hhead := same_of_sortKeys_eq hw.1 hw'.1 h.1
    obtain ⟨hlength, htail⟩ := same_items_of_sortKeys_eq hw.2 hw'.2 h.2
    exact ⟨congrArg (· + 1) hlength, List.forall_mem_cons.mpr ⟨hhead, htail⟩⟩

theorem same_entries_of_sortKeys_eq {entries' : List (String × Value F)} :
    ∀ entries : List (String × Value F), WellFormedEntries entries →
      (∀ entry ∈ entries', entry.2.WellFormed) →
      (∀ key value value', (key, value) ∈ entries → (key, value') ∈ entries' →
        value.sortKeys = value'.sortKeys) →
      ∀ key value value', (key, value) ∈ entries → (key, value') ∈ entries' → Same value value'
  | [], _, _, _, _, _, _, hmem, _ => nomatch hmem
  | (k, v) :: entries, hw, hw', h, key, value, value', hmem, hmem' => by
    rcases List.mem_cons.mp hmem with heq | htail
    · cases heq
      exact same_of_sortKeys_eq hw.1 (hw' _ hmem') (h k v value' List.mem_cons_self hmem')
    · exact same_entries_of_sortKeys_eq entries hw.2 hw'
        (fun key value value' hmem => h key value value' (List.mem_cons_of_mem _ hmem))
        key value value' htail hmem'

end

theorem sortKeys_eq_iff {value value' : Value F} (hw : value.WellFormed)
    (hw' : value'.WellFormed) : value.sortKeys = value'.sortKeys ↔ Same value value' :=
  ⟨same_of_sortKeys_eq hw hw', fun h => h.sortKeys_eq hw hw'⟩

theorem Same.str_inj {s s' : String} (h : Same (.str s : Value F) (.str s')) : s = s' := by
  cases h
  rfl

theorem Same.of_perm {entries entries' : List (String × Value F)}
    (hnodup : (entries.map (·.1)).Nodup) (h : entries.Perm entries') :
    Same (.obj entries) (.obj entries') := by
  refine .obj (h.map _) fun key value value' hmem hmem' => ?_
  cases List.inj_on_of_nodup_map hnodup hmem (h.mem_iff.mpr hmem') rfl
  exact .refl value

/-- The values that dictionaries hold for one key. -/
theorem Same.of_mem {entries entries' : List (String × Value F)}
    (h : Same (.obj entries) (.obj entries')) (hnodup : (entries.map (·.1)).Nodup) {key : String}
    {value value' : Value F} (hmem : (key, value) ∈ entries) (hmem' : (key, value') ∈ entries') :
    Same value value' := by
  cases h with
  | refl =>
    cases List.inj_on_of_nodup_map hnodup hmem hmem' rfl
    exact .refl value
  | obj hkeys hvalues => exact hvalues key value value' hmem hmem'

mutual

theorem wellFormed_sortKeys : ∀ {value : Value F}, value.WellFormed → value.sortKeys.WellFormed
  | .arr values, h => by
    rw [WellFormed] at h
    rw [sortKeys, WellFormed]
    exact wellFormed_sortKeysItems h
  | .obj entries, h => by
    rw [WellFormed] at h
    have hperm := List.perm_insertionSort (fun a b : String × Value F => a.1 ≤ b.1)
      (sortKeysEntries entries)
    have hentries := wellFormedEntries_iff.mp (wellFormed_sortKeysEntries h.2)
    rw [sortKeys, WellFormed, wellFormedEntries_iff, (hperm.map (·.1)).nodup_iff,
      map_fst_sortKeysEntries]
    exact ⟨h.1, fun entry hmem => hentries entry (hperm.mem_iff.mp hmem)⟩
  | .null, _ | .bool _, _ | .int _, _ | .float _, _ | .str _, _ => by
    rw [sortKeys] <;> simp [WellFormed]

theorem wellFormed_sortKeysItems : ∀ {values : List (Value F)}, WellFormeds values →
    WellFormeds (sortKeysItems values)
  | [], _ => trivial
  | _ :: _, h => ⟨wellFormed_sortKeys h.1, wellFormed_sortKeysItems h.2⟩

theorem wellFormed_sortKeysEntries : ∀ {entries : List (String × Value F)},
    WellFormedEntries entries → WellFormedEntries (sortKeysEntries entries)
  | [], _ => trivial
  | _ :: _, h => ⟨wellFormed_sortKeys h.1, wellFormed_sortKeysEntries h.2⟩

end

end Value

variable (floats : FloatText F) (spacing : Spacing)

/-- `json.dumps(value, sort_keys=True, separators=...)` -/
def dumpsSorted (value : Value F) : String := dumpsWith floats spacing value.sortKeys

/-- The sorted text is the same exactly when the values differ in the order of keys only. -/
theorem dumpsSorted_eq_iff {value value' : Value F} (hw : value.WellFormed)
    (hw' : value'.WellFormed) :
    dumpsSorted floats spacing value = dumpsSorted floats spacing value' ↔
      value.Same value' := by
  rw [← Value.sortKeys_eq_iff hw hw']
  constructor
  · intro h
    have hloads := congrArg (loads floats) h
    rwa [dumpsSorted, dumpsSorted, loads_dumpsWith _ _ (Value.wellFormed_sortKeys hw),
      loads_dumpsWith _ _ (Value.wellFormed_sortKeys hw'), Option.some.injEq] at hloads
  · intro h
    rw [dumpsSorted, dumpsSorted, h]

end Lib.JsonText
