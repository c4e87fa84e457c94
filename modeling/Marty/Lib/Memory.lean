import Mathlib.Data.List.Forall2
import Marty.Lib.Tree

/-! Dictionaries as objects: a value that is a dictionary is the address of its entries, which
several values may share. -/

universe u v

namespace Lib.Memory

inductive Value (V : Type v) : Type v
  | other : V → Value V
  | dict : Nat → Value V
  deriving DecidableEq

/-- The entries of the dictionary at each address. -/
abbrev Heap (K : Type u) (V : Type v) := List (List (K × Value V))

variable {K : Type u} {V : Type v}

/-- Every dictionary of the heap is as it was. -/
def Extends (heap heap' : Heap K V) : Prop :=
  ∀ address < heap.length, heap'[address]? = heap[address]?

section

variable {heap heap' heap'' : Heap K V}

theorem Extends.refl (heap : Heap K V) : Extends heap heap := fun _ _ => rfl

theorem Extends.length_le (h : Extends heap heap') : heap.length ≤ heap'.length := by
  by_contra hlt
  have hread := h heap'.length (by omega)
  rw [List.getElem?_eq_none (Nat.le_refl _), List.getElem?_eq_getElem (by omega)] at hread
  cases hread

theorem Extends.trans (h : Extends heap heap') (h' : Extends heap' heap'') :
    Extends heap heap'' :=
  fun address ha => (h' address (Nat.lt_of_lt_of_le ha h.length_le)).trans (h address ha)

theorem Extends.append (heap : Heap K V) (cell : List (K × Value V)) :
    Extends heap (heap ++ [cell]) :=
  fun _ ha => List.getElem?_append_left ha

theorem Extends.set (h : Extends heap heap') (address : Nat) (hnew : heap.length ≤ address)
    (cell : List (K × Value V)) : Extends heap (heap'.set address cell) := by
  intro a ha
  rw [List.getElem?_set_ne (by omega)]
  exact h a ha

end

variable [DecidableEq K]

/-- The value is the tree, with its dictionaries at addresses where `P` holds. -/
inductive Represents (P : Nat → Prop) (heap : Heap K V) : Value V → KeyTree K V → Prop
  | other (v : V) : Represents P heap (.other v) (.leaf v)
  | dict {address : Nat} {cell : List (K × Value V)} {d : Nested K V} (inside : P address)
      (read : heap[address]? = some cell) (keys : cell.map (·.1) = d.map (·.1))
      (distinct : (cell.map (·.1)).Nodup)
      (values : ∀ key value t, cell.lookup key = some value → d.lookup key = some t →
        Represents P heap value t) :
      Represents P heap (.dict address) (.node d)

/-- The entries are those of the nested dictionary. -/
structure Holds (P : Nat → Prop) (heap : Heap K V) (cell : List (K × Value V)) (d : Nested K V) :
    Prop where
  keys : cell.map (·.1) = d.map (·.1)
  distinct : (cell.map (·.1)).Nodup
  values : ∀ key value t, cell.lookup key = some value → d.lookup key = some t →
    Represents P heap value t

variable {P P' : Nat → Prop} {heap heap' : Heap K V}

theorem represents_dict_iff {address : Nat} {d : Nested K V} :
    Represents P heap (.dict address) (.node d) ↔
      P address ∧ ∃ cell, heap[address]? = some cell ∧ Holds P heap cell d := by
  constructor
  · intro h
    cases h with
    | dict inside read keys distinct values => exact ⟨inside, _, read, keys, distinct, values⟩
  · rintro ⟨inside, cell, read, hholds⟩
    exact .dict inside read hholds.keys hholds.distinct hholds.values

/-- A value is unmoved by what happens away from its dictionaries. -/
theorem Represents.frame {value : Value V} {t : KeyTree K V} (h : Represents P heap value t)
    (hkeep : ∀ a, P a → a < heap.length → P' a ∧ heap'[a]? = heap[a]?) :
    Represents P' heap' value t := by
  induction h with
  | other v => exact .other v
  | @dict address cell d inside read keys distinct _ ih =>
    obtain ⟨hlength, -⟩ := List.getElem?_eq_some_iff.mp read
    obtain ⟨inside', hread⟩ := hkeep address inside hlength
    exact .dict inside' (hread.trans read) keys distinct ih

theorem Represents.extends {value : Value V} {t : KeyTree K V} (h : Represents P heap value t)
    (hextends : Extends heap heap') : Represents P heap' value t :=
  h.frame fun a hin ha => ⟨hin, hextends a ha⟩

theorem Represents.distinct {value : Value V} {t : KeyTree K V} (h : Represents P heap value t) :
    KeyTree.Distinct t := by
  induction h with
  | other v => exact .leaf v
  | @dict address cell d _ _ keys distinct _ ih =>
    have hkeys : (d.map (·.1)).Nodup := by
      rw [← keys]
      exact distinct
    refine .node hkeys fun e he => ?_
    have hmem : e.1 ∈ cell.map (·.1) := by
      rw [keys]
      exact List.mem_map_of_mem he
    obtain ⟨value, hvalue⟩ := Option.ne_none_iff_exists'.mp (Dict.lookup_ne_none.mpr hmem)
    exact ih e.1 value e.2 hvalue (KeyTree.lookup_of_mem hkeys he)

namespace Holds

variable {cell : List (K × Value V)} {d : Nested K V}

theorem frame (h : Holds P heap cell d)
    (hkeep : ∀ a, P a → a < heap.length → P' a ∧ heap'[a]? = heap[a]?) : Holds P' heap' cell d :=
  ⟨h.keys, h.distinct, fun key value t hvalue ht => (h.values key value t hvalue ht).frame hkeep⟩

theorem lookup_eq_none (h : Holds P heap cell d) {key : K} (hnone : cell.lookup key = none) :
    d.lookup key = none := by
  by_contra hsome
  have hmem := Dict.lookup_ne_none.mp hsome
  rw [← h.keys] at hmem
  exact Dict.lookup_ne_none.mpr hmem hnone

theorem exists_lookup (h : Holds P heap cell d) {key : K} {value : Value V}
    (hvalue : cell.lookup key = some value) :
    ∃ t, d.lookup key = some t ∧ Represents P heap value t := by
  have hmem : key ∈ d.map (·.1) := by
    rw [← h.keys]
    exact Dict.lookup_ne_none.mp (by rw [hvalue]; simp)
  obtain ⟨t, ht⟩ := Option.ne_none_iff_exists'.mp (Dict.lookup_ne_none.mpr hmem)
  exact ⟨t, ht, h.values key value t hvalue ht⟩

theorem set (h : Holds P heap cell d) (key : K) {value : Value V} {t : KeyTree K V}
    (hvalue : Represents P heap value t) : Holds P heap (Dict.set key value cell)
      (Dict.set key t d) where
  keys := by
    by_cases hmem : key ∈ cell.map (·.1)
    · have hmem' : key ∈ d.map (·.1) := h.keys ▸ hmem
      rw [Dict.map_fst_set value hmem, Dict.map_fst_set t hmem', h.keys]
    · have hmem' : key ∉ d.map (·.1) := h.keys ▸ hmem
      rw [Dict.set_of_notMem value hmem, Dict.set_of_notMem t hmem', List.map_append,
        List.map_append, h.keys]
      rfl
  distinct := Dict.nodup_set value h.distinct
  values := by
    intro key' value' t' hvalue' ht'
    by_cases heq : key' = key
    · subst heq
      rw [Dict.lookup_set_self] at hvalue' ht'
      cases hvalue'
      cases ht'
      exact hvalue
    · rw [Dict.lookup_set_of_ne heq] at hvalue' ht'
      exact h.values key' value' t' hvalue' ht'

/-- The entries one by one, in their order. -/
theorem forall₂ (h : Holds P heap cell d) :
    List.Forall₂ (fun e e' => e.1 = e'.1 ∧ Represents P heap e.2 e'.2) cell d := by
  induction cell generalizing d with
  | nil =>
    cases d with
    | nil => exact .nil
    | cons e' d => cases h.keys
  | cons e cell ih =>
    cases d with
    | nil => cases h.keys
    | cons e' d =>
      obtain ⟨hkey, hkeys⟩ := List.cons.inj h.keys
      change e.1 = e'.1 at hkey
      obtain ⟨hnot, hdistinct⟩ := List.nodup_cons.mp h.distinct
      refine .cons ⟨hkey, ?_⟩ (ih ⟨hkeys, hdistinct, fun key value t hvalue ht => ?_⟩)
      · refine h.values e.1 e.2 e'.2 ?_ ?_
        · rw [List.lookup_cons, beq_self_eq_true]
        · rw [List.lookup_cons, hkey, beq_self_eq_true]
      · have hne : key ≠ e.1 := by
          rintro rfl
          exact hnot (Dict.lookup_ne_none.mp (by rw [hvalue]; simp))
        refine h.values key value t ?_ ?_
        · rwa [List.lookup_cons, beq_false_of_ne hne]
        · rwa [List.lookup_cons, beq_false_of_ne fun heq => hne (heq.trans hkey.symm)]

theorem of_forall₂ (hdistinct : (cell.map (·.1)).Nodup)
    (h : List.Forall₂ (fun e e' => e.1 = e'.1 ∧ Represents P heap e.2 e'.2) cell d) :
    Holds P heap cell d := by
  induction h with
  | nil => exact ⟨rfl, List.nodup_nil, fun _ _ _ h => by cases h⟩
  | @cons e e' cell d he _ ih =>
    obtain ⟨key, value⟩ := e
    obtain ⟨key', t⟩ := e'
    obtain ⟨rfl, hvalue⟩ := he
    have hrest := ih (List.nodup_cons.mp hdistinct).2
    refine ⟨congrArg (key :: ·) hrest.keys, hdistinct, fun key'' value'' t'' hvalue'' ht'' => ?_⟩
    by_cases heq : key'' = key
    · rw [heq, List.lookup_cons, beq_self_eq_true] at hvalue'' ht''
      cases hvalue''
      cases ht''
      exact hvalue
    · rw [List.lookup_cons, beq_false_of_ne heq] at hvalue'' ht''
      exact hrest.values key'' value'' t'' hvalue'' ht''

end Holds

end Lib.Memory
