import Mathlib.Data.List.Nodup
import Marty.Lib.Dict

/-! Nested dictionaries, and one laid over another. -/

universe u v

namespace Lib

inductive KeyTree (K : Type u) (V : Type v) : Type (max u v)
  | leaf : V → KeyTree K V
  | node : List (K × KeyTree K V) → KeyTree K V

/-- A dictionary whose values may be dictionaries. -/
abbrev Nested (K : Type u) (V : Type v) := List (K × KeyTree K V)

namespace KeyTree

variable {K : Type u} {V : Type v}

/-- No key twice, at any depth. -/
inductive Distinct : KeyTree K V → Prop
  | leaf (v : V) : Distinct (.leaf v)
  | node {d : Nested K V} (keys : (d.map (·.1)).Nodup) (values : ∀ e ∈ d, Distinct e.2) :
      Distinct (.node d)

/-- A tree of at most so many levels of dictionaries. -/
def Within : Nat → KeyTree K V → Prop
  | _, .leaf _ => True
  | 0, .node _ => False
  | n + 1, .node d => ∀ e ∈ d, Within n e.2

theorem Within.mono {n m : Nat} {t : KeyTree K V} (h : Within n t) (hle : n ≤ m) : Within m t := by
  induction n generalizing m t with
  | zero =>
    cases t with
    | leaf v => cases m <;> trivial
    | node d => exact h.elim
  | succ n ih =>
    obtain ⟨m, rfl⟩ : ∃ m', m = m' + 1 := ⟨m - 1, by omega⟩
    cases t with
    | leaf v => trivial
    | node d => exact fun e he => ih (h e he) (by omega)

theorem exists_within {t : KeyTree K V} (h : Distinct t) : ∃ n, Within n t := by
  induction h with
  | leaf v => exact ⟨0, trivial⟩
  | @node d _ _ ih =>
    have hall : ∃ n, ∀ e ∈ d, Within n e.2 := by
      clear * - ih
      induction d with
      | nil => exact ⟨0, by simp⟩
      | cons e d ihd =>
        obtain ⟨n, hn⟩ := ih e List.mem_cons_self
        obtain ⟨m, hm⟩ := ihd fun e' he' => ih e' (List.mem_cons_of_mem e he')
        refine ⟨max n m, fun e' he' => ?_⟩
        rcases List.mem_cons.mp he' with rfl | he'
        · exact hn.mono (Nat.le_max_left n m)
        · exact (hm e' he').mono (Nat.le_max_right n m)
    obtain ⟨n, hn⟩ := hall
    exact ⟨n + 1, hn⟩

variable [DecidableEq K]

/-- The value at a path of keys. -/
def follow : KeyTree K V → List K → Option (KeyTree K V)
  | t, [] => some t
  | .leaf _, _ :: _ => none
  | .node d, key :: path => (d.lookup key).bind fun t => t.follow path

mutual

/-- The entries of `override` over those of `base`, with dictionaries merged where both have one. -/
def merge (base : Nested K V) : Nested K V → Nested K V
  | [] => base
  | (key, value) :: override =>
    merge (Dict.set key (mergeValue (base.lookup key) value) base) override

def mergeValue (old : Option (KeyTree K V)) : KeyTree K V → KeyTree K V
  | .leaf v => .leaf v
  | .node override =>
    match old with
    | some (.node base) => .node (merge base override)
    | _ => .node override

end

theorem mergeValue_none (t : KeyTree K V) : mergeValue none t = t := by
  cases t <;> simp [mergeValue]

theorem mergeValue_leaf (v : V) (t : KeyTree K V) : mergeValue (some (.leaf v)) t = t := by
  cases t <;> simp [mergeValue]

theorem mergeValue_of_leaf (old : Option (KeyTree K V)) (v : V) :
    mergeValue old (.leaf v) = .leaf v := by
  rw [mergeValue]

theorem mergeValue_node (base override : Nested K V) :
    mergeValue (some (.node base)) (.node override) = .node (merge base override) := by
  rw [mergeValue]

theorem lookup_of_mem {d : Nested K V} {e : K × KeyTree K V} (hkeys : (d.map (·.1)).Nodup)
    (he : e ∈ d) : d.lookup e.1 = some e.2 := by
  induction d with
  | nil => cases he
  | cons e' d ih =>
    obtain ⟨hnot, hkeys⟩ := List.nodup_cons.mp hkeys
    rcases List.mem_cons.mp he with rfl | hmem
    · rw [List.lookup_cons, beq_self_eq_true]
    · have hne : e.1 ≠ e'.1 := by
        intro heq
        exact hnot (List.mem_map.mpr ⟨e, hmem, heq⟩)
      rw [List.lookup_cons, beq_false_of_ne hne]
      exact ih hkeys hmem

theorem lookup_merge {base override : Nested K V} (hkeys : (override.map (·.1)).Nodup) (key : K) :
    (merge base override).lookup key =
      ((override.lookup key).map (mergeValue (base.lookup key))).or (base.lookup key) := by
  induction override generalizing base with
  | nil =>
    rw [merge]
    rfl
  | cons e override ih =>
    obtain ⟨key', value⟩ := e
    obtain ⟨hnot, hkeys⟩ := List.nodup_cons.mp hkeys
    rw [merge, ih hkeys]
    by_cases heq : key = key'
    · subst heq
      have hnone : override.lookup key = none := by
        by_contra hsome
        exact hnot (Dict.lookup_ne_none.mp hsome)
      rw [hnone, Dict.lookup_set_self, List.lookup_cons, beq_self_eq_true]
      rfl
    · rw [Dict.lookup_set_of_ne heq, List.lookup_cons, beq_false_of_ne heq]

/-- What the upper tree holds at a path, over what the lower one holds there. -/
theorem follow_mergeValue {t u : KeyTree K V} (ht : Distinct t) (old : Option (KeyTree K V))
    {path : List K} (h : t.follow path = some u) :
    (mergeValue old t).follow path = some (mergeValue (old.bind (·.follow path)) u) := by
  induction path generalizing t old with
  | nil =>
    cases h
    cases old <;> rfl
  | cons key path ih =>
    cases ht with
    | leaf v => cases h
    | @node o hkeys hvalues =>
      obtain ⟨t', hlookup, hfollow⟩ := Option.bind_eq_some_iff.mp h
      match old with
      | none =>
        rw [mergeValue_none, h]
        exact congrArg some (mergeValue_none u).symm
      | some (.leaf v) =>
        rw [mergeValue_leaf, h]
        exact congrArg some (mergeValue_none u).symm
      | some (.node base) =>
        have ht' := hvalues _ (Dict.mem_of_lookup hlookup)
        have hmerged := ih ht' (base.lookup key) hfollow
        rw [mergeValue_node, follow, lookup_merge hkeys, hlookup]
        exact hmerged

/-- The path leads through dictionaries of both trees, as far as the upper one has it. -/
def Untouched (old : Option (KeyTree K V)) (t : KeyTree K V) (path : List K) : Prop :=
  t.follow path = none ∧
    ∀ before after u, path = before ++ after → after ≠ [] → t.follow before = some u →
      (∃ d, u = .node d) ∧ ∃ d, old.bind (·.follow before) = some (.node d)

theorem follow_mergeValue_of_untouched {t : KeyTree K V} (ht : Distinct t)
    (old : Option (KeyTree K V)) {path : List K} (h : Untouched old t path) :
    (mergeValue old t).follow path = old.bind (·.follow path) := by
  induction path generalizing t old with
  | nil => cases h.1
  | cons key path ih =>
    obtain ⟨hnone, hprefix⟩ := h
    obtain ⟨⟨o, rfl⟩, base, hbase⟩ := hprefix [] (key :: path) t rfl (by simp) rfl
    obtain rfl : old = some (.node base) := by
      cases old with
      | none => cases hbase
      | some old => exact hbase
    cases ht with
    | node hkeys hvalues =>
      have hold : (some (.node base) : Option (KeyTree K V)).bind (·.follow (key :: path)) =
          (base.lookup key).bind (·.follow path) := rfl
      rw [mergeValue_node, follow, lookup_merge hkeys, hold]
      cases hlookup : o.lookup key with
      | none => rfl
      | some t' =>
        have hfollow : ∀ rest, (KeyTree.node o).follow (key :: rest) = t'.follow rest := by
          intro rest
          rw [follow, hlookup]
          rfl
        refine ih (hvalues _ (Dict.mem_of_lookup hlookup)) (base.lookup key) ⟨?_, ?_⟩
        · rw [← hfollow]
          exact hnone
        · rintro before after u rfl hafter hu
          exact hprefix (key :: before) after u rfl hafter ((hfollow before).trans hu)

theorem set_of_lookup {d : Nested K V} {key : K} {t : KeyTree K V} (h : d.lookup key = some t) :
    Dict.set key t d = d := by
  induction d with
  | nil => cases h
  | cons e d ih =>
    by_cases heq : e.1 = key
    · rw [List.lookup_cons, heq, beq_self_eq_true] at h
      cases h
      rw [Dict.set, if_pos heq, ← heq]
    · rw [List.lookup_cons, beq_false_of_ne (Ne.symm heq)] at h
      rw [Dict.set, if_neg heq, ih h]

/-- A dictionary that already holds what the upper one would put there. -/
theorem merge_eq_self {base override : Nested K V}
    (h : ∀ e ∈ override, ∃ t, base.lookup e.1 = some t ∧ mergeValue (some t) e.2 = t) :
    merge base override = base := by
  induction override with
  | nil => rw [merge]
  | cons e override ih =>
    obtain ⟨t, hlookup, ht⟩ := h e List.mem_cons_self
    rw [merge, hlookup, ht, set_of_lookup hlookup]
    exact ih fun e' he' => h e' (List.mem_cons_of_mem e he')

theorem mergeValue_self {t : KeyTree K V} (h : Distinct t) : mergeValue (some t) t = t := by
  induction h with
  | leaf v => exact mergeValue_of_leaf _ v
  | node hkeys _ ih =>
    rw [mergeValue_node, merge_eq_self]
    exact fun e he => ⟨e.2, lookup_of_mem hkeys he, ih e he⟩

theorem mergeValue_mergeValue {t : KeyTree K V} (h : Distinct t) (old : Option (KeyTree K V)) :
    mergeValue (some (mergeValue old t)) t = mergeValue old t := by
  induction h generalizing old with
  | leaf v => rw [mergeValue_of_leaf, mergeValue_of_leaf]
  | @node o hkeys hvalues ih =>
    match old with
    | none =>
      rw [mergeValue_none]
      exact mergeValue_self (.node hkeys hvalues)
    | some (.leaf v) =>
      rw [mergeValue_leaf]
      exact mergeValue_self (.node hkeys hvalues)
    | some (.node base) =>
      rw [mergeValue_node, mergeValue_node, merge_eq_self]
      intro e he
      refine ⟨_, ?_, ih e he (base.lookup e.1)⟩
      rw [lookup_merge hkeys, lookup_of_mem hkeys he]
      rfl

end KeyTree

end Lib
