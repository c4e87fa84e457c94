import Mathlib.Data.Finset.Card
import Mathlib.Logic.Relation
import Marty.Lib.Cedar

/-! The entity store that a list of entities stands for, where the ancestors of an entity are
those reached over parents, and the entity types that a schema declares. -/

namespace Lib.CedarStore

open Lib.Cedar

structure Entity where
  uid : EntityUID
  attrs : List (String × Value) := []
  parents : List EntityUID := []
  deriving DecidableEq

def parentsOf (es : List Entity) (uid : EntityUID) : List EntityUID :=
  ((es.find? (·.uid = uid)).map (·.parents)).getD []

/-- What is reached over at most as many parents. -/
def ancestorsIn (es : List Entity) : Nat → EntityUID → List EntityUID
  | 0, _ => []
  | n + 1, uid => parentsOf es uid ++ (parentsOf es uid).flatMap (ancestorsIn es n)

def ancestors (es : List Entity) (uid : EntityUID) : List EntityUID :=
  ancestorsIn es es.length uid

def store (es : List Entity) : Entities := fun uid =>
  (es.find? (·.uid = uid)).map fun e => { attrs := e.attrs, ancestors := ancestors es uid }

def Parent (es : List Entity) (a b : EntityUID) : Prop := b ∈ parentsOf es a

section ancestors

variable {es : List Entity} {a b : EntityUID}

theorem Parent.mem (h : Parent es a b) : a ∈ (es.map (·.uid)).toFinset := by
  unfold Parent parentsOf at h
  cases hfind : es.find? (·.uid = a) with
  | none => simp [hfind] at h
  | some e =>
    have huid : e.uid = a := by simpa using List.find?_some hfind
    exact List.mem_toFinset.mpr (List.mem_map.mpr ⟨e, List.mem_of_find?_eq_some hfind, huid⟩)

/-- The parent relation between entities with a UID in a set. -/
def ParentIn (es : List Entity) (s : Finset EntityUID) (a b : EntityUID) : Prop :=
  a ∈ s ∧ Parent es a b

/-- A path can be cut at the last visit of a node. -/
theorem transGen_erase {s : Finset EntityUID} {x : EntityUID}
    (h : Relation.TransGen (ParentIn es s) x b) :
    Relation.TransGen (ParentIn es (s.erase a)) x b ∨
      ∃ y, Parent es a y ∧ (y = b ∨ Relation.TransGen (ParentIn es (s.erase a)) y b) := by
  refine Relation.TransGen.head_induction_on h ?_ ?_
  · intro x hx
    by_cases hxa : x = a
    · subst hxa
      exact .inr ⟨b, hx.2, .inl rfl⟩
    · exact .inl (.single ⟨Finset.mem_erase.mpr ⟨hxa, hx.1⟩, hx.2⟩)
  · intro x y hx hy ih
    rcases ih with hpath | hcut
    · by_cases hxa : x = a
      · subst hxa
        exact .inr ⟨y, hx.2, .inr hpath⟩
      · exact .inl (.head ⟨Finset.mem_erase.mpr ⟨hxa, hx.1⟩, hx.2⟩ hpath)
    · exact .inr hcut

theorem mem_ancestorsIn {n : Nat} {s : Finset EntityUID} (hn : s.card ≤ n)
    (h : Relation.TransGen (ParentIn es s) a b) : b ∈ ancestorsIn es n a := by
  induction n generalizing s a with
  | zero =>
    obtain rfl := Finset.card_eq_zero.mp (Nat.le_zero.mp hn)
    obtain ⟨y, hy, -⟩ := Relation.TransGen.head'_iff.mp h
    exact absurd hy.1 (Finset.notMem_empty a)
  | succ n ih =>
    obtain ⟨first, hfirst, -⟩ := Relation.TransGen.head'_iff.mp h
    have hcard : (s.erase a).card ≤ n := by
      rw [Finset.card_erase_of_mem hfirst.1]
      omega
    rw [ancestorsIn, List.mem_append]
    -- The path leaves its first node for the last time.
    rcases transGen_erase (a := a) h with hpath | ⟨y, hy, hrest⟩
    · obtain ⟨y, hy, -⟩ := Relation.TransGen.head'_iff.mp hpath
      exact absurd hy.1 (Finset.notMem_erase a s)
    · rcases hrest with rfl | hrest
      · exact .inl hy
      · exact .inr (List.mem_flatMap.mpr ⟨y, hy, ih hcard hrest⟩)

/-- The ancestors are what is reached over parents: no more steps are needed than there are
entities. -/
theorem mem_ancestors_iff : b ∈ ancestors es a ↔ Relation.TransGen (Parent es) a b := by
  constructor
  · suffices ∀ n a, b ∈ ancestorsIn es n a → Relation.TransGen (Parent es) a b from this _ _
    intro n
    induction n with
    | zero => exact fun a h => absurd h List.not_mem_nil
    | succ n ih =>
      intro a h
      rcases List.mem_append.mp h with h | h
      · exact .single h
      · obtain ⟨y, hy, h⟩ := List.mem_flatMap.mp h
        exact .head hy (ih y h)
  · intro h
    have hlength : (es.map (·.uid)).toFinset.card ≤ es.length :=
      (List.toFinset_card_le _).trans_eq (List.length_map _)
    have hparents : Parent es ≤ ParentIn es (es.map (·.uid)).toFinset :=
      fun _ _ hparent => ⟨hparent.mem, hparent⟩
    exact mem_ancestorsIn hlength (Relation.TransGen.mono hparents _ _ h)

theorem store_of_notMem (h : ∀ e ∈ es, e.uid ≠ a) : store es a = none := by
  rw [store, List.find?_eq_none.mpr fun e he => by simpa using h e he, Option.map_none]

/-- An entity that is not there is in itself only, and has no attributes. -/
theorem mem_of_notMem (h : ∀ e ∈ es, e.uid ≠ a) : (store es).mem a b = true ↔ a = b := by
  simp [Entities.mem, store_of_notMem h]

theorem attr_of_notMem (h : ∀ e ∈ es, e.uid ≠ a) (name : String) :
    (store es).attr a name = .error .entityDoesNotExist := by
  rw [Entities.attr, store_of_notMem h]

theorem mem_store {e : Entity} (he : es.find? (·.uid = a) = some e) :
    (store es).mem a b = true ↔ a = b ∨ Relation.TransGen (Parent es) a b := by
  simp [Entities.mem, store, he, mem_ancestors_iff]

theorem Parent.exists_mem (h : Parent es a b) : ∃ e ∈ es, b ∈ e.parents := by
  unfold Parent parentsOf at h
  cases hfind : es.find? (·.uid = a) with
  | none => simp [hfind] at h
  | some e => exact ⟨e, List.mem_of_find?_eq_some hfind, by simpa [hfind] using h⟩

/-- What something is in, itself apart, is a parent of an entity. -/
theorem mem_cases (h : (store es).mem a b = true) : a = b ∨ ∃ e ∈ es, b ∈ e.parents := by
  cases hfind : es.find? (·.uid = a) with
  | none =>
    rw [List.find?_eq_none] at hfind
    exact .inl ((mem_of_notMem fun e he => by simpa using hfind e he).mp h)
  | some e =>
    refine ((mem_store hfind).mp h).imp_right fun hpath => ?_
    obtain ⟨_, -, hlast⟩ := Relation.TransGen.tail'_iff.mp hpath
    exact hlast.exists_mem

theorem attr_store {e : Entity} (he : es.find? (·.uid = a) = some e) {name : String}
    {v : Value} : (store es).attr a name = .ok v ↔ e.attrs.lookup name = some v := by
  simp only [Entities.attr, store, he, Option.map_some]
  cases e.attrs.lookup name <;> simp

end ancestors

inductive AttrType
  | bool | long | string

def AttrType.holds : AttrType → Value → Bool
  | .bool, .bool _ => true
  | .long, .long _ => true
  | .string, .string _ => true
  | _, _ => false

structure Attr where
  name : String
  type : AttrType
  required : Bool := true

structure EntityType where
  name : String
  memberOf : List String := []
  attrs : List Attr := []

/-- The parents are of the types declared, the attributes are declared, and the required ones are
there. -/
def EntityType.accepts (t : EntityType) (e : Entity) : Bool :=
  e.parents.all (·.ty ∈ t.memberOf) &&
    (e.attrs.all fun (name, v) => t.attrs.any fun attr => attr.name = name && attr.type.holds v) &&
    t.attrs.all fun attr => !attr.required || (e.attrs.lookup attr.name).isSome

structure WellFormed (schema : List EntityType) (es : List Entity) : Prop where
  distinct : (es.map (·.uid)).Nodup
  typed : ∀ e ∈ es, ∃ t ∈ schema, t.name = e.uid.ty ∧ t.accepts e = true

end Lib.CedarStore
