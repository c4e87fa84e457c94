import Marty.Lib.Dict

/-! Classes that are mapped to tables.  The constructor sets any keyword that is an attribute of
the class, and a flush writes the mapped columns. -/

universe u

namespace Lib.Declarative

variable {V : Type u}

structure Column where
  name : String
  nullable : Bool := false
  deriving DecidableEq

/-- The columns of a mapped class, and the names of its other attributes. -/
structure Mapping where
  columns : List Column
  attributes : List String
  nodup : (columns.map (·.name)).Nodup

/-- An object: what was loaded from its row, and what has been set since. -/
structure Instance (V : Type u) where
  loaded : List (String × V) := []
  assigned : List (String × V) := []

namespace Instance

def set (name : String) (value : V) (x : Instance V) : Instance V :=
  { x with assigned := Dict.set name value x.assigned }

def get? (name : String) (x : Instance V) : Option V :=
  (x.assigned.lookup name).or (x.loaded.lookup name)

theorem get?_set_of_ne {name name' : String} (hne : name' ≠ name) (value : V) (x : Instance V) :
    (x.set name value).get? name' = x.get? name' := by
  rw [get?, set, Dict.lookup_set_of_ne hne, get?]

/-- The value of a column after a flush.  `stored` is what the database has of a value that is
written, if it takes it. -/
def write (stored : String → V → Option V) (defaults : List (String × V)) (null : V)
    (x : Instance V) (c : Column) : Option V :=
  match x.assigned.lookup c.name with
  | some value => stored c.name value
  | none =>
    match x.loaded.lookup c.name with
    | some value => some value
    | none =>
      match defaults.lookup c.name with
      | some value => stored c.name value
      | none => if c.nullable then some null else none

end Instance

namespace Mapping

variable {stored : String → V → Option V} {defaults : List (String × V)} {null : V} {M : Mapping}
  {x : Instance V} {c : Column} {row : List (String × V)}

/-- A keyword that is no attribute of the class raises. -/
def construct (M : Mapping) (kwargs : List (String × V)) : Option (Instance V) :=
  if ∀ entry ∈ kwargs, entry.1 ∈ M.columns.map (·.name) ∨ entry.1 ∈ M.attributes then
    some { assigned := Dict.updated [] kwargs }
  else none

def writeColumns (stored : String → V → Option V) (defaults : List (String × V)) (null : V)
    (x : Instance V) : List Column → Option (List (String × V))
  | [] => some []
  | c :: columns =>
    (x.write stored defaults null c).bind fun value =>
      (writeColumns stored defaults null x columns).map ((c.name, value) :: ·)

def flush (stored : String → V → Option V) (defaults : List (String × V)) (null : V) (M : Mapping)
    (x : Instance V) : Option (List (String × V)) :=
  writeColumns stored defaults null x M.columns

theorem lookup_writeColumns {columns : List Column} (hnodup : (columns.map (·.name)).Nodup)
    (h : writeColumns stored defaults null x columns = some row) (hc : c ∈ columns) :
    row.lookup c.name = x.write stored defaults null c := by
  induction columns generalizing row with
  | nil => cases hc
  | cons d columns ih =>
    obtain ⟨value, hvalue, h⟩ := Option.bind_eq_some_iff.mp h
    obtain ⟨rest, hrest, rfl⟩ := Option.map_eq_some_iff.mp h
    obtain ⟨hd, hnodup⟩ := List.nodup_cons.mp hnodup
    rcases List.mem_cons.mp hc with rfl | hc
    · rw [List.lookup_cons_self, hvalue]
    · have hne : (c.name == d.name) = false :=
        beq_false_of_ne fun heq => hd (List.mem_map.mpr ⟨c, hc, heq⟩)
      rw [List.lookup_cons, hne]
      exact ih hnodup hrest hc

theorem lookup_flush (h : M.flush stored defaults null x = some row) (hc : c ∈ M.columns) :
    row.lookup c.name = x.write stored defaults null c :=
  lookup_writeColumns M.nodup h hc

/-- A column that nothing sets is null. -/
theorem lookup_flush_null (h : M.flush stored defaults null x = some row) (hc : c ∈ M.columns)
    (hget : x.get? c.name = none) (hdefaults : defaults.lookup c.name = none)
    (hnullable : c.nullable = true) : row.lookup c.name = some null := by
  obtain ⟨hassigned, hloaded⟩ := Option.or_eq_none_iff.mp hget
  rw [lookup_flush h hc, Instance.write, hassigned, hloaded, hdefaults, hnullable]
  rfl

theorem lookup_flush_assigned (h : M.flush stored defaults null x = some row) (hc : c ∈ M.columns)
    {value : V} (hassigned : x.assigned.lookup c.name = some value) :
    row.lookup c.name = stored c.name value := by
  rw [lookup_flush h hc, Instance.write, hassigned]

end Mapping

end Lib.Declarative
