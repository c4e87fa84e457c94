import Mathlib.Data.List.Basic
import Mathlib.Logic.Function.Basic

/-! A relational database under data definition: the objects of its catalogue and its rows.  An
object is created when its name is free and what it rests on is there, and dropped when nothing
else rests on it. -/

namespace Lib.Schema

inductive Key
  | type (name : String)
  | table (name : String)
  | column (table name : String)
  | index (name : String)
  | constraint (table name : String)
  deriving DecidableEq

inductive ColumnType
  | base (name : String)
  | enum (name : String)
  deriving DecidableEq

/-- A value as text, `none` for `NULL`. -/
abbrev Value := Option String

structure Column where
  name : String
  type : ColumnType
  nullable : Bool := true
  default : Value := none
  deriving DecidableEq

/-- A table brings its first columns along; others are added to it. -/
inductive Object
  | type (name : String) (labels : List String)
  | table (name : String) (columns : List Column) (references : List (String × String))
  | column (table : String) (column : Column)
  | index (name table : String) (columns : List String)
  | foreignKey (name table column target targetColumn onDelete : String)
  deriving DecidableEq

def Object.key : Object → Key
  | .type name _ => .type name
  | .table name _ _ => .table name
  | .column t c => .column t c.name
  | .index name _ _ => .index name
  | .foreignKey name t _ _ _ _ => .constraint t name

def Object.provides : Object → List Key
  | .table name columns _ => .table name :: columns.map fun c => .column name c.name
  | o => [o.key]

def Column.needs (c : Column) : List Key :=
  match c.type with
  | .base _ => []
  | .enum name => [.type name]

def Object.needs : Object → List Key
  | .type _ _ => []
  | .table _ columns references =>
    columns.flatMap Column.needs ++ references.map fun r => .column r.1 r.2
  | .column t c => .table t :: c.needs
  | .index _ t columns => columns.map fun c => .column t c
  | .foreignKey _ t c target targetColumn _ => [.column t c, .column target targetColumn]

structure Row where
  table : String
  /-- `none` where the table has no such column. -/
  cells : String → Option Value

/-- What a new column puts into a row. -/
def Object.fill : Object → Row → Row
  | .column t c, row =>
    if row.table = t then { row with cells := Function.update row.cells c.name (some c.default) }
    else row
  | _, row => row

/-- What is left of a row, `none` when it goes with its table. -/
def Key.clear : Key → Row → Option Row
  | .table name, row => if row.table = name then none else some row
  | .column t name, row =>
    if row.table = t then some { row with cells := Function.update row.cells name none }
    else some row
  | _, row => some row

/-- The rows allow the object: there is a value for each row, and no dangling reference. -/
def Object.fits (rows : List Row) : Object → Bool
  | .column t c => c.nullable || c.default.isSome || rows.all (·.table ≠ t)
  | .foreignKey _ t c target targetColumn _ =>
    rows.all fun row => row.table ≠ t || (row.cells c).join.isNone ||
      rows.any fun row' => row'.table = target && row'.cells targetColumn = row.cells c
  | _ => true

def provided (catalog : List Object) : List Key := catalog.flatMap Object.provides

structure Database where
  catalog : List Object := []
  rows : List Row := []

def create (db : Database) (o : Object) : Option Database :=
  if (∀ k ∈ o.provides, k ∉ provided db.catalog) ∧ (∀ k ∈ o.needs, k ∈ provided db.catalog) ∧
      o.fits db.rows then
    some { catalog := db.catalog ++ [o], rows := db.rows.map o.fill }
  else none

def dropObject (catalog : List Object) (k : Key) : Option (List Object) :=
  if (∃ o ∈ catalog, o.key = k) ∧
      ∀ o ∈ catalog, o.key = k → ∀ o' ∈ catalog, o'.key ≠ k → ∀ n ∈ o'.needs, n ∉ o.provides then
    some (catalog.filter (·.key ≠ k))
  else none

def drop (db : Database) (k : Key) : Option Database :=
  (dropObject db.catalog k).map fun catalog =>
    { catalog := catalog, rows := db.rows.filterMap k.clear }

def dropIfExists (db : Database) (k : Key) : Option Database :=
  if ∃ o ∈ db.catalog, o.key = k then drop db k else some db

/-- What the objects of the catalogue rest on is there, and the rows have the columns of their
tables and no others. -/
structure Consistent (db : Database) : Prop where
  closed : ∀ o ∈ db.catalog, ∀ k ∈ o.needs, k ∈ provided db.catalog
  tables : ∀ row ∈ db.rows, Key.table row.table ∈ provided db.catalog
  cells : ∀ row ∈ db.rows, ∀ c, row.cells c ≠ none → Key.column row.table c ∈ provided db.catalog

theorem Object.key_mem_provides (o : Object) : o.key ∈ o.provides := by
  cases o <;> simp [Object.key, Object.provides]

variable {db db' : Database} {catalog news rest : List Object} {o : Object} {k : Key}
  {ks : List Key}

@[simp] theorem mem_provided : k ∈ provided catalog ↔ ∃ o ∈ catalog, k ∈ o.provides :=
  List.mem_flatMap

theorem dropObject_eq_some : dropObject catalog k = some rest ↔ (∃ o ∈ catalog, o.key = k) ∧
    (∀ o ∈ catalog, o.key = k → ∀ o' ∈ catalog, o'.key ≠ k → ∀ n ∈ o'.needs, n ∉ o.provides) ∧
      catalog.filter (·.key ≠ k) = rest := by
  unfold dropObject
  split
  case isTrue h =>
    exact ⟨fun heq => ⟨h.1, h.2, Option.some.inj heq⟩, fun hsome => congrArg some hsome.2.2⟩
  case isFalse h => exact ⟨nofun, fun hsome => absurd ⟨hsome.1, hsome.2.1⟩ h⟩

/-- New objects that can be dropped among themselves can be dropped from the catalogue. -/
theorem dropObject_append (hnew : ∀ o ∈ news, ∀ k ∈ o.provides, k ∉ provided catalog)
    (hclosed : ∀ o ∈ catalog, ∀ k ∈ o.needs, k ∈ provided catalog)
    (h : dropObject news k = some rest) :
    dropObject (catalog ++ news) k = some (catalog ++ rest) := by
  obtain ⟨⟨o, ho, rfl⟩, hfree, rfl⟩ := dropObject_eq_some.mp h
  have hkey : ∀ o' ∈ catalog, o'.key ≠ o.key := by
    intro o' ho' heq
    exact hnew o ho o.key o.key_mem_provides
      (mem_provided.mpr ⟨o', ho', heq ▸ o'.key_mem_provides⟩)
  refine dropObject_eq_some.mpr ⟨⟨o, List.mem_append_right _ ho, rfl⟩, ?_, ?_⟩
  · intro p hp hpk p' hp' hpk' n hn hprovides
    have hp : p ∈ news := (List.mem_append.mp hp).resolve_left fun hp => hkey p hp hpk
    rcases List.mem_append.mp hp' with hp' | hp'
    · exact hnew p hp n hprovides (hclosed p' hp' n hn)
    · exact hfree p hp hpk p' hp' hpk' n hn hprovides
  · have hold : catalog.filter (·.key ≠ o.key) = catalog := by
      rw [List.filter_eq_self]
      exact fun o' ho' => decide_eq_true (hkey o' ho')
    rw [List.filter_append, hold]

theorem dropObjects_append (hnew : ∀ o ∈ news, ∀ k ∈ o.provides, k ∉ provided catalog)
    (hclosed : ∀ o ∈ catalog, ∀ k ∈ o.needs, k ∈ provided catalog)
    (h : ks.foldlM dropObject news = some rest) :
    ks.foldlM dropObject (catalog ++ news) = some (catalog ++ rest) := by
  induction ks generalizing news with
  | nil =>
    obtain rfl := Option.some.inj h
    rfl
  | cons k ks ih =>
    rw [List.foldlM_cons] at h
    obtain ⟨mid, hmid, h⟩ := Option.bind_eq_some_iff.mp h
    obtain ⟨-, -, rfl⟩ := dropObject_eq_some.mp hmid
    have hmem : ∀ o ∈ news.filter (·.key ≠ k), ∀ k ∈ o.provides, k ∉ provided catalog :=
      fun o ho => hnew o (List.mem_of_mem_filter ho)
    rw [List.foldlM_cons, dropObject_append hnew hclosed hmid]
    exact ih hmem h

/-- What the objects dropped leave of a row. -/
def clearAll (ks : List Key) (row : Row) : Option Row := ks.foldlM (fun row k => k.clear row) row

theorem drop_rows (h : ks.foldlM dropObject catalog = some rest) (rows : List Row) :
    ks.foldlM drop { catalog := catalog, rows := rows } =
      some { catalog := rest, rows := rows.filterMap (clearAll ks) } := by
  induction ks generalizing catalog rows with
  | nil =>
    obtain rfl := Option.some.inj h
    exact congrArg (fun rows => some (Database.mk catalog rows)) List.filterMap_some.symm
  | cons k ks ih =>
    rw [List.foldlM_cons] at h
    obtain ⟨mid, hmid, h⟩ := Option.bind_eq_some_iff.mp h
    rw [List.foldlM_cons, drop, hmid]
    change ks.foldlM drop { catalog := mid, rows := rows.filterMap k.clear } = _
    rw [ih h, List.filterMap_filterMap]
    rfl

theorem clearAll_cons (k : Key) (ks : List Key) (row : Row) :
    clearAll (k :: ks) row = (k.clear row).bind (clearAll ks) := rfl

theorem clearAll_append (ks ks' : List Key) (row : Row) :
    clearAll (ks ++ ks') row = (clearAll ks row).bind (clearAll ks') := List.foldlM_append

/-- A row stays when its table does, and keeps the columns that are not dropped. -/
theorem clearAll_eq_some {row : Row} (htable : Key.table row.table ∉ ks) :
    clearAll ks row = some { row with
      cells := fun c => if Key.column row.table c ∈ ks then none else row.cells c } := by
  induction ks generalizing row with
  | nil => simp [clearAll]
  | cons k ks ih =>
    obtain ⟨hk, hrest⟩ := not_or.mp (mt List.mem_cons.mpr htable)
    have hrow := @ih row hrest
    rw [clearAll_cons]
    cases k with
    | table name =>
      have hname : row.table ≠ name := fun h => hk (h ▸ rfl)
      simp [Key.clear, hname, hrow]
    | column t name =>
      by_cases ht : row.table = t
      · subst ht
        have hcleared := @ih { row with cells := Function.update row.cells name none } hrest
        rw [Key.clear, if_pos rfl, Option.bind_some, hcleared]
        refine congrArg some (congrArg (Row.mk row.table) (funext fun c => ?_))
        by_cases hc : c = name <;> simp [hc]
      · simp [Key.clear, ht, hrow]
    | _ => simp [Key.clear, hrow]

def fillAll (news : List Object) (row : Row) : Row := news.foldl (fun row o => o.fill row) row

theorem Object.fill_table (o : Object) (row : Row) : (o.fill row).table = row.table := by
  cases o with
  | column t c =>
    rw [fill]
    split <;> rfl
  | _ => rfl

theorem fillAll_table (news : List Object) (row : Row) : (fillAll news row).table = row.table := by
  induction news generalizing row with
  | nil => rfl
  | cons o news ih => exact (ih (o.fill row)).trans (o.fill_table row)

/-- A row keeps the columns that are not created. -/
theorem fillAll_cells {row : Row} {c : String}
    (h : ∀ o ∈ news, o.key ≠ .column row.table c) : (fillAll news row).cells c = row.cells c := by
  induction news generalizing row with
  | nil => rfl
  | cons o news ih =>
    have hhead : (o.fill row).cells c = row.cells c := by
      cases o with
      | column t column =>
        rw [Object.fill]
        split
        case isTrue ht =>
          refine Function.update_of_ne (fun hc => ?_) _ _
          exact h _ List.mem_cons_self (by rw [Object.key, ht, hc])
        case isFalse => rfl
      | _ => rfl
    refine (ih fun p hp => ?_).trans hhead
    rw [o.fill_table]
    exact h p (List.mem_cons_of_mem o hp)

theorem create_eq_some (h : create db o = some db') :
    (∀ k ∈ o.provides, k ∉ provided db.catalog) ∧ (∀ k ∈ o.needs, k ∈ provided db.catalog) ∧
      db' = { catalog := db.catalog ++ [o], rows := db.rows.map o.fill } := by
  unfold create at h
  split at h
  case isTrue hfree => exact ⟨hfree.1, hfree.2.1, (Option.some.inj h).symm⟩
  case isFalse => cases h

structure Created (db db' : Database) (news : List Object) : Prop where
  catalog : db'.catalog = db.catalog ++ news
  rows : db'.rows = db.rows.map (fillAll news)
  fresh : ∀ o ∈ news, ∀ k ∈ o.provides, k ∉ provided db.catalog
  needs : ∀ o ∈ news, ∀ k ∈ o.needs, k ∈ provided db'.catalog

theorem created_of_create (h : news.foldlM create db = some db') : Created db db' news := by
  induction news generalizing db with
  | nil =>
    obtain rfl := Option.some.inj h
    exact ⟨by simp, (List.map_id db.rows).symm, nofun, nofun⟩
  | cons o news ih =>
    rw [List.foldlM_cons] at h
    obtain ⟨mid, hmid, h⟩ := Option.bind_eq_some_iff.mp h
    obtain ⟨hfresh, hneeds, rfl⟩ := create_eq_some hmid
    have hrest := ih h
    have hcatalog : db'.catalog = db.catalog ++ o :: news := by simp [hrest.catalog]
    refine ⟨hcatalog, ?_, fun p hp k hk hold => ?_, fun p hp k hk => ?_⟩
    · rw [hrest.rows, List.map_map]
      rfl
    · rcases List.mem_cons.mp hp with rfl | hp
      · exact hfresh k hk hold
      · obtain ⟨q, hq, hkq⟩ := mem_provided.mp hold
        exact hrest.fresh p hp k hk (mem_provided.mpr ⟨q, List.mem_append_left _ hq, hkq⟩)
    · rcases List.mem_cons.mp hp with rfl | hp
      · obtain ⟨q, hq, hkq⟩ := mem_provided.mp (hneeds k hk)
        rw [hcatalog]
        exact mem_provided.mpr ⟨q, List.mem_append_left _ hq, hkq⟩
      · exact hrest.needs p hp k hk

theorem key_mem_of_dropped (h : ks.foldlM dropObject news = some []) : ∀ o ∈ news, o.key ∈ ks := by
  induction ks generalizing news with
  | nil =>
    obtain rfl := Option.some.inj h
    nofun
  | cons k ks ih =>
    rw [List.foldlM_cons] at h
    obtain ⟨mid, hmid, h⟩ := Option.bind_eq_some_iff.mp h
    obtain ⟨-, -, rfl⟩ := dropObject_eq_some.mp hmid
    intro o ho
    by_cases hk : o.key = k
    · exact hk ▸ List.mem_cons_self
    · exact List.mem_cons_of_mem k (ih h o (List.mem_filter.mpr ⟨ho, decide_eq_true hk⟩))

theorem mem_key_of_dropped (h : ks.foldlM dropObject news = some rest) :
    ∀ k ∈ ks, ∃ o ∈ news, o.key = k := by
  induction ks generalizing news with
  | nil => nofun
  | cons k ks ih =>
    rw [List.foldlM_cons] at h
    obtain ⟨mid, hmid, h⟩ := Option.bind_eq_some_iff.mp h
    obtain ⟨hkey, -, rfl⟩ := dropObject_eq_some.mp hmid
    intro j hj
    rcases List.mem_cons.mp hj with rfl | hj
    · exact hkey
    · obtain ⟨o, ho, hoj⟩ := ih h j hj
      exact ⟨o, List.mem_of_mem_filter ho, hoj⟩

/-- What an upgrade has created and a downgrade drops, the dependent objects first: the catalogue
is as it was before, and of the rows the new tables and columns are gone, whatever has been written
in between. -/
theorem drop_create (hdb : Consistent db) (hup : news.foldlM create db = some db')
    (hdown : ks.foldlM dropObject news = some []) (rows : List Row) :
    ks.foldlM drop { db' with rows := rows } =
      some { db with rows := rows.filterMap (clearAll ks) } := by
  have hnew := created_of_create hup
  have hcatalog : ks.foldlM dropObject db'.catalog = some db.catalog := by
    have h := dropObjects_append hnew.fresh hdb.closed hdown
    rwa [← hnew.catalog, List.append_nil] at h
  exact drop_rows hcatalog rows

/-- The rows that were there before are as they were. -/
theorem clear_fill (hdb : Consistent db) (hup : news.foldlM create db = some db')
    (hdown : ks.foldlM dropObject news = some []) :
    db'.rows.filterMap (clearAll ks) = db.rows := by
  have hnew := created_of_create hup
  have hfresh : ∀ k ∈ ks, k ∉ provided db.catalog := by
    intro k hk
    obtain ⟨o, ho, rfl⟩ := mem_key_of_dropped hdown k hk
    exact hnew.fresh o ho o.key o.key_mem_provides
  have hrow : ∀ row ∈ db.rows, (clearAll ks ∘ fillAll news) row = some row := by
    intro row hrow
    have htable : Key.table (fillAll news row).table ∉ ks := by
      rw [fillAll_table]
      exact fun h => hfresh _ h (hdb.tables row hrow)
    have hcells : ∀ c, (if Key.column (fillAll news row).table c ∈ ks then none
        else (fillAll news row).cells c) = row.cells c := by
      intro c
      rw [fillAll_table]
      split
      case isTrue hmem =>
        by_contra hne
        exact hfresh _ hmem (hdb.cells row hrow c (Ne.symm hne))
      case isFalse hmem =>
        exact fillAll_cells fun o ho hkey => hmem (hkey ▸ key_mem_of_dropped hdown o ho)
    rw [Function.comp_apply, clearAll_eq_some htable, funext hcells, fillAll_table]
  rw [hnew.rows, List.filterMap_map, List.filterMap_congr hrow]
  exact List.filterMap_some

theorem dropIfExists_of_drop (h : ks.foldlM drop db = some db') :
    ks.foldlM dropIfExists db = some db' := by
  induction ks generalizing db with
  | nil => exact h
  | cons k ks ih =>
    rw [List.foldlM_cons] at h
    obtain ⟨mid, hmid, h⟩ := Option.bind_eq_some_iff.mp h
    obtain ⟨catalog, hcatalog, -⟩ := Option.map_eq_some_iff.mp hmid
    have hexists : dropIfExists db k = some mid := by
      unfold dropIfExists
      split
      case isTrue => exact hmid
      case isFalse hnone => exact absurd (dropObject_eq_some.mp hcatalog).1 hnone
    rw [List.foldlM_cons, hexists]
    exact ih h

theorem key_notMem_of_drop (h : ks.foldlM drop db = some db') :
    ∀ o ∈ db'.catalog, o ∈ db.catalog ∧ o.key ∉ ks := by
  induction ks generalizing db with
  | nil =>
    obtain rfl := Option.some.inj h
    exact fun o ho => ⟨ho, List.not_mem_nil⟩
  | cons k ks ih =>
    rw [List.foldlM_cons] at h
    obtain ⟨mid, hmid, h⟩ := Option.bind_eq_some_iff.mp h
    obtain ⟨catalog, hcatalog, rfl⟩ := Option.map_eq_some_iff.mp hmid
    obtain ⟨-, -, rfl⟩ := dropObject_eq_some.mp hcatalog
    intro o ho
    obtain ⟨hmem, hks⟩ := ih h o ho
    obtain ⟨hmem, hk⟩ := List.mem_filter.mp hmem
    have hne : o.key ≠ k := of_decide_eq_true hk
    exact ⟨hmem, fun hcons => (List.mem_cons.mp hcons).elim hne hks⟩

theorem provided_append (catalog news : List Object) :
    provided (catalog ++ news) = provided catalog ++ provided news := List.flatMap_append

theorem consistent_create (hdb : Consistent db) (h : create db o = some db') : Consistent db' := by
  obtain ⟨-, hneeds, rfl⟩ := create_eq_some h
  refine ⟨fun p hp k hk => ?_, ?_, ?_⟩
  · rw [provided_append]
    refine List.mem_append_left _ ?_
    rcases List.mem_append.mp hp with hp | hp
    · exact hdb.closed p hp k hk
    · obtain rfl := List.mem_singleton.mp hp
      exact hneeds k hk
  · rintro _ hrow
    obtain ⟨row, hmem, rfl⟩ := List.mem_map.mp hrow
    rw [provided_append, o.fill_table]
    exact List.mem_append_left _ (hdb.tables row hmem)
  · rintro _ hrow c hc
    obtain ⟨row, hmem, rfl⟩ := List.mem_map.mp hrow
    rw [provided_append, o.fill_table, List.mem_append]
    by_cases hkey : o.key = .column row.table c
    · exact .inr (mem_provided.mpr ⟨o, List.mem_singleton_self o, hkey ▸ o.key_mem_provides⟩)
    · left
      have hcells : (fillAll [o] row).cells c = row.cells c :=
        fillAll_cells fun p hp => List.mem_singleton.mp hp ▸ hkey
      exact hdb.cells row hmem c (hcells ▸ hc)

theorem consistent_createAll (hdb : Consistent db) (h : news.foldlM create db = some db') :
    Consistent db' := by
  induction news generalizing db with
  | nil => exact Option.some.inj h ▸ hdb
  | cons o news ih =>
    rw [List.foldlM_cons] at h
    obtain ⟨mid, hmid, h⟩ := Option.bind_eq_some_iff.mp h
    exact ih (consistent_create hdb hmid) h

theorem consistent_empty : Consistent {} := ⟨nofun, nofun, nofun⟩

end Lib.Schema
