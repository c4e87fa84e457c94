import Marty.Lib.JsonText
import Marty.Lib.Text

/-! Dictionaries that are written field by field, some of the fields left out, and read back by
their keys. -/

universe u

namespace Lib.Fields

open JsonText

variable {F β : Type} {α : Type u}

abbrev Entries (F : Type) : Type := List (String × Value F)

/-- The entries of the fields in the order in which they are set, without those that have no
value. -/
def entries : List (String × Option β) → List (String × β)
  | [] => []
  | (_, none) :: fields => entries fields
  | (key, some value) :: fields => (key, value) :: entries fields

/-- The value, if it is not `None`. -/
def notNone : Value F → Option (Value F)
  | .null => none
  | value => some value

@[simp] theorem getD_notNone (value : Value F) : (notNone value).getD .null = value := by
  cases value <;> rfl

theorem eq_of_mem_notNone {value value' : Value F} (h : value' ∈ notNone value) :
    value' = value := by
  cases value <;> cases h <;> rfl

theorem truthy_eq {s : Option String} (h : s ≠ some "") : Text.truthy s = s := by
  cases s with
  | none => rfl
  | some s => exact Text.truthy_eq_some.mpr ⟨rfl, fun hempty => h (congrArg some hempty)⟩

/-! Readers of one value. -/

def asInt : Value F → Option Int
  | .int n => some n
  | _ => none

def asStr : Value F → Option String
  | .str s => some s
  | _ => none

def asEntries : Value F → Option (Entries F)
  | .obj data => some data
  | _ => none

@[simp] theorem asInt_int (n : Int) : asInt (F := F) (.int n) = some n := rfl

@[simp] theorem asStr_str (s : String) : asStr (F := F) (.str s) = some s := rfl

@[simp] theorem asEntries_obj (data : Entries F) : asEntries (.obj data) = some data := rfl

/-- `[read(x) for x in values]` -/
def asList (read : Value F → Option α) : Value F → Option (List α)
  | .arr values => values.mapM read
  | _ => none

/-- The member of an enumeration that has the value. -/
def member [DecidableEq β] (members : List α) (value : α → β) (b : β) : Option α :=
  members.find? fun a => value a = b

/-- An enumeration of integers. -/
class IntEnum (α : Type u) where
  value : α → Int
  members : List α
  member_value : ∀ a, member members value (value a) = some a

def asEnum [IntEnum α] (v : Value F) : Option α :=
  (asInt v).bind (member IntEnum.members IntEnum.value)

@[simp] theorem asEnum_value [IntEnum α] (a : α) :
    asEnum (F := F) (.int (IntEnum.value a)) = some a := IntEnum.member_value a

/-! Readers of a field. -/

/-- `read(data[key])` -/
def required (data : Entries F) (key : String) (read : Value F → Option α) : Option α :=
  (data.lookup key).bind read

/-- `read(data[key]) if key in data else None` -/
def ifPresent (data : Entries F) (key : String) (read : Value F → Option α) : Option (Option α) :=
  match data.lookup key with
  | none => some none
  | some value => (read value).map some

/-- `data.get(key)`, where `None` is as good as no entry. -/
def getField (data : Entries F) (key : String) (read : Value F → Option α) : Option (Option α) :=
  match data.lookup key with
  | none | some .null => some none
  | some value => (read value).map some

section

variable {data : Entries F} {key : String} {read : Value F → Option α} {write : α → Value F}
  {fields : List (String × Option β)}

/-- The first field with the key that has a value. -/
theorem lookup_entries_cons (key' : String) (value : Option β) :
    (entries ((key', value) :: fields)).lookup key =
      if key = key' then value.or ((entries fields).lookup key)
      else (entries fields).lookup key := by
  cases value with
  | none => simp [entries]
  | some value =>
    by_cases hkey : key = key'
    · simp [entries, hkey]
    · simp [entries, hkey, List.lookup_cons, beq_false_of_ne hkey]

theorem lookup_entries_nil :
    (entries ([] : List (String × Option β))).lookup key = none := rfl

theorem keys_entries_sublist (fields : List (String × Option β)) :
    ((entries fields).map (·.1)).Sublist (fields.map (·.1)) := by
  induction fields with
  | nil => exact .slnil
  | cons field fields ih =>
    obtain ⟨key, _ | value⟩ := field
    · exact ih.cons key
    · exact ih.cons_cons key

theorem mem_entries {entry : String × β} :
    entry ∈ entries fields ↔ (entry.1, some entry.2) ∈ fields := by
  induction fields with
  | nil => simp [entries]
  | cons field fields ih =>
    obtain ⟨key, _ | value⟩ := field
    · simp [entries, ih]
    · simp [entries, ih, Prod.ext_iff]

@[simp] theorem wellFormed_str (s : String) : (Value.str (F := F) s).WellFormed := trivial

@[simp] theorem wellFormed_int (n : Int) : (Value.int (F := F) n).WellFormed := trivial

/-- A dictionary with distinct keys is well formed when the values of its fields are. -/
theorem wellFormed_entries {fields : List (String × Option (Value F))}
    (hkeys : (fields.map (·.1)).Nodup)
    (hvalues : ∀ field ∈ fields, ∀ value ∈ field.2, value.WellFormed) :
    (Value.obj (entries fields)).WellFormed := by
  refine ⟨hkeys.sublist (keys_entries_sublist fields), ?_⟩
  rw [Value.wellFormedEntries_iff]
  intro entry hentry
  exact hvalues _ (mem_entries.mp hentry) _ rfl

theorem wellFormed_arr_map (values : List α) (h : ∀ a ∈ values, (write a).WellFormed) :
    (Value.arr (values.map write)).WellFormed := by
  rw [Value.WellFormed, Value.wellFormeds_iff]
  simpa using h

theorem asList_map {values : List α} (h : ∀ a ∈ values, read (write a) = some a) :
    asList read (.arr (values.map write)) = some values := by
  rw [asList]
  induction values with
  | nil => rfl
  | cons a values ih =>
    obtain ⟨ha, hvalues⟩ := List.forall_mem_cons.mp h
    rw [List.map_cons, List.mapM_cons, ha, ih hvalues]
    rfl

/-- A field that is there when the value is. -/
theorem ifPresent_map (write : α → Value F) {value : Option α}
    (hlookup : data.lookup key = value.map write)
    (h : ∀ a ∈ value, read (write a) = some a) : ifPresent data key read = some value := by
  rw [ifPresent, hlookup]
  cases value with
  | none => rfl
  | some a => simp [h a rfl]

theorem getField_map (write : α → Value F) {value : Option α}
    (hlookup : data.lookup key = value.map write)
    (hnull : ∀ a, write a ≠ .null) (h : ∀ a ∈ value, read (write a) = some a) :
    getField data key read = some value := by
  rw [getField, hlookup]
  cases value with
  | none => rfl
  | some a =>
    rw [Option.map_some]
    split
    case h_1 heq => cases heq
    case h_2 heq => exact absurd (Option.some.inj heq) (hnull a)
    case h_3 value heq =>
      obtain rfl := Option.some.inj heq
      rw [h a rfl, Option.map_some]

/-! Integers, texts and records below a record. -/

theorem getField_int {value : Option Int} (hlookup : data.lookup key = value.map .int) :
    getField data key asInt = some value :=
  getField_map .int hlookup (fun _ h => nomatch h) fun _ _ => rfl

theorem getField_str {value : Option String} (hlookup : data.lookup key = value.map .str) :
    getField data key asStr = some value :=
  getField_map .str hlookup (fun _ h => nomatch h) fun _ _ => rfl

variable {fromDict : Entries F → Option α}

theorem ifPresent_record (toDict : α → Entries F) {value : Option α}
    (hlookup : data.lookup key = value.map fun a => .obj (toDict a))
    (h : ∀ a ∈ value, fromDict (toDict a) = some a) :
    ifPresent data key (fun value => (asEntries value).bind fromDict) = some value :=
  ifPresent_map _ hlookup h

theorem asList_records (toDict : α → Entries F) (values : List α)
    (h : ∀ a ∈ values, fromDict (toDict a) = some a) :
    asList (fun value => (asEntries value).bind fromDict)
      (.arr (values.map fun a => .obj (toDict a))) = some values :=
  asList_map h

end

/-! Bytes. -/

variable (floats : FloatText F)

/-- `json.dumps(value).encode("utf-8")` -/
def dumpBytes (value : Value F) : ByteArray := (dumps floats value).toUTF8

/-- `json.loads(data.decode("utf-8"))` -/
def loadBytes (data : ByteArray) : Option (Value F) := (String.fromUTF8? data).bind (loads floats)

theorem fromUTF8?_toUTF8 (s : String) : String.fromUTF8? s.toUTF8 = some s := by
  rw [String.fromUTF8?, String.toUTF8_eq_toByteArray, dif_pos s.isValidUTF8]
  rfl

theorem loadBytes_dumpBytes {value : Value F} (h : value.WellFormed) :
    loadBytes floats (dumpBytes floats value) = some value := by
  rw [loadBytes, dumpBytes, fromUTF8?_toUTF8, Option.bind_some, loads_dumps h]

end Lib.Fields
