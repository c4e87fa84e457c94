import Marty.Lib.Table
import Marty.Security.KeyRotation

/-! `DatabaseKeyStore`: the table `key_store`, the statements on it, and what is read out of a row.
A connector runs a statement as a whole. -/

namespace Marty.Security

open Lib Lib.Datetime

def KeyRotation.KeyStatus.value : KeyRotation.KeyStatus → String
  | .active => "active"
  | .pendingRotation => "pending_rotation"
  | .rotationInProgress => "rotation_in_progress"
  | .deprecated => "deprecated"
  | .revoked => "revoked"
  | .expired => "expired"

namespace DatabaseKeyStore

open KeyRotation

/-- `KeyType(text)` -/
def keyType? (text : String) : Option KeyType :=
  [.signing, .encryption, .rootCa, .intermediateCa, .documentSigner, .tls, .apiKey].find?
    (·.value = text)

/-- `KeyStatus(text)` -/
def keyStatus? (text : String) : Option KeyStatus :=
  [.active, .pendingRotation, .rotationInProgress, .deprecated, .revoked, .expired].find?
    (·.value = text)

/-- No text of the database has the character zero. -/
def isText (s : String) : Bool := s.toList.all (· ≠ Char.ofNat 0)

/-- What `VARCHAR(n)` makes of a text: spaces that are too many are cut off. -/
def varchar (n : Nat) (s : String) : Option String :=
  if isText s = false then none
  else if s.length ≤ n then some s
  else if (s.toList.drop n).all (· = ' ') then some (String.ofList (s.toList.take n))
  else none

def integer (n : Int) : Option Int :=
  if -2147483648 ≤ n ∧ n < 2147483648 then some n else none

/-- The order of the keys of an object, which `jsonb` does not keep, is kept here. -/
def jsonb (tags : List (String × String)) : Option (List (String × String)) :=
  if tags.all fun tag => isText tag.1 && isText tag.2 then some tags else none

/-- The columns that are set by an `INSERT` alone. -/
structure Fixed where
  keyId : String
  keyData : List UInt8
  keyType : String
  algorithm : String
  keySize : Int
  serviceName : String
  createdAt : Time
  expiresAt : Time
  deriving DecidableEq

/-- The columns of `UPDATE key_store SET`. -/
structure Columns where
  status : String
  version : Int
  parentKeyId : Option String
  rotationPolicyId : Option String
  tags : List (String × String)
  deriving DecidableEq

structure Row extends Fixed, Columns
  deriving DecidableEq

/-- The values as their columns hold them, `none` when one does not. -/
def Fixed.held (f : Fixed) : Option Fixed := do
  let keyId ← varchar 255 f.keyId
  let keyType ← varchar 50 f.keyType
  let algorithm ← varchar 100 f.algorithm
  let keySize ← integer f.keySize
  let serviceName ← varchar 100 f.serviceName
  pure { f with keyId, keyType, algorithm, keySize, serviceName }

/-- A text or `NULL`. -/
def nullable (n : Nat) : Option String → Option (Option String)
  | none => some none
  | some s => (varchar n s).map some

def Columns.held (c : Columns) : Option Columns := do
  let status ← varchar 50 c.status
  let version ← integer c.version
  let parentKeyId ← nullable 255 c.parentKeyId
  let rotationPolicyId ← nullable 255 c.rotationPolicyId
  let tags ← jsonb c.tags
  pure { status, version, parentKeyId, rotationPolicyId, tags }

def Row.held (row : Row) : Option Row := do
  let fixed ← row.toFixed.held
  let columns ← row.toColumns.held
  pure ⟨fixed, columns⟩

theorem varchar_held {n : Nat} {s s' : String} (h : varchar n s = some s') :
    varchar n s' = some s' := by
  unfold varchar at h
  split at h
  case isTrue => cases h
  case isFalse htext =>
    split at h
    case isTrue hlength =>
      obtain rfl := Option.some.inj h
      rw [varchar, if_neg htext, if_pos hlength]
    case isFalse hlength =>
      split at h
      case isTrue =>
        obtain rfl := Option.some.inj h
        have htext' : isText (String.ofList (s.toList.take n)) = true := by
          simp only [isText, Bool.not_eq_false, String.toList_ofList, List.all_eq_true] at htext ⊢
          exact fun c hc => htext c (List.mem_of_mem_take hc)
        rw [varchar, if_neg (by simp [htext']), if_pos (by simp)]
      case isFalse => cases h

theorem integer_eq_some {n m : Int} (h : integer n = some m) : m = n := by
  unfold integer at h
  split at h
  · exact (Option.some.inj h).symm
  · cases h

theorem integer_held {n m : Int} (h : integer n = some m) : integer m = some m := by
  obtain rfl := integer_eq_some h
  exact h

theorem jsonb_eq_some {tags tags' : List (String × String)} (h : jsonb tags = some tags') :
    tags' = tags := by
  unfold jsonb at h
  split at h
  · exact (Option.some.inj h).symm
  · cases h

theorem jsonb_held {tags tags' : List (String × String)} (h : jsonb tags = some tags') :
    jsonb tags' = some tags' := by
  obtain rfl := jsonb_eq_some h
  exact h

theorem nullable_held {n : Nat} {s s' : Option String} (h : nullable n s = some s') :
    nullable n s' = some s' := by
  cases s with
  | none =>
    obtain rfl := Option.some.inj h
    rfl
  | some s =>
    obtain ⟨t, ht, rfl⟩ := Option.map_eq_some_iff.mp h
    rw [nullable, varchar_held ht, Option.map_some]

theorem Fixed.held_eq_some {f f' : Fixed} : f.held = some f' ↔
    varchar 255 f.keyId = some f'.keyId ∧ varchar 50 f.keyType = some f'.keyType ∧
      varchar 100 f.algorithm = some f'.algorithm ∧ integer f.keySize = some f'.keySize ∧
      varchar 100 f.serviceName = some f'.serviceName ∧ f'.keyData = f.keyData ∧
      f'.createdAt = f.createdAt ∧ f'.expiresAt = f.expiresAt := by
  simp only [Fixed.held, Option.bind_eq_bind, Option.bind_eq_some_iff, Option.pure_def,
    Option.some.injEq]
  constructor
  · rintro ⟨keyId, hkeyId, keyType, hkeyType, algorithm, halgorithm, keySize, hkeySize,
      serviceName, hserviceName, rfl⟩
    exact ⟨hkeyId, hkeyType, halgorithm, hkeySize, hserviceName, rfl, rfl, rfl⟩
  · rintro ⟨hkeyId, hkeyType, halgorithm, hkeySize, hserviceName, hdata, hcreated, hexpires⟩
    refine ⟨_, hkeyId, _, hkeyType, _, halgorithm, _, hkeySize, _, hserviceName, ?_⟩
    rw [← hdata, ← hcreated, ← hexpires]

theorem Columns.held_eq_some {c c' : Columns} : c.held = some c' ↔
    varchar 50 c.status = some c'.status ∧ integer c.version = some c'.version ∧
      nullable 255 c.parentKeyId = some c'.parentKeyId ∧
      nullable 255 c.rotationPolicyId = some c'.rotationPolicyId ∧
      jsonb c.tags = some c'.tags := by
  simp only [Columns.held, Option.bind_eq_bind, Option.bind_eq_some_iff, Option.pure_def,
    Option.some.injEq]
  constructor
  · rintro ⟨status, hstatus, version, hversion, parent, hparent, policy, hpolicy, tags, htags, rfl⟩
    exact ⟨hstatus, hversion, hparent, hpolicy, htags⟩
  · rintro ⟨hstatus, hversion, hparent, hpolicy, htags⟩
    exact ⟨_, hstatus, _, hversion, _, hparent, _, hpolicy, _, htags, rfl⟩

theorem Row.held_eq_some {row row' : Row} : row.held = some row' ↔
    row.toFixed.held = some row'.toFixed ∧ row.toColumns.held = some row'.toColumns := by
  simp only [Row.held, Option.bind_eq_bind, Option.bind_eq_some_iff, Option.pure_def,
    Option.some.injEq]
  constructor
  · rintro ⟨fixed, hfixed, columns, hcolumns, rfl⟩
    exact ⟨hfixed, hcolumns⟩
  · rintro ⟨hfixed, hcolumns⟩
    exact ⟨_, hfixed, _, hcolumns, rfl⟩

/-- What a column holds it holds as it is. -/
theorem Fixed.held_held {f f' : Fixed} (h : f.held = some f') : f'.held = some f' := by
  obtain ⟨hkeyId, hkeyType, halgorithm, hkeySize, hserviceName, -, -, -⟩ := held_eq_some.mp h
  exact held_eq_some.mpr ⟨varchar_held hkeyId, varchar_held hkeyType, varchar_held halgorithm,
    integer_held hkeySize, varchar_held hserviceName, rfl, rfl, rfl⟩

theorem Columns.held_held {c c' : Columns} (h : c.held = some c') : c'.held = some c' := by
  obtain ⟨hstatus, hversion, hparent, hpolicy, htags⟩ := held_eq_some.mp h
  exact held_eq_some.mpr ⟨varchar_held hstatus, integer_held hversion, nullable_held hparent,
    nullable_held hpolicy, jsonb_held htags⟩

theorem Row.held_held {row row' : Row} (h : row.held = some row') : row'.held = some row' := by
  obtain ⟨hfixed, hcolumns⟩ := held_eq_some.mp h
  exact held_eq_some.mpr ⟨Fixed.held_held hfixed, Columns.held_held hcolumns⟩

/-- The rows of `key_store`. -/
structure KeyTable where
  rows : List Row
  primaryKey : (rows.map (·.keyId)).Nodup
  held : ∀ row ∈ rows, row.held = some row

namespace KeyTable

def empty : KeyTable := ⟨[], List.nodup_nil, fun _ h => absurd h List.not_mem_nil⟩

variable (t : KeyTable)

def get (keyId : String) : Option Row := Table.get (·.keyId) keyId t.rows

theorem held_append {row row' : Row} (h : row.held = some row') :
    ∀ r ∈ t.rows ++ [row'], r.held = some r := by
  intro r hr
  rcases List.mem_append.mp hr with hr | hr
  · exact t.held r hr
  · rw [List.mem_singleton.mp hr]
    exact Row.held_held h

/-- `none` when a column does not hold its value or the insertion breaks the primary key. -/
def insert (row : Row) : Option KeyTable :=
  match hheld : row.held with
  | none => none
  | some row' =>
    if hnew : row'.keyId ∈ t.rows.map (·.keyId) then none
    else some ⟨t.rows ++ [row'], Table.nodup_append_singleton t.primaryKey hnew,
      t.held_append hheld⟩

def setColumns (c : Columns) (row : Row) : Row := { row with toColumns := c }

theorem held_update {c c' : Columns} (h : c.held = some c') (keyId : String) :
    ∀ r ∈ Table.modify (·.keyId) keyId (setColumns c') t.rows, r.held = some r := by
  intro r hr
  rcases Table.mem_modify.mp hr with ⟨row, hrow, -, rfl⟩ | ⟨hr, -⟩
  · exact Row.held_eq_some.mpr ⟨(Row.held_eq_some.mp (t.held row hrow)).1, Columns.held_held h⟩
  · exact t.held r hr

def update (keyId : String) (c : Columns) : Option KeyTable :=
  match hheld : c.held with
  | none => none
  | some c' =>
    some ⟨Table.modify (·.keyId) keyId (setColumns c') t.rows,
      Table.nodup_modify (fun _ => rfl) t.primaryKey, t.held_update hheld keyId⟩

variable {t} {t' : KeyTable} {row : Row} {keyId : String} {c : Columns}

theorem insert_eq_some (h : t.insert row = some t') : ∃ row', row.held = some row' ∧
    row'.keyId ∉ t.rows.map (·.keyId) ∧ t'.rows = t.rows ++ [row'] := by
  unfold insert at h
  split at h
  case h_1 => cases h
  case h_2 row' hheld =>
    split at h
    case isTrue => cases h
    case isFalse hnew =>
      obtain rfl := Option.some.inj h
      exact ⟨row', hheld, hnew, rfl⟩

theorem update_eq_some (h : t.update keyId c = some t') : ∃ c', c.held = some c' ∧
    t'.rows = Table.modify (·.keyId) keyId (setColumns c') t.rows := by
  unfold update at h
  split at h
  case h_1 => cases h
  case h_2 c' hheld =>
    obtain rfl := Option.some.inj h
    exact ⟨c', hheld, rfl⟩

theorem update_eq_none (h : t.update keyId c = none) : c.held = none := by
  unfold update at h
  split at h
  case h_1 hheld => exact hheld
  case h_2 => cases h

theorem insert_of_held (hheld : row.held = some row) (hnew : row.keyId ∉ t.rows.map (·.keyId)) :
    ∃ t', t.insert row = some t' ∧ t'.rows = t.rows ++ [row] := by
  unfold insert
  split
  case h_1 hnone =>
    rw [hheld] at hnone
    cases hnone
  case h_2 row' hsome =>
    obtain rfl := Option.some.inj (hheld.symm.trans hsome)
    rw [dif_neg hnew]
    exact ⟨_, rfl, rfl⟩

theorem get_eq_some (h : t.get keyId = some row) : row ∈ t.rows ∧ row.keyId = keyId :=
  ⟨List.mem_of_find?_eq_some h, by simpa using List.find?_some h⟩

theorem get_of_mem (h : row ∈ t.rows) : t.get row.keyId = some row := by
  cases hget : t.get row.keyId with
  | none => exact absurd (decide_eq_true rfl) (List.find?_eq_none.mp hget row h)
  | some row' =>
    obtain ⟨hmem, hkey⟩ := get_eq_some hget
    rw [List.inj_on_of_nodup_map t.primaryKey hmem h hkey]

end KeyTable

/-- How the connector hands a `jsonb` column over. -/
inductive JsonColumn
  | text | decoded

/-- `json.loads(tags) if tags else {}`, which does not take a dictionary that is not empty. -/
def JsonColumn.loads (tags : List (String × String)) :
    JsonColumn → Option (List (String × String))
  | .text => some tags
  | .decoded => if tags = [] then some [] else none

def Row.metadata (json : JsonColumn) (row : Row) : Option KeyMetadata := do
  let keyType ← keyType? row.keyType
  let status ← keyStatus? row.status
  let tags ← json.loads row.tags
  pure
    { keyId := row.keyId
      keyType := keyType
      algorithm := row.algorithm
      keySize := row.keySize
      serviceName := row.serviceName
      createdAt := row.createdAt
      expiresAt := row.expiresAt
      status := status
      version := row.version
      parentKeyId := row.parentKeyId
      rotationPolicyId := row.rotationPolicyId
      tags := tags }

def columns (m : KeyMetadata) : Columns where
  status := m.status.value
  version := m.version
  parentKeyId := m.parentKeyId
  rotationPolicyId := m.rotationPolicyId
  tags := m.tags

def row (keyId : String) (keyData : List UInt8) (m : KeyMetadata) : Row where
  keyId := keyId
  keyData := keyData
  keyType := m.keyType.value
  algorithm := m.algorithm
  keySize := m.keySize
  serviceName := m.serviceName
  createdAt := m.createdAt
  expiresAt := m.expiresAt
  toColumns := columns m

/-- A call of the connector returns, or raises before or after the statement has run. -/
inductive Call
  | returns | raisesBefore | raisesAfter
  deriving DecidableEq

/-- An exception makes the answer `False`. -/
def execute (call : Call) (t : KeyTable) : Option KeyTable → Bool × KeyTable
  | none => (false, t)
  | some t' =>
    match call with
    | .returns => (true, t')
    | .raisesBefore => (false, t)
    | .raisesAfter => (false, t')

def storeKey (call : Call) (keyId : String) (keyData : List UInt8) (metadata : KeyMetadata)
    (t : KeyTable) : Bool × KeyTable :=
  execute call t (t.insert (row keyId keyData metadata))

def updateKeyMetadata (call : Call) (keyId : String) (metadata : KeyMetadata) (t : KeyTable) :
    Bool × KeyTable :=
  execute call t (t.update keyId (columns metadata))

/-- `none` also when the connector or the reading of the row raises. -/
def getKey (json : JsonColumn) (call : Call) (keyId : String) (t : KeyTable) :
    Option (List UInt8 × KeyMetadata) :=
  if call = .returns then
    (t.get keyId).bind fun row => (row.metadata json).map fun metadata => (row.keyData, metadata)
  else none

/-- The conditions of `list_keys`; an empty service is none. -/
def Row.meets (serviceName : Option String) (keyType : Option KeyType) (row : Row) : Bool :=
  (serviceName.filter (· ≠ "")).all (· = row.serviceName) && keyType.all (·.value = row.keyType)

/-- What the connector may fetch; keys of one time come in any order. -/
def Fetched (t : KeyTable) (serviceName : Option String) (keyType : Option KeyType)
    (rows : List Row) : Prop :=
  rows.Perm (t.rows.filter (Row.meets serviceName keyType)) ∧
    rows.Pairwise fun a b => b.createdAt ≤ a.createdAt

instance (t : KeyTable) (serviceName : Option String) (keyType : Option KeyType)
    (rows : List Row) : Decidable (Fetched t serviceName keyType rows) :=
  inferInstanceAs (Decidable (_ ∧ _))

/-- One row that cannot be read leaves none. -/
def listKeys (json : JsonColumn) (call : Call) (rows : List Row) : List KeyMetadata :=
  if call = .returns then (rows.mapM (Row.metadata json)).getD [] else []

section

variable {json : JsonColumn} {call : Call} {t : KeyTable} {row : Row} {m : KeyMetadata}
  {keyId : String}

theorem keyType?_eq_some {text : String} {keyType : KeyType} (h : keyType? text = some keyType) :
    keyType.value = text := by
  simpa using List.find?_some h

theorem metadata_eq_some (h : row.metadata json = some m) : m.keyId = row.keyId ∧
    m.keyType.value = row.keyType ∧ m.algorithm = row.algorithm ∧ m.keySize = row.keySize ∧
    m.serviceName = row.serviceName ∧ m.version = row.version ∧
    m.parentKeyId = row.parentKeyId ∧ m.rotationPolicyId = row.rotationPolicyId := by
  simp only [Row.metadata, Option.bind_eq_bind, Option.bind_eq_some_iff, Option.pure_def,
    Option.some.injEq] at h
  obtain ⟨keyType, hkeyType, status, -, tags, -, rfl⟩ := h
  exact ⟨rfl, keyType?_eq_some hkeyType, rfl, rfl, rfl, rfl, rfl, rfl⟩

theorem getKey_eq_some {keyData : List UInt8}
    (h : getKey json call keyId t = some (keyData, m)) :
    ∃ row ∈ t.rows, row.keyId = keyId ∧ row.metadata json = some m := by
  unfold getKey at h
  split at h
  case isTrue =>
    obtain ⟨row, hrow, h⟩ := Option.bind_eq_some_iff.mp h
    obtain ⟨metadata, hmetadata, heq⟩ := Option.map_eq_some_iff.mp h
    obtain ⟨hmem, hkey⟩ := KeyTable.get_eq_some hrow
    exact ⟨row, hmem, hkey, hmetadata.trans (congrArg some (Prod.mk.inj heq).2)⟩
  case isFalse => cases h

theorem mem_of_mapM {rows : List Row} {ms : List KeyMetadata}
    (h : rows.mapM (Row.metadata json) = some ms) (hm : m ∈ ms) :
    ∃ row ∈ rows, row.metadata json = some m := by
  induction rows generalizing ms with
  | nil =>
    obtain rfl := Option.some.inj h
    cases hm
  | cons row rows ih =>
    rw [List.mapM_cons] at h
    obtain ⟨first, hfirst, h⟩ := Option.bind_eq_some_iff.mp h
    obtain ⟨rest, hrest, h⟩ := Option.bind_eq_some_iff.mp h
    obtain rfl := Option.some.inj h
    rcases List.mem_cons.mp hm with rfl | hm
    · exact ⟨row, List.mem_cons_self, hfirst⟩
    · obtain ⟨row', hrow', hmetadata⟩ := ih hrest hm
      exact ⟨row', List.mem_cons_of_mem _ hrow', hmetadata⟩

theorem mem_listKeys {rows : List Row} (h : m ∈ listKeys json call rows) :
    ∃ row ∈ rows, row.metadata json = some m := by
  unfold listKeys at h
  split at h
  case isTrue =>
    cases hread : rows.mapM (Row.metadata json) with
    | none => simp [hread] at h
    | some ms => exact mem_of_mapM hread (by simpa [hread] using h)
  case isFalse => cases h

end

end DatabaseKeyStore

end Marty.Security
