import Marty.Lib.Forest
import Marty.Security.DatabaseKeyStore

/-! `KeyRotationManager` over the database, statement by statement.  The calls of its operations,
the rotations of its executor, the passes of its loop and the threads that wait out a grace period
take their statements in any order, any call of the connector may raise, and a thread may end with
its process. -/

namespace Marty.Security.RotationThreads

open Lib Lib.Datetime Lib.Forest Lib.Run KeyRotation DatabaseKeyStore

/-- Where a thread stands, with the metadata objects that it holds. -/
inductive Task
  | create (spec : KeySpec)
  | rotate (keyId : String)
  | mark (keyId : String) (old : KeyMetadata)
  | succeed (keyId : String) (old : KeyMetadata)
  | revert (keyId : String) (old : KeyMetadata)
  | find (keyId : String) (old : KeyMetadata) (newKeyId : String)
  | link (keyId : String) (old : KeyMetadata) (newKeyId : String) (new : KeyMetadata)
  /-- `deprecate_old_key` sleeps. -/
  | grace (keyId : String) (old : KeyMetadata)
  | revoke (keyId reason : String)
  | revoking (keyId : String) (metadata : KeyMetadata)
  | check
  | checking (keys : List KeyMetadata)

/-- What a statement meets outside. -/
structure Answer extends Env where
  call : Call := .returns
  rows : List Row := []

def createKey (answer : Answer) (spec : KeySpec) (t : KeyTable) : Option String × KeyTable :=
  match answer.keyData.filter (· ≠ []) with
  | none => (none, t)
  | some keyData =>
    match storeKey answer.call (spec.keyId answer.toEnv) keyData (spec.metadata answer.toEnv) t with
    | (true, t) => (some (spec.keyId answer.toEnv), t)
    | (false, t) => (none, t)

/-- The loop body of `_check_for_rotations`. -/
def checkKey (answer : Answer) (policies : Policies) (t : KeyTable) (k : KeyMetadata) :
    KeyTable × List Task :=
  if k.status ≠ .active ∧ k.status ≠ .deprecated then (t, [])
  else if k.isExpired answer.now then
    ((updateKeyMetadata answer.call k.keyId { k with status := .expired } t).2, [])
  else if (policy? policies k).any (·.shouldRotate k answer.now) then (t, [.rotate k.keyId])
  else (t, [])

/-- The table after the next statement of a thread, and the threads in place of it. -/
def advance (json : JsonColumn) (policies : Policies) (answer : Answer) (t : KeyTable) :
    Task → KeyTable × List Task
  | .create spec => ((createKey answer spec t).2, [])
  | .rotate keyId =>
    match getKey json answer.call keyId t with
    | none => (t, [])
    | some (_, old) => (t, [.mark keyId { old with status := .pendingRotation }])
  | .mark keyId old => ((updateKeyMetadata answer.call keyId old t).2, [.succeed keyId old])
  | .succeed keyId old =>
    match createKey answer old.successor t with
    | (none, t) => (t, [.revert keyId old])
    | (some newKeyId, t) => (t, [.find keyId old newKeyId])
  | .revert keyId old =>
    ((updateKeyMetadata answer.call keyId { old with status := .active } t).2, [])
  | .find keyId old newKeyId =>
    match getKey json answer.call newKeyId t with
    | none => (t, [.grace keyId old])
    | some (_, new) => (t, [.link keyId old newKeyId new])
  | .link keyId old newKeyId new =>
    ((updateKeyMetadata answer.call newKeyId
      { new with parentKeyId := some keyId, version := old.version + 1 } t).2, [.grace keyId old])
  | .grace keyId old =>
    ((updateKeyMetadata answer.call keyId { old with status := .deprecated } t).2, [])
  | .revoke keyId reason =>
    match getKey json answer.call keyId t with
    | none => (t, [])
    | some (_, metadata) => (t, [.revoking keyId (revokeMetadata reason answer.now metadata)])
  | .revoking keyId metadata => ((updateKeyMetadata answer.call keyId metadata t).2, [])
  | .check => (t, [.checking (listKeys json answer.call answer.rows)])
  | .checking [] => (t, [])
  | .checking (k :: keys) =>
    let (t, submitted) := checkKey answer policies t k
    (t, .checking keys :: submitted)

structure State where
  table : KeyTable := .empty
  policies : Policies := []
  tasks : List Task := []

inductive Label
  | createKey (spec : KeySpec)
  | rotateKey (keyId : String)
  | revokeKey (keyId reason : String)
  | checkForRotations
  | setPolicies (policies : Policies)
  | advance (i : Nat) (answer : Answer)
  | abandon (i : Nat)

/-- A thread that lists the keys gets rows of the table. -/
def Answer.Fits (answer : Answer) (t : KeyTable) : Task → Prop
  | .check => Fetched t none none answer.rows
  | _ => True

instance (answer : Answer) (t : KeyTable) (task : Task) : Decidable (answer.Fits t task) :=
  match task with
  | .check => inferInstanceAs (Decidable (Fetched t none none answer.rows))
  | .create _ | .rotate _ | .mark _ _ | .succeed _ _ | .revert _ _ | .find _ _ _ | .link _ _ _ _
  | .grace _ _ | .revoke _ _ | .revoking _ _ | .checking _ => .isTrue trivial

def State.start (s : State) (task : Task) : State := { s with tasks := s.tasks ++ [task] }

def step (json : JsonColumn) (s : State) : Label → Option State
  | .createKey spec => some (s.start (.create spec))
  | .rotateKey keyId => some (s.start (.rotate keyId))
  | .revokeKey keyId reason => some (s.start (.revoke keyId reason))
  | .checkForRotations => some (s.start .check)
  | .setPolicies policies => some { s with policies := policies }
  | .advance i answer =>
    match s.tasks[i]? with
    | none => none
    | some task =>
      if answer.Fits s.table task then
        let (table, tasks) := RotationThreads.advance json s.policies answer s.table task
        some { s with table := table, tasks := s.tasks.eraseIdx i ++ tasks }
      else none
  | .abandon i => if i < s.tasks.length then some { s with tasks := s.tasks.eraseIdx i } else none

/-! What an insertion settles. -/

/-- What a key and its successor have in common. -/
structure Kind where
  serviceName : String
  keyType : String
  algorithm : String
  keySize : Int
  rotationPolicyId : Option String

def kindOf (m : KeyMetadata) : Kind where
  serviceName := m.serviceName
  keyType := m.keyType.value
  algorithm := m.algorithm
  keySize := m.keySize
  rotationPolicyId := m.rotationPolicyId

/-- The part of a row that no statement changes: an update writes the policy that it has read. -/
abbrev Entry := Fixed × Option String

def Entry.kind (e : Entry) : Kind where
  serviceName := e.1.serviceName
  keyType := e.1.keyType
  algorithm := e.1.algorithm
  keySize := e.1.keySize
  rotationPolicyId := e.2

def entry (row : Row) : Entry := (row.toFixed, row.rotationPolicyId)

def entries (t : KeyTable) : List Entry := t.rows.map entry

/-- The parent and the version that the rotation which creates a key means for it. -/
abbrev Links := String → Option (String × Int)

/-- A key has no parent and the first version, or what is meant for it. -/
def Attached (links : Links) (keyId : String) (parentKeyId : Option String) (version : Int) :
    Prop :=
  (parentKeyId = none ∧ version = 1) ∨
    ∃ p, parentKeyId = some p ∧ links keyId = some (p, version)

/-- The key comes after its parent and is of the same kind. -/
def Joined (es : List Entry) (keyId p : String) (version : Int) : Prop :=
  ∃ (i j : Nat) (parent child : Entry), i < j ∧ es[i]? = some parent ∧ es[j]? = some child ∧
    parent.1.keyId = p ∧ child.1.keyId = keyId ∧ child.kind = parent.kind ∧ 2 ≤ version ∧
    version ≤ j + 1

structure TableOk (links : Links) (t : KeyTable) : Prop where
  attached : ∀ row ∈ t.rows, Attached links row.keyId row.parentKeyId row.version
  joined : ∀ keyId p version, links keyId = some (p, version) → Joined (entries t) keyId p version

/-- The metadata object has been read from the row of the key, now or in the past. -/
structure Copies (links : Links) (es : List Entry) (keyId : String) (m : KeyMetadata) : Prop where
  entry : ∃ e ∈ es, e.1.keyId = keyId ∧ e.kind = kindOf m
  attached : Attached links keyId m.parentKeyId m.version

/-- The new key of a rotation, unless its identifier has been cut off. -/
def Born (links : Links) (es : List Entry) (keyId newKeyId : String) (version : Int) : Prop :=
  varchar 255 newKeyId = some newKeyId →
    (∃ e ∈ es, e.1.keyId = newKeyId) ∧ links newKeyId = some (keyId, version)

def Task.Ok (links : Links) (es : List Entry) : Task → Prop
  | .create _ | .rotate _ | .revoke _ _ | .check => True
  | .mark keyId m | .succeed keyId m | .revert keyId m | .grace keyId m | .revoking keyId m =>
    Copies links es keyId m
  | .find keyId old newKeyId =>
    Copies links es keyId old ∧ Born links es keyId newKeyId (old.version + 1)
  | .link keyId old newKeyId new =>
    Copies links es keyId old ∧ Copies links es newKeyId new ∧
      links newKeyId = some (keyId, old.version + 1)
  | .checking keys => ∀ m ∈ keys, Copies links es m.keyId m

/-- What is meant for the keys that are there stays. -/
def Extends (links links' : Links) (es : List Entry) : Prop :=
  ∀ e ∈ es, links' e.1.keyId = links e.1.keyId

section

variable {links links' : Links} {es es' : List Entry} {t t' : KeyTable} {keyId newKeyId : String}
  {m old new : KeyMetadata} {answer : Answer} {json : JsonColumn} {policies : Policies}
  {task : Task}

theorem Joined.mono {p : String} {version : Int} (h : Joined es keyId p version)
    (hes : es <+: es') : Joined es' keyId p version := by
  obtain ⟨i, j, parent, child, hlt, hparent, hchild, rest⟩ := h
  obtain ⟨added, rfl⟩ := hes
  have hold : ∀ {n e}, es[n]? = some e → (es ++ added)[n]? = some e := fun h =>
    (List.getElem?_append_left (List.getElem?_eq_some_iff.mp h).1).trans h
  exact ⟨i, j, parent, child, hlt, hold hparent, hold hchild, rest⟩

theorem Copies.mono (h : Copies links es keyId m) (hlinks : Extends links links' es)
    (hes : es <+: es') : Copies links' es' keyId m := by
  obtain ⟨⟨e, he, hkey, hkind⟩, hattached⟩ := h
  refine ⟨⟨e, hes.subset he, hkey, hkind⟩, hattached.imp_right ?_⟩
  rintro ⟨p, hp, hlink⟩
  exact ⟨p, hp, by rw [← hkey, hlinks e he, hkey, hlink]⟩

theorem Born.mono {version : Int} (h : Born links es keyId newKeyId version)
    (hlinks : Extends links links' es) (hes : es <+: es') :
    Born links' es' keyId newKeyId version := by
  intro hheld
  obtain ⟨⟨e, he, hkey⟩, hlink⟩ := h hheld
  exact ⟨⟨e, hes.subset he, hkey⟩, by rw [← hkey, hlinks e he, hkey, hlink]⟩

theorem Task.Ok.mono (h : task.Ok links es) (hlinks : Extends links links' es)
    (hes : es <+: es') : task.Ok links' es' := by
  cases task with
  | create | rotate | revoke | check => trivial
  | mark | succeed | revert | grace | revoking => exact Copies.mono h hlinks hes
  | find => exact ⟨h.1.mono hlinks hes, h.2.mono hlinks hes⟩
  | link keyId old newKeyId new =>
    obtain ⟨hold, hnew, hlink⟩ := h
    obtain ⟨e, he, hkey, -⟩ := hnew.entry
    refine ⟨hold.mono hlinks hes, hnew.mono hlinks hes, ?_⟩
    rw [← hkey, hlinks e he, hkey, hlink]
  | checking keys => exact fun m hm => (h m hm).mono hlinks hes

theorem Extends.refl : Extends links links es := fun _ _ => rfl

theorem mem_entries {e : Entry} : e ∈ entries t ↔ ∃ row ∈ t.rows, entry row = e := List.mem_map

/-- Metadata that has just been read. -/
theorem copies_of_metadata {row : Row} (ht : TableOk links t) (hrow : row ∈ t.rows)
    (hm : row.metadata json = some m) : Copies links (entries t) row.keyId m := by
  obtain ⟨-, htype, halgorithm, hsize, hservice, hversion, hparent, hpolicy⟩ := metadata_eq_some hm
  refine ⟨⟨entry row, mem_entries.mpr ⟨row, hrow, rfl⟩, rfl, ?_⟩, ?_⟩
  · simp only [Entry.kind, entry, kindOf, htype, halgorithm, hsize, hservice, hpolicy]
  · rw [hversion, hparent]
    exact ht.attached row hrow

theorem copies_of_getKey {call : Call} {keyData : List UInt8} (ht : TableOk links t)
    (h : getKey json call keyId t = some (keyData, m)) :
    Copies links (entries t) keyId m ∧ varchar 255 keyId = some keyId := by
  obtain ⟨row, hrow, rfl, hm⟩ := getKey_eq_some h
  exact ⟨copies_of_metadata ht hrow hm,
    (Fixed.held_eq_some.mp (Row.held_eq_some.mp (t.held row hrow)).1).1⟩

/-- Rows with one key are one row, and so are their entries. -/
theorem entries_inj {i j : Nat} {e e' : Entry} (hi : (entries t)[i]? = some e)
    (hj : (entries t)[j]? = some e') (h : e.1.keyId = e'.1.keyId) : i = j := by
  have hnodup : ((entries t).map (·.1.keyId)).Nodup := by
    simpa [entries, entry, Function.comp_def] using t.primaryKey
  have hlt : i < ((entries t).map (·.1.keyId)).length := by
    simpa using (List.getElem?_eq_some_iff.mp hi).1
  refine (List.getElem?_inj hlt hnodup).mp ?_
  rw [List.getElem?_map, List.getElem?_map, hi, hj, Option.map_some, Option.map_some, h]

/-- The parent that is meant for a key has an identifier of a row. -/
theorem TableOk.varchar_parent {p : String} {version : Int} (ht : TableOk links t)
    (h : links keyId = some (p, version)) : varchar 255 p = some p := by
  obtain ⟨i, j, parent, child, -, hparent, -, rfl, -⟩ := ht.joined keyId p version h
  obtain ⟨row, hrow, rfl⟩ := mem_entries.mp (List.mem_of_getElem? hparent)
  exact (Fixed.held_eq_some.mp (Row.held_eq_some.mp (t.held row hrow)).1).1

theorem Attached.held {c : Columns} (ht : TableOk links t)
    (h : Attached links keyId m.parentKeyId m.version) (hc : (columns m).held = some c) :
    Attached links keyId c.parentKeyId c.version := by
  obtain ⟨-, hversion, hparent, -⟩ := Columns.held_eq_some.mp hc
  have hversion : c.version = m.version := integer_eq_some hversion
  change nullable 255 m.parentKeyId = _ at hparent
  rcases h with ⟨hnone, hfirst⟩ | ⟨p, hp, hlink⟩
  · rw [hnone] at hparent
    exact .inl ⟨(Option.some.inj hparent).symm, hversion.trans hfirst⟩
  · rw [hp, nullable, ht.varchar_parent hlink] at hparent
    exact .inr ⟨p, (Option.some.inj hparent).symm, hversion ▸ hlink⟩

/-- Writing back what has been read leaves the entries, and the rows stay attached. -/
theorem update_spec (ht : TableOk links t) (hm : Copies links (entries t) keyId m) (call : Call) :
    entries (updateKeyMetadata call keyId m t).2 = entries t ∧
      TableOk links (updateKeyMetadata call keyId m t).2 := by
  unfold updateKeyMetadata
  cases hupdate : t.update keyId (columns m) with
  | none => exact ⟨rfl, ht⟩
  | some t' =>
    obtain ⟨c, hc, hrows⟩ := KeyTable.update_eq_some hupdate
    have hpolicy : ∀ row ∈ t.rows, row.keyId = keyId →
        c.rotationPolicyId = row.rotationPolicyId := by
      intro row hrow hkey
      obtain ⟨⟨e, he, hkey', hkind⟩, -⟩ := hm
      obtain ⟨row', hrow', rfl⟩ := mem_entries.mp he
      obtain rfl := List.inj_on_of_nodup_map t.primaryKey hrow hrow' (hkey.trans hkey'.symm)
      have hsame : row.rotationPolicyId = m.rotationPolicyId := congrArg Kind.rotationPolicyId hkind
      have hheld := (Columns.held_eq_some.mp (Row.held_eq_some.mp (t.held row hrow)).2).2.2.2.1
      have hwritten := (Columns.held_eq_some.mp hc).2.2.2.1
      rw [hsame] at hheld ⊢
      exact Option.some.inj (hwritten.symm.trans hheld)
    have hentries : entries t' = entries t := by
      rw [entries, hrows]
      exact Table.map_modify fun row hrow hkey => congrArg (row.toFixed, ·) (hpolicy row hrow hkey)
    have htable : TableOk links t' := by
      refine ⟨fun row hrow => ?_, hentries ▸ ht.joined⟩
      rw [hrows] at hrow
      rcases Table.mem_modify.mp hrow with ⟨old, hold, hkey, rfl⟩ | ⟨hrow, -⟩
      · exact hkey ▸ hm.attached.held ht hc
      · exact ht.attached row hrow
    cases call with
    | returns => exact ⟨hentries, htable⟩
    | raisesBefore => exact ⟨rfl, ht⟩
    | raisesAfter => exact ⟨hentries, htable⟩

/-- A key that is created, under the identifier it has been given unless that is cut off. -/
inductive Created (spec : KeySpec) (env : Env) (t : KeyTable) : Option String → KeyTable → Prop
  | failed : Created spec env t none t
  | stored {t' : KeyTable} {row row' : Row} {answered : Option String}
      (hfixed : row.toFixed.held = some row'.toFixed)
      (hkind : (entry row).kind = kindOf (spec.metadata env))
      (hpolicy : nullable 255 row.rotationPolicyId = some row'.rotationPolicyId)
      (hkey : row.keyId = spec.keyId env) (hparent : row'.parentKeyId = none)
      (hversion : row'.version = 1) (hnew : row'.keyId ∉ t.rows.map (·.keyId))
      (hrows : t'.rows = t.rows ++ [row'])
      (hanswered : ∀ k, answered = some k → k = spec.keyId env) : Created spec env t answered t'

theorem createKey_created (answer : Answer) (spec : KeySpec) (t : KeyTable) :
    Created spec answer.toEnv t (createKey answer spec t).1 (createKey answer spec t).2 := by
  unfold createKey
  split
  case h_1 => exact .failed
  case h_2 keyData _ =>
    unfold storeKey
    cases hinsert :
        t.insert (row (spec.keyId answer.toEnv) keyData (spec.metadata answer.toEnv)) with
    | none => exact .failed
    | some t' =>
      obtain ⟨row', hheld, hnew, hrows⟩ := KeyTable.insert_eq_some hinsert
      obtain ⟨hfixed, hcolumns⟩ := Row.held_eq_some.mp hheld
      obtain ⟨-, hversion, hparent, hpolicy, -⟩ := Columns.held_eq_some.mp hcolumns
      have hstored : ∀ answered : Option String,
          (∀ k, answered = some k → k = spec.keyId answer.toEnv) →
          Created spec answer.toEnv t answered t' := fun answered hanswered =>
        .stored hfixed rfl hpolicy rfl (Option.some.inj hparent).symm (integer_eq_some hversion)
          hnew hrows hanswered
      cases answer.call with
      | returns => exact hstored _ fun k hk => (Option.some.inj hk).symm
      | raisesBefore => exact .failed
      | raisesAfter => exact hstored none fun k hk => by cases hk

theorem entries_append {row : Row} (hrows : t'.rows = t.rows ++ [row]) :
    entries t' = entries t ++ [entry row] := by
  rw [entries, hrows, List.map_append, List.map_singleton, entries]

/-- A new row stands on its own, whatever else is meant for its key. -/
theorem TableOk.append {row : Row} (ht : TableOk links t) (hrows : t'.rows = t.rows ++ [row])
    (hlinks : Extends links links' (entries t)) (hparent : row.parentKeyId = none)
    (hversion : row.version = 1)
    (hjoined : ∀ keyId p version, links' keyId = some (p, version) →
      links keyId = some (p, version) ∨ Joined (entries t') keyId p version) :
    TableOk links' t' := by
  refine ⟨fun r hr => ?_, fun keyId p version hlink => ?_⟩
  · rw [hrows] at hr
    rcases List.mem_append.mp hr with hr | hr
    · refine (ht.attached r hr).imp_right ?_
      rintro ⟨p, hp, hlink⟩
      exact ⟨p, hp, (hlinks (entry r) (mem_entries.mpr ⟨r, hr, rfl⟩)).trans hlink⟩
    · rw [List.mem_singleton.mp hr]
      exact .inl ⟨hparent, hversion⟩
  · rcases hjoined keyId p version hlink with hold | hnew
    · exact (ht.joined keyId p version hold).mono (entries_append hrows ▸ List.prefix_append _ _)
    · exact hnew

/-- Values that are of one kind with those of a row are held as these are. -/
theorem kind_held {row row' stored : Row} (hfixed : row.toFixed.held = some row'.toFixed)
    (hpolicy : nullable 255 row.rotationPolicyId = some row'.rotationPolicyId)
    (hstored : stored.held = some stored) (h : (entry row).kind = (entry stored).kind) :
    (entry row').kind = (entry stored).kind := by
  obtain ⟨-, htype, halgorithm, hsize, hservice, -⟩ := Fixed.held_eq_some.mp hfixed
  obtain ⟨hfixed', hcolumns'⟩ := Row.held_eq_some.mp hstored
  obtain ⟨-, htype', halgorithm', hsize', hservice', -⟩ := Fixed.held_eq_some.mp hfixed'
  obtain ⟨-, -, -, hpolicy', -⟩ := Columns.held_eq_some.mp hcolumns'
  simp only [Entry.kind, entry, Kind.mk.injEq] at h ⊢
  obtain ⟨h₁, h₂, h₃, h₄, h₅⟩ := h
  rw [h₁, hservice', Option.some.injEq] at hservice
  rw [h₂, htype', Option.some.injEq] at htype
  rw [h₃, halgorithm', Option.some.injEq] at halgorithm
  rw [h₄, hsize', Option.some.injEq] at hsize
  rw [h₅, hpolicy', Option.some.injEq] at hpolicy
  exact ⟨hservice.symm, htype.symm, halgorithm.symm, hsize.symm, hpolicy.symm⟩

/-- A key that a rotation reads has the version one, or that of its link. -/
theorem Copies.version_bounds (ht : TableOk links t) (h : Copies links (entries t) keyId m)
    {i : Nat} {e : Entry} (hi : (entries t)[i]? = some e) (hkey : e.1.keyId = keyId) :
    1 ≤ m.version ∧ m.version ≤ i + 1 := by
  rcases h.attached with ⟨-, hfirst⟩ | ⟨p, -, hlink⟩
  · omega
  · obtain ⟨-, j, -, child, -, -, hj, -, hchild, -, hlow, hhigh⟩ := ht.joined keyId p _ hlink
    obtain rfl := entries_inj hi hj (hkey.trans hchild.symm)
    omega

/-- What one statement of a thread keeps: the entries, what is meant for their keys, and the
metadata objects of the threads. -/
def Advances (links : Links) (t : KeyTable) (result : KeyTable × List Task) : Prop :=
  ∃ links', Extends links links' (entries t) ∧ entries t <+: entries result.1 ∧
    TableOk links' result.1 ∧ ∀ task ∈ result.2, task.Ok links' (entries result.1)

theorem advances_read (ht : TableOk links t) {tasks : List Task}
    (h : ∀ task ∈ tasks, task.Ok links (entries t)) : Advances links t (t, tasks) :=
  ⟨links, .refl, List.prefix_rfl, ht, h⟩

theorem advances_update (ht : TableOk links t) (hm : Copies links (entries t) keyId m) (call : Call)
    {tasks : List Task} (h : ∀ task ∈ tasks, task.Ok links (entries t)) :
    Advances links t ((updateKeyMetadata call keyId m t).2, tasks) := by
  obtain ⟨hentries, ht'⟩ := update_spec ht hm call
  exact ⟨links, .refl, hentries ▸ List.prefix_rfl, ht', hentries ▸ h⟩

theorem advances_created {spec : KeySpec} {env : Env} {answered : Option String}
    (ht : TableOk links t) (h : Created spec env t answered t') {tasks : List Task}
    (htasks : ∀ task ∈ tasks, ∀ es, entries t <+: es → task.Ok links es) :
    Advances links t (t', tasks) := by
  cases h with
  | failed => exact advances_read ht fun task htask => htasks task htask _ List.prefix_rfl
  | stored _ _ _ _ hparent hversion _ hrows =>
    have hes : entries t <+: entries t' := entries_append hrows ▸ List.prefix_append _ _
    refine ⟨links, .refl, hes, ?_, fun task htask => htasks task htask _ hes⟩
    exact ht.append hrows .refl hparent hversion fun _ _ _ hlink => .inl hlink

/-- The new key of a rotation gets its link. -/
theorem advances_successor {env : Env} (ht : TableOk links t)
    (hold : Copies links (entries t) keyId old)
    (h : Created old.successor env t (some newKeyId) t') :
    Advances links t (t', [.find keyId old newKeyId]) := by
  cases h with
  | @stored _ row row' _ hfixed hkind hpolicy hkey hparent hversion hnew hrows hanswered =>
    obtain ⟨e, he, hekey, hekind⟩ := hold.entry
    obtain ⟨stored, hstored, rfl⟩ := mem_entries.mp he
    obtain ⟨i, hi⟩ := List.getElem?_of_mem he
    have happend : entries t' = entries t ++ [entry row'] := entries_append hrows
    have hfresh : ∀ e ∈ entries t, e.1.keyId ≠ row'.keyId := by
      intro e he heq
      obtain ⟨r, hr, rfl⟩ := mem_entries.mp he
      exact hnew (List.mem_map.mpr ⟨r, hr, heq⟩)
    have hextends : Extends links
        (Function.update links row'.keyId (some (keyId, old.version + 1))) (entries t) :=
      fun e he => Function.update_of_ne (hfresh e he) _ _
    have hkind' : (entry row').kind = (entry stored).kind :=
      kind_held hfixed hpolicy (t.held stored hstored) (hkind.trans hekind.symm)
    have hjoined : Joined (entries t') row'.keyId keyId (old.version + 1) := by
      obtain ⟨hlow, hhigh⟩ := hold.version_bounds ht hi hekey
      have hlt : i < (entries t).length := (List.getElem?_eq_some_iff.mp hi).1
      refine ⟨i, (entries t).length, entry stored, entry row', hlt, ?_, ?_, hekey, rfl, hkind', ?_,
        ?_⟩
      · rw [happend, List.getElem?_append_left hlt, hi]
      · rw [happend, List.getElem?_concat_length]
      · omega
      · omega
    refine ⟨_, hextends, happend ▸ List.prefix_append _ _, ?_, ?_⟩
    · refine ht.append hrows hextends hparent hversion fun k p version hlink => ?_
      by_cases hk : k = row'.keyId
      · subst hk
        rw [Function.update_self, Option.some.injEq, Prod.mk.injEq] at hlink
        obtain ⟨rfl, rfl⟩ := hlink
        exact .inr hjoined
      · rw [Function.update_of_ne hk] at hlink
        exact .inl hlink
    · intro task htask
      obtain rfl := List.mem_singleton.mp htask
      refine ⟨hold.mono hextends (happend ▸ List.prefix_append _ _), fun hheld => ?_⟩
      obtain rfl : newKeyId = row'.keyId := by
        have hvarchar := (Fixed.held_eq_some.mp hfixed).1
        rw [hkey, ← hanswered newKeyId rfl, hheld] at hvarchar
        exact Option.some.inj hvarchar
      refine ⟨⟨entry row', ?_, rfl⟩, Function.update_self _ _ _⟩
      rw [happend]
      exact List.mem_append_right _ (List.mem_singleton_self _)

theorem Copies.withStatus (h : Copies links es keyId m) (status : KeyStatus) :
    Copies links es keyId { m with status := status } := ⟨h.entry, h.attached⟩

theorem Copies.revoked (h : Copies links es keyId m) (reason : String) (now : Time) :
    Copies links es keyId (revokeMetadata reason now m) := ⟨h.entry, h.attached⟩

theorem forall_singleton {p : Task → Prop} (h : p task) : ∀ task' ∈ [task], p task' :=
  fun _ h' => List.mem_singleton.mp h' ▸ h

theorem forall_nil {p : Task → Prop} : ∀ task' ∈ ([] : List Task), p task' :=
  fun _ h => absurd h List.not_mem_nil

/-- The body of the loop writes the status of an expired key. -/
theorem advances_checkKey (ht : TableOk links t) (hm : Copies links (entries t) m.keyId m)
    {keys : List KeyMetadata} (hkeys : ∀ k ∈ keys, Copies links (entries t) k.keyId k) :
    Advances links t ((checkKey answer policies t m).1,
      .checking keys :: (checkKey answer policies t m).2) := by
  have hrest : ∀ task ∈ [Task.checking keys], task.Ok links (entries t) := forall_singleton hkeys
  unfold checkKey
  split_ifs
  · exact advances_read ht hrest
  · exact advances_update ht (hm.withStatus .expired) answer.call hrest
  · exact advances_read ht (List.forall_mem_cons.mpr ⟨hkeys, forall_singleton trivial⟩)
  · exact advances_read ht hrest

theorem advance_advances (ht : TableOk links t) (htask : task.Ok links (entries t))
    (hfits : answer.Fits t task) : Advances links t (advance json policies answer t task) := by
  cases task with
  | create spec => exact advances_created ht (createKey_created answer spec t) forall_nil
  | rotate keyId =>
    simp only [advance]
    split
    case h_1 => exact advances_read ht forall_nil
    case h_2 old hget =>
      have hold := (copies_of_getKey ht hget).1
      exact advances_read ht (forall_singleton (hold.withStatus .pendingRotation))
  | mark keyId old => exact advances_update ht htask answer.call (forall_singleton htask)
  | succeed keyId old =>
    have hcreated := createKey_created answer old.successor t
    simp only [advance]
    split
    case h_1 t' heq =>
      rw [heq] at hcreated
      exact advances_created ht hcreated fun task htask' es hes =>
        List.mem_singleton.mp htask' ▸ Copies.mono htask .refl hes
    case h_2 newKeyId t' heq =>
      rw [heq] at hcreated
      exact advances_successor ht htask hcreated
  | revert keyId old =>
    exact advances_update ht (Copies.withStatus htask .active) answer.call forall_nil
  | find keyId old newKeyId =>
    obtain ⟨hold, hborn⟩ := htask
    simp only [advance]
    split
    case h_1 => exact advances_read ht (forall_singleton hold)
    case h_2 new hget =>
      obtain ⟨hnew, hheld⟩ := copies_of_getKey ht hget
      exact advances_read ht (forall_singleton ⟨hold, hnew, (hborn hheld).2⟩)
  | link keyId old newKeyId new =>
    obtain ⟨hold, hnew, hlink⟩ := htask
    have hlinked : Copies links (entries t) newKeyId
        { new with parentKeyId := some keyId, version := old.version + 1 } :=
      ⟨hnew.entry, .inr ⟨keyId, rfl, hlink⟩⟩
    exact advances_update ht hlinked answer.call (forall_singleton hold)
  | grace keyId old =>
    exact advances_update ht (Copies.withStatus htask .deprecated) answer.call forall_nil
  | revoke keyId reason =>
    simp only [advance]
    split
    case h_1 => exact advances_read ht forall_nil
    case h_2 metadata hget =>
      have hm := (copies_of_getKey ht hget).1
      exact advances_read ht (forall_singleton (hm.revoked reason answer.now))
  | revoking keyId metadata => exact advances_update ht htask answer.call forall_nil
  | check =>
    refine advances_read ht (forall_singleton fun m hm => ?_)
    obtain ⟨row, hrow, hmetadata⟩ := mem_listKeys hm
    have hmem : row ∈ t.rows := List.mem_of_mem_filter (hfits.1.subset hrow)
    exact (metadata_eq_some hmetadata).1 ▸ copies_of_metadata ht hmem hmetadata
  | checking keys =>
    cases keys with
    | nil => exact advances_read ht forall_nil
    | cons m keys =>
      exact advances_checkKey ht (htask m List.mem_cons_self) fun k hk =>
        htask k (List.mem_cons_of_mem _ hk)

structure Inv (links : Links) (s : State) : Prop where
  table : TableOk links s.table
  tasks : ∀ task ∈ s.tasks, task.Ok links (entries s.table)

/-- A later state has the entries of an earlier one, with the links of their keys. -/
structure Later (links : Links) (s : State) (links' : Links) (s' : State) : Prop where
  links : Extends links links' (entries s.table)
  entries : entries s.table <+: entries s'.table

variable {s s' s'' : State} {links'' : Links}

theorem Later.refl : Later links s links s := ⟨.refl, List.prefix_rfl⟩

theorem Later.trans (h : Later links s links' s') (h' : Later links' s' links'' s'') :
    Later links s links'' s'' :=
  ⟨fun e he => (h'.links e (h.entries.subset he)).trans (h.links e he), h.entries.trans h'.entries⟩

theorem Inv.start (hs : Inv links s) (h : task.Ok links (entries s.table)) :
    Inv links (s.start task) := by
  refine ⟨hs.table, fun task' htask' => ?_⟩
  rcases List.mem_append.mp htask' with htask' | htask'
  · exact hs.tasks task' htask'
  · exact List.mem_singleton.mp htask' ▸ h

theorem inv_step {l : Label} (hs : Inv links s) (h : step json s l = some s') :
    ∃ links', Later links s links' s' ∧ Inv links' s' := by
  cases l with
  | createKey | rotateKey | revokeKey | checkForRotations =>
    obtain rfl := Option.some.inj h
    exact ⟨links, ⟨.refl, List.prefix_rfl⟩, hs.start trivial⟩
  | setPolicies policies =>
    obtain rfl := Option.some.inj h
    exact ⟨links, ⟨.refl, List.prefix_rfl⟩, hs.table, hs.tasks⟩
  | advance i answer =>
    simp only [step] at h
    split at h
    case h_1 => cases h
    case h_2 task htask =>
      split at h
      case isFalse => cases h
      case isTrue hfits =>
        obtain rfl := Option.some.inj h
        have hadvances : Advances links s.table
            (RotationThreads.advance json s.policies answer s.table task) :=
          advance_advances hs.table (hs.tasks task (List.mem_of_getElem? htask)) hfits
        obtain ⟨links', hlinks, hes, ht, htasks⟩ := hadvances
        refine ⟨links', ⟨hlinks, hes⟩, ht, fun task' htask' => ?_⟩
        rcases List.mem_append.mp htask' with hold | hnew
        · exact (hs.tasks task' (List.mem_of_mem_eraseIdx hold)).mono hlinks hes
        · exact htasks task' hnew
  | abandon i =>
    simp only [step] at h
    split at h
    case isFalse => cases h
    case isTrue =>
      obtain rfl := Option.some.inj h
      refine ⟨links, ⟨.refl, List.prefix_rfl⟩, hs.table, fun task htask => ?_⟩
      exact hs.tasks task (List.mem_of_mem_eraseIdx htask)

theorem inv_run {ls : List Label} (hs : Inv links s) (hr : run (step json) s ls = some s') :
    ∃ links', Later links s links' s' ∧ Inv links' s' := by
  induction ls generalizing s links with
  | nil =>
    obtain rfl := Option.some.inj hr
    exact ⟨links, .refl, hs⟩
  | cons l ls ih =>
    obtain ⟨next, hnext, hr⟩ := run_cons hr
    obtain ⟨links', hlater, hs⟩ := inv_step hs hnext
    obtain ⟨links'', hlater', hs⟩ := ih hs hr
    exact ⟨links'', hlater.trans hlater', hs⟩

theorem inv_init : Inv (fun _ => none) {} where
  table := ⟨fun _ h => absurd h List.not_mem_nil, fun _ _ _ h => by cases h⟩
  tasks := forall_nil

end

/-- From one table to a later one no key is lost, no column that an insertion sets and no policy
changes, and a key that has a parent in both has the same one, and the same version. -/
def Kept (t t' : KeyTable) : Prop :=
  ∀ row ∈ t.rows, ∃ row' ∈ t'.rows, row'.toFixed = row.toFixed ∧
    row'.rotationPolicyId = row.rotationPolicyId ∧
    (row.parentKeyId ≠ none → row'.parentKeyId ≠ none →
      row'.parentKeyId = row.parentKeyId ∧ row'.version = row.version)

/-- The parent of a key is there and of the same service, type, algorithm, size and policy; a key
without one has the first version, and no version is above the number of keys; no key descends from
itself. -/
structure WellFormed (t : KeyTable) : Prop where
  parent : ∀ row ∈ t.rows, ∀ p, row.parentKeyId = some p →
    ∃ parent, t.get p = some parent ∧ (entry row).kind = (entry parent).kind ∧ 2 ≤ row.version
  first : ∀ row ∈ t.rows, row.parentKeyId = none → row.version = 1
  bound : ∀ row ∈ t.rows, row.version ≤ t.rows.length
  acyclic : ∀ k, ¬ Relation.TransGen (Edge (fun row : Row => row.parentKeyId) t.get) k k

section

variable {links links' : Links} {s s' : State} {t : KeyTable} {row : Row} {p : String}

theorem kept_of_later (hs : TableOk links s.table) (hs' : TableOk links' s'.table)
    (hlater : Later links s links' s') : Kept s.table s'.table := by
  intro row hrow
  have hmem : entry row ∈ entries s.table := mem_entries.mpr ⟨row, hrow, rfl⟩
  obtain ⟨row', hrow', heq⟩ := mem_entries.mp (hlater.entries.subset hmem)
  obtain ⟨hfixed, hpolicy⟩ := Prod.mk.inj heq
  refine ⟨row', hrow', hfixed, hpolicy, fun hparent hparent' => ?_⟩
  obtain ⟨hnone, -⟩ | ⟨q, hq, hlink⟩ := hs.attached row hrow
  · exact absurd hnone hparent
  · obtain ⟨hnone, -⟩ | ⟨q', hq', hlink'⟩ := hs'.attached row' hrow'
    · exact absurd hnone hparent'
    · have hsame : links' row.keyId = links row.keyId := hlater.links (entry row) hmem
      rw [congrArg Fixed.keyId hfixed, hsame, hlink, Option.some.injEq, Prod.mk.injEq] at hlink'
      rw [hq, hq', hlink'.1]
      exact ⟨rfl, hlink'.2.symm⟩

theorem TableOk.joined_of_parent (ht : TableOk links t) (hrow : row ∈ t.rows)
    (hp : row.parentKeyId = some p) : Joined (entries t) row.keyId p row.version := by
  rcases ht.attached row hrow with ⟨hnone, -⟩ | ⟨q, hq, hlink⟩
  · rw [hnone] at hp
    cases hp
  · obtain rfl := Option.some.inj (hp.symm.trans hq)
    exact ht.joined row.keyId p row.version hlink

theorem TableOk.parent (ht : TableOk links t) (hrow : row ∈ t.rows)
    (hp : row.parentKeyId = some p) :
    ∃ parent, t.get p = some parent ∧ (entry row).kind = (entry parent).kind ∧
      2 ≤ row.version := by
  obtain ⟨i, j, e, child, -, hi, hj, rfl, hchild, hkind, hlow, -⟩ := ht.joined_of_parent hrow hp
  obtain ⟨parent, hparent, rfl⟩ := mem_entries.mp (List.mem_of_getElem? hi)
  obtain ⟨row', hrow', rfl⟩ := mem_entries.mp (List.mem_of_getElem? hj)
  obtain rfl := List.inj_on_of_nodup_map t.primaryKey hrow' hrow hchild
  exact ⟨parent, KeyTable.get_of_mem hparent, hkind, hlow⟩

theorem TableOk.bound (ht : TableOk links t) (hrow : row ∈ t.rows) :
    row.version ≤ t.rows.length := by
  cases hp : row.parentKeyId with
  | none =>
    rcases ht.attached row hrow with ⟨-, hfirst⟩ | ⟨q, hq, -⟩
    · have hpos : 0 < t.rows.length := List.length_pos_of_mem hrow
      omega
    · cases hp.symm.trans hq
  | some p =>
    obtain ⟨i, j, -, child, -, -, hj, -, -, -, -, hhigh⟩ := ht.joined_of_parent hrow hp
    have hlt : j < (entries t).length := (List.getElem?_eq_some_iff.mp hj).1
    rw [entries, List.length_map] at hlt
    omega

/-- The place of a key among the insertions. -/
def place (t : KeyTable) (keyId : String) : Nat := (t.rows.map (·.keyId)).idxOf keyId

theorem place_of_getElem? {i : Nat} {e : Entry} (h : (entries t)[i]? = some e) :
    place t e.1.keyId = i := by
  have hi : (t.rows.map (·.keyId))[i]? = some e.1.keyId := by
    have hmap := congrArg (Option.map fun e : Entry => e.1.keyId) h
    rw [entries, ← List.getElem?_map, List.map_map] at hmap
    exact hmap
  obtain ⟨hlt, hget⟩ := List.getElem?_eq_some_iff.mp hi
  rw [place, ← hget, t.primaryKey.idxOf_getElem]

theorem TableOk.acyclic (ht : TableOk links t) (k : String) :
    ¬ Relation.TransGen (Edge (fun row : Row => row.parentKeyId) t.get) k k := by
  refine Forest.not_cycle (fun row : Row => place t row.keyId) ?_ ?_ k
  · intro b n a m hn ha hm
    obtain ⟨hmem, -⟩ := KeyTable.get_eq_some hn
    obtain ⟨i, j, parent, child, hlt, hi, hj, hparent, hchild, -⟩ := ht.joined_of_parent hmem ha
    rw [(KeyTable.get_eq_some hm).2, ← hparent, ← hchild, place_of_getElem? hi,
      place_of_getElem? hj]
    exact hlt
  · rintro a b ⟨n, hn, ha⟩
    obtain ⟨parent, hparent, -⟩ := ht.parent (KeyTable.get_eq_some hn).1 ha
    rw [hparent]
    rfl

theorem TableOk.wellFormed (ht : TableOk links t) : WellFormed t where
  parent _ hrow _ hp := ht.parent hrow hp
  first row hrow hnone := by
    rcases ht.attached row hrow with ⟨-, hfirst⟩ | ⟨q, hq, -⟩
    · exact hfirst
    · cases hnone.symm.trans hq
  bound _ hrow := ht.bound hrow
  acyclic := ht.acyclic

end

/-- In whatever order the statements of any number of threads come, and whichever calls of the
connector raise. -/
theorem kept_of_statements (json : JsonColumn) {ls ls' : List Label} {s s' : State}
    (hr : run (step json) {} ls = some s) (hr' : run (step json) s ls' = some s') :
    Kept s.table s'.table ∧ WellFormed s'.table := by
  obtain ⟨links, -, hs⟩ := inv_run inv_init hr
  obtain ⟨links', hlater, hs'⟩ := inv_run hs hr'
  exact ⟨kept_of_later hs.table hs'.table hlater, hs'.table.wellFormed⟩

/-- A key is rotated, and its successor is read for another rotation before it gets its link. -/
def linked : List Label :=
  [.createKey ⟨"issuer", .signing, "EC", 256, 365, none⟩,
    .advance 0 { hex := "01", keyData := some [1], now := 0 },
    .rotateKey "issuer_signing_01", .advance 0 { hex := "", keyData := none, now := 1 },
    .advance 0 { hex := "", keyData := none, now := 1 },
    .advance 0 { hex := "02", keyData := some [2], now := 1 },
    .rotateKey "issuer_signing_02", .advance 1 { hex := "", keyData := none, now := 2 },
    .advance 0 { hex := "", keyData := none, now := 2 },
    .advance 1 { hex := "", keyData := none, now := 2 }]

/-- The other rotation writes back what it has read: the key loses its parent. -/
def unlinked : List Label := [.advance 0 { hex := "", keyData := none, now := 3 }]

def parentIn (s : State) : Option (Option String) :=
  (s.table.get "issuer_signing_02").map (·.parentKeyId)

theorem kept_of_statements_unlinked : ∃ s s', run (step .text) {} linked = some s ∧
    run (step .text) s unlinked = some s' ∧ parentIn s = some (some "issuer_signing_01") ∧
    parentIn s' = some none ∧ Kept s.table s'.table ∧ WellFormed s'.table := by
  have hlinked : (run (step .text) {} linked).map parentIn =
      some (some (some "issuer_signing_01")) := by decide +kernel
  have hunlinked : (run (step .text) {} (linked ++ unlinked)).map parentIn = some (some none) := by
    decide +kernel
  obtain ⟨s, hr, hparent⟩ := Option.map_eq_some_iff.mp hlinked
  obtain ⟨s', hr', hparent'⟩ := Option.map_eq_some_iff.mp hunlinked
  rw [run_append, hr, Option.bind_some] at hr'
  obtain ⟨hkept, hwell⟩ := kept_of_statements .text hr hr'
  exact ⟨s, s', hr, hr', hparent, hparent', hkept, hwell⟩

end Marty.Security.RotationThreads
