import Mathlib.Data.List.Perm.Basic
import Marty.Security.RotationThreads

/-! The operations of the manager as whole steps over a key store, and the statements of its
threads over the database: what the operations do in a run, the threads can do, where the columns
hold every value as it is. -/

namespace Marty.Security.WholeOperations

open Lib Lib.Datetime Lib.Run KeyRotation DatabaseKeyStore RotationThreads

/-- The row of a key. -/
def encode (key : KeyRow) : Row := row key.metadata.keyId key.keyData key.metadata

/-- Every column holds its value as it is. -/
def Fits (s : KeyStore) : Prop := ∀ key ∈ s.rows, (encode key).held = some (encode key)

instance (s : KeyStore) : Decidable (Fits s) :=
  inferInstanceAs (Decidable (∀ key ∈ s.rows, _))

def Represents (s : KeyStore) (t : KeyTable) : Prop := t.rows = s.rows.map encode

/-- The columns of an update hold their values as they are. -/
def FitColumns (m : KeyMetadata) : Prop := (columns m).held = some (columns m)

section store

variable {s s' : KeyStore} {t : KeyTable} {keyId : String} {m : KeyMetadata} {key : KeyRow}
  {keyData : List UInt8}

theorem keyType?_value (keyType : KeyType) : keyType? keyType.value = some keyType := by
  cases keyType <;> rfl

theorem keyStatus?_value (status : KeyStatus) : keyStatus? status.value = some status := by
  cases status <;> rfl

theorem metadata_encode (key : KeyRow) : (encode key).metadata .text = some key.metadata := by
  simp [encode, Row.metadata, row, columns, keyType?_value, keyStatus?_value, JsonColumn.loads]

theorem encode_updateRow (hid : key.metadata.keyId = keyId) :
    encode (KeyStore.updateRow keyId m key) = KeyTable.setColumns (columns m) (encode key) := by
  rw [KeyStore.updateRow, if_pos hid]
  rfl

theorem held_status (status : KeyStatus) : varchar 50 status.value = some status.value := by
  cases status <;> decide

theorem FitColumns.withStatus (h : FitColumns m) (status : KeyStatus) :
    FitColumns { m with status := status } := by
  obtain ⟨-, hversion, hparent, hpolicy, htags⟩ := Columns.held_eq_some.mp h
  exact Columns.held_eq_some.mpr ⟨held_status status, hversion, hparent, hpolicy, htags⟩

theorem Fits.fitColumns (hs : Fits s) (hm : s.metadata? keyId = some m) : FitColumns m := by
  obtain ⟨key, hkey, rfl⟩ := Option.map_eq_some_iff.mp hm
  exact (Row.held_eq_some.mp (hs key (List.mem_of_find?_eq_some hkey))).2

theorem Fits.update (hs : Fits s) (hm : FitColumns m) : Fits (s.updateKeyMetadata keyId m) := by
  intro key hkey
  obtain ⟨old, hold, rfl⟩ := List.mem_map.mp hkey
  by_cases hid : old.metadata.keyId = keyId
  · rw [encode_updateRow hid]
    exact Row.held_eq_some.mpr ⟨(Row.held_eq_some.mp (hs old hold)).1, hm⟩
  · rw [KeyStore.updateRow, if_neg hid]
    exact hs old hold

theorem Represents.get (h : Represents s t) (keyId : String) :
    t.get keyId = (s.getKey keyId).map encode := by
  rw [KeyTable.get, Table.get, h, List.find?_map]
  rfl

theorem Represents.getKey (h : Represents s t) (keyId : String) :
    DatabaseKeyStore.getKey .text .returns keyId t =
      (s.getKey keyId).map fun key => (key.keyData, key.metadata) := by
  rw [DatabaseKeyStore.getKey, if_pos rfl, h.get]
  cases s.getKey keyId with
  | none => rfl
  | some key =>
    rw [Option.map_some, Option.bind_some, metadata_encode]
    rfl

theorem Represents.getKey_eq_none (h : Represents s t) (hm : s.metadata? keyId = none) :
    DatabaseKeyStore.getKey .text .returns keyId t = none := by
  rw [h.getKey, Option.map_eq_none_iff.mp hm, Option.map_none]

theorem Represents.getKey_eq_some (h : Represents s t) (hm : s.metadata? keyId = some m) :
    ∃ keyData, DatabaseKeyStore.getKey .text .returns keyId t = some (keyData, m) := by
  obtain ⟨key, hkey, rfl⟩ := Option.map_eq_some_iff.mp hm
  exact ⟨key.keyData, by rw [h.getKey, hkey, Option.map_some]⟩

/-- An update of the table is the update of the store. -/
theorem Represents.update (h : Represents s t) (keyId : String) (hm : FitColumns m) :
    Represents (s.updateKeyMetadata keyId m)
      (DatabaseKeyStore.updateKeyMetadata .returns keyId m t).2 := by
  unfold DatabaseKeyStore.updateKeyMetadata
  cases hupdate : t.update keyId (columns m) with
  | none =>
    have hnone := KeyTable.update_eq_none hupdate
    rw [hm] at hnone
    cases hnone
  | some t' =>
    obtain ⟨c, hc, hrows⟩ := KeyTable.update_eq_some hupdate
    obtain rfl := Option.some.inj (hc.symm.trans hm)
    change t'.rows = (s.rows.map (KeyStore.updateRow keyId m)).map encode
    rw [hrows, h, Table.modify, List.map_map, List.map_map]
    refine List.map_congr_left fun key hkey => ?_
    by_cases hid : key.metadata.keyId = keyId
    · exact (if_pos hid).trans (encode_updateRow hid).symm
    · have hsame : KeyStore.updateRow keyId m key = key := if_neg hid
      rw [Function.comp_apply, Function.comp_apply, hsame]
      exact if_neg hid

theorem Represents.ids (h : Represents s t) :
    t.rows.map (·.keyId) = s.rows.map (·.metadata.keyId) := by
  rw [h, List.map_map]
  rfl

/-- An insertion into the table is the insertion into the store. -/
theorem Represents.store (h : Represents s t) (hstore : s.storeKey keyData m = some s')
    (hfits : Fits s') :
    ∃ t', DatabaseKeyStore.storeKey .returns m.keyId keyData m t = (true, t') ∧
      Represents s' t' := by
  unfold KeyStore.storeKey at hstore
  split at hstore
  case isTrue => cases hstore
  case isFalse hnew =>
    obtain rfl := Option.some.inj hstore
    have hheld : (row m.keyId keyData m).held = some (row m.keyId keyData m) :=
      hfits ⟨keyData, m⟩ (by simp)
    obtain ⟨t', hinsert, hrows⟩ := KeyTable.insert_of_held hheld (h.ids ▸ hnew)
    refine ⟨t', ?_, ?_⟩
    · rw [DatabaseKeyStore.storeKey, hinsert]
      rfl
    · rw [Represents, hrows, h, List.map_append, List.map_singleton]
      rfl

/-- The identifier that is in use is held as it is. -/
theorem Represents.store_none (h : Represents s t) (hstore : s.storeKey keyData m = none) :
    DatabaseKeyStore.storeKey .returns m.keyId keyData m t = (false, t) := by
  have hused : m.keyId ∈ t.rows.map (·.keyId) := by
    unfold KeyStore.storeKey at hstore
    split at hstore
    case isTrue hused => exact h.ids ▸ hused
    case isFalse => cases hstore
  unfold DatabaseKeyStore.storeKey
  cases hinsert : t.insert (row m.keyId keyData m) with
  | none => rfl
  | some t' =>
    obtain ⟨row', hheld, hnew, -⟩ := KeyTable.insert_eq_some hinsert
    obtain ⟨old, hold, hid⟩ := List.mem_map.mp hused
    have hkey := (Fixed.held_eq_some.mp (Row.held_eq_some.mp hheld).1).1
    have hkey' := (Fixed.held_eq_some.mp (Row.held_eq_some.mp (t.held old hold)).1).1
    have hsame : varchar 255 m.keyId = some m.keyId := hid ▸ hkey'
    exact absurd (Option.some.inj (hkey.symm.trans hsame) ▸ hused) hnew

/-- The calls of a statement do not raise. -/
def answered (env : Env) (rows : List Row := []) : Answer := { toEnv := env, rows := rows }

theorem Represents.createKey (h : Represents s t) (spec : KeySpec) (env : Env)
    (hfits : Fits (KeyRotation.createKey spec env s).2) :
    ∃ t', RotationThreads.createKey (answered env) spec t =
        ((KeyRotation.createKey spec env s).1, t') ∧
      Represents (KeyRotation.createKey spec env s).2 t' := by
  have hid : spec.keyId env = (spec.metadata env).keyId := rfl
  simp only [KeyRotation.createKey, RotationThreads.createKey, answered] at hfits ⊢
  cases hdata : env.keyData.filter (· ≠ []) with
  | none => exact ⟨t, rfl, h⟩
  | some keyData =>
    simp only [hdata] at hfits ⊢
    cases hstore : s.storeKey keyData (spec.metadata env) with
    | none => exact ⟨t, by rw [hid, h.store_none hstore], h⟩
    | some s' =>
      rw [hstore] at hfits
      obtain ⟨t', hcall, ht'⟩ := h.store hstore hfits
      exact ⟨t', by rw [hid, hcall], ht'⟩

end store

section threads

variable {s : KeyStore} {t t' t'' : KeyTable} {keyId : String} {old : KeyMetadata}
  {policies : Policies} {tasks tasks' tasks'' : List Task} {state : State} {env : Env} {now : Time}

/-- The threads that have not ended, in any order. -/
structure At (policies : Policies) (t : KeyTable) (tasks : List Task) (state : State) : Prop where
  table : state.table = t
  policies : state.policies = policies
  tasks : state.tasks.Perm tasks

/-- The threads can take the table from one state to the other. -/
def Leads (policies : Policies) (t : KeyTable) (tasks : List Task) (t' : KeyTable)
    (tasks' : List Task) : Prop :=
  ∀ state, At policies t tasks state →
    ∃ ls state', run (RotationThreads.step .text) state ls = some state' ∧
      At policies t' tasks' state'

theorem At.start (h : At policies t tasks state) (task : Task) :
    At policies t (task :: tasks) (state.start task) :=
  ⟨h.table, h.policies, (List.perm_append_singleton task state.tasks).trans (h.tasks.cons task)⟩

theorem Leads.trans (h : Leads policies t tasks t' tasks')
    (h' : Leads policies t' tasks' t'' tasks'') : Leads policies t tasks t'' tasks'' := by
  intro state hat
  obtain ⟨ls, state', hrun, hat⟩ := h state hat
  obtain ⟨ls', state'', hrun', hat⟩ := h' state' hat
  exact ⟨ls ++ ls', state'', by rw [run_append, hrun, Option.bind_some, hrun'], hat⟩

theorem Leads.of_perm (hperm : tasks.Perm tasks') (h : Leads policies t tasks' t' tasks'') :
    Leads policies t tasks t' tasks'' :=
  fun state hat => h state ⟨hat.table, hat.policies, hat.tasks.trans hperm⟩

/-- One statement of one thread. -/
theorem Leads.advance (answer : Answer) (task : Task) (tasks' : List Task)
    (hfits : answer.Fits t task)
    (h : RotationThreads.advance .text policies answer t task = (t', tasks')) :
    Leads policies t (task :: tasks) t' (tasks' ++ tasks) := by
  rintro state ⟨rfl, rfl, hperm⟩
  obtain ⟨i, hlt, hget⟩ := List.getElem_of_mem (hperm.symm.subset List.mem_cons_self)
  refine ⟨[.advance i answer],
    { state with table := t', tasks := state.tasks.eraseIdx i ++ tasks' }, ?_, rfl, rfl, ?_⟩
  · have htask : state.tasks[i]? = some task := List.getElem?_eq_some_iff.mpr ⟨hlt, hget⟩
    simp only [run, RotationThreads.step, htask, if_pos hfits, h, Option.bind_some]
  · have hrest : (state.tasks.eraseIdx i).Perm tasks := by
      have hcons := (List.getElem_cons_eraseIdx_perm hlt).trans hperm
      rw [hget] at hcons
      exact hcons.cons_inv
    exact List.perm_append_comm.trans (hrest.append_left tasks')

/-- The thread that waits out the grace period of a rotation. -/
def waiting (d : Deprecation) : Task := .grace d.keyId d.oldMetadata

theorem createKey_rows {s' : KeyStore} {spec : KeySpec} {newKeyId : String}
    (h : KeyRotation.createKey spec env s = (some newKeyId, s')) :
    ∃ keyData, s'.rows = s.rows ++ [⟨keyData, spec.metadata env⟩] := by
  unfold KeyRotation.createKey at h
  split at h
  case h_1 => cases h
  case h_2 keyData _ =>
    unfold KeyStore.storeKey at h
    split at h
    case h_1 => cases h
    case h_2 s'' hstore =>
      obtain ⟨-, rfl⟩ := Prod.mk.inj h
      split at hstore
      case isTrue => cases hstore
      case isFalse =>
        obtain rfl := Option.some.inj hstore
        exact ⟨keyData, rfl⟩

/-- The link does not change what an insertion sets. -/
theorem Fits.held_of_linkNewKey {newKeyId : String} {key : KeyRow}
    (hfits : Fits (linkNewKey s newKeyId keyId old)) (hkey : key ∈ s.rows) :
    (encode key).toFixed.held = some (encode key).toFixed := by
  unfold linkNewKey at hfits
  split at hfits
  case h_1 => exact (Row.held_eq_some.mp (hfits key hkey)).1
  case h_2 =>
    have hlinked := hfits _ (List.mem_map_of_mem hkey)
    unfold KeyStore.updateRow at hlinked
    split at hlinked
    case isTrue => exact (Row.held_eq_some.mp hlinked).1
    case isFalse => exact (Row.held_eq_some.mp hlinked).1

/-- The row that a rotation has added fits where it fits with its link. -/
theorem Fits.created {s' : KeyStore} {newKeyId : String} (hs : Fits s) (hold : FitColumns old)
    (hcreated : KeyRotation.createKey old.successor env s = (some newKeyId, s'))
    (hfits : Fits (linkNewKey s' newKeyId keyId old)) : Fits s' := by
  obtain ⟨keyData, hrows⟩ := createKey_rows hcreated
  obtain ⟨-, -, -, hpolicy, -⟩ := Columns.held_eq_some.mp hold
  intro key hkey
  have hfixed := hfits.held_of_linkNewKey hkey
  rw [hrows] at hkey
  rcases List.mem_append.mp hkey with hkey | hkey
  · exact hs key hkey
  · obtain rfl := List.mem_singleton.mp hkey
    exact Row.held_eq_some.mpr
      ⟨hfixed, Columns.held_eq_some.mpr ⟨held_status .active, rfl, rfl, hpolicy, rfl⟩⟩

theorem leads_createKey (h : Represents s t) (spec : KeySpec) (env : Env)
    (hfits : Fits (KeyRotation.createKey spec env s).2) :
    ∃ t', Represents (KeyRotation.createKey spec env s).2 t' ∧
      ∀ tasks, Leads policies t (.create spec :: tasks) t' tasks := by
  obtain ⟨t', hcall, ht'⟩ := h.createKey spec env hfits
  refine ⟨t', ht', fun tasks => .advance (answered env) (.create spec) [] trivial ?_⟩
  rw [RotationThreads.advance, hcall]

/-- The rest of a rotation once its key has been created. -/
theorem leads_linkNewKey (h : Represents s t) {newKeyId : String}
    {new : KeyMetadata} (hnew : s.metadata? newKeyId = some new)
    (hfits : Fits (linkNewKey s newKeyId keyId old)) :
    ∃ t', Represents (linkNewKey s newKeyId keyId old) t' ∧
      ∀ tasks, Leads policies t (.find keyId old newKeyId :: tasks) t'
        (.grace keyId old :: tasks) := by
  obtain ⟨keyData, hget⟩ := h.getKey_eq_some hnew
  have heq : linkNewKey s newKeyId keyId old = s.updateKeyMetadata newKeyId
      { new with parentKeyId := some keyId, version := old.version + 1 } := by
    simp only [linkNewKey, hnew]
  rw [heq] at hfits ⊢
  have hm := (KeyStore.metadata?_updateKeyMetadata_self
    { new with parentKeyId := some keyId, version := old.version + 1 }).trans
      (congrArg (Option.map _) hnew)
  refine ⟨_, h.update newKeyId (hfits.fitColumns hm), fun tasks => ?_⟩
  refine (Leads.advance (answered ⟨"", none, 0⟩) (.find keyId old newKeyId)
    [.link keyId old newKeyId new] trivial ?_).trans
    (.advance (answered ⟨"", none, 0⟩) (.link keyId old newKeyId new) [.grace keyId old] trivial
      rfl)
  simp only [RotationThreads.advance, answered, hget]

/-- The thread does what the rotation does. -/
def Performs (policies : Policies) (t : KeyTable) (task : Task)
    (result : Option String × KeyStore × Option Deprecation) : Prop :=
  ∃ t', Represents result.2.1 t' ∧ (∀ d ∈ result.2.2, FitColumns d.oldMetadata) ∧
    ∀ tasks, Leads policies t (task :: tasks) t' (result.2.2.toList.map waiting ++ tasks)

/-- A rotation from the creation of its key on. -/
theorem performs_completeRotation (h : Represents s t) (hs : Fits s) (hold : FitColumns old)
    (hfits : Fits (completeRotation keyId old (KeyRotation.createKey old.successor env s)).2.1) :
    Performs policies t (.succeed keyId old)
      (completeRotation keyId old (KeyRotation.createKey old.successor env s)) := by
  obtain hc | ⟨s', hc, -, hnew, -⟩ := createKey_spec old.successor env s
  · obtain ⟨t', hcall, h'⟩ := h.createKey old.successor env (by rw [hc]; exact hs)
    rw [hc] at hcall h' ⊢
    refine ⟨_, h'.update keyId (hold.withStatus .active),
      fun d hd => (Option.not_mem_none d hd).elim, fun tasks => ?_⟩
    refine (Leads.advance (answered env) (.succeed keyId old) [.revert keyId old] trivial
      ?_).trans (.advance (answered env) (.revert keyId old) [] trivial rfl)
    simp only [RotationThreads.advance, hcall]
  · rw [hc] at hfits ⊢
    have hs' : Fits s' := hs.created hold hc hfits
    obtain ⟨t', hcall, h'⟩ := h.createKey old.successor env (by rw [hc]; exact hs')
    rw [hc] at hcall h'
    obtain ⟨t'', h'', hlinked⟩ := leads_linkNewKey h' hnew hfits
    refine ⟨t'', h'', fun d hd => ?_, fun tasks => (Leads.advance (answered env)
      (.succeed keyId old) [.find keyId old (old.successor.keyId env)] trivial ?_).trans
      (hlinked tasks)⟩
    · obtain rfl := Option.mem_some_iff.mp hd
      exact hold
    · simp only [RotationThreads.advance, hcall]

theorem performs_rotateKey (h : Represents s t) (hs : Fits s)
    (hfits : Fits (rotateKey keyId env s).2.1) :
    Performs policies t (.rotate keyId) (rotateKey keyId env s) := by
  cases hold : s.metadata? keyId with
  | none =>
    have heq : rotateKey keyId env s = (none, s, none) := by simp only [rotateKey, hold]
    rw [heq]
    refine ⟨t, h, fun d hd => (Option.not_mem_none d hd).elim, fun tasks =>
      .advance (answered env) (.rotate keyId) [] trivial ?_⟩
    simp only [RotationThreads.advance, answered, h.getKey_eq_none hold]
  | some old =>
    obtain ⟨pending, hpending, heq⟩ : ∃ pending : KeyMetadata,
        pending = { old with status := .pendingRotation } ∧
        rotateKey keyId env s = completeRotation keyId pending
          (KeyRotation.createKey pending.successor env (s.updateKeyMetadata keyId pending)) :=
      ⟨_, rfl, by simp only [rotateKey, hold]⟩
    have hcolumns : FitColumns pending := hpending ▸ (hs.fitColumns hold).withStatus _
    obtain ⟨keyData, hget⟩ := h.getKey_eq_some hold
    rw [heq] at hfits ⊢
    obtain ⟨t', h', hheld, hrest⟩ :=
      performs_completeRotation (h.update keyId hcolumns) (hs.update hcolumns) hcolumns hfits
    refine ⟨t', h', hheld, fun tasks => ((Leads.advance (answered env) (.rotate keyId)
      [.mark keyId pending] trivial ?_).trans (.advance (answered env) (.mark keyId pending)
      [.succeed keyId pending] trivial rfl)).trans (hrest tasks)⟩
    simp only [RotationThreads.advance, answered, hget, hpending]

theorem leads_revokeKey (h : Represents s t) {reason : String} {hsmRevokes : Bool}
    (hfits : Fits (revokeKey keyId reason now hsmRevokes s).2) :
    ∃ t', Represents (revokeKey keyId reason now hsmRevokes s).2 t' ∧
      ∀ tasks, Leads policies t (.revoke keyId reason :: tasks) t' tasks := by
  cases hm : s.metadata? keyId with
  | none =>
    simp only [revokeKey, hm] at hfits ⊢
    refine ⟨t, h, fun tasks =>
      .advance (answered ⟨"", none, now⟩) (.revoke keyId reason) [] trivial ?_⟩
    simp only [RotationThreads.advance, answered, h.getKey_eq_none hm]
  | some m =>
    simp only [revokeKey, hm] at hfits ⊢
    obtain ⟨keyData, hget⟩ := h.getKey_eq_some hm
    have hrevoked := (KeyStore.metadata?_updateKeyMetadata_self (revokeMetadata reason now m)).trans
      (congrArg (Option.map _) hm)
    refine ⟨_, h.update keyId (hfits.fitColumns hrevoked), fun tasks => ?_⟩
    refine (Leads.advance (answered ⟨"", none, now⟩) (.revoke keyId reason)
      [.revoking keyId (revokeMetadata reason now m)] trivial ?_).trans
      (.advance (answered ⟨"", none, now⟩) (.revoking keyId (revokeMetadata reason now m)) []
        trivial rfl)
    simp only [RotationThreads.advance, answered, hget]

theorem leads_deprecateOldKey (h : Represents s t) {d : Deprecation}
    (hd : FitColumns d.oldMetadata) :
    ∃ t', Represents (KeyRotation.deprecateOldKey d s) t' ∧
      ∀ tasks, Leads policies t (waiting d :: tasks) t' tasks :=
  ⟨_, h.update d.keyId (hd.withStatus .deprecated),
    fun _ => .advance (answered ⟨"", none, 0⟩) (waiting d) [] trivial rfl⟩

end threads

section pass

variable {s : KeyStore} {t : KeyTable} {policies : Policies} {now : Time} {k : KeyMetadata}
  {keys : List KeyMetadata}

theorem Represents.checkKey (h : Represents s t) (hk : FitColumns k) (policies : Policies)
    (now : Time) (submitted : List String) :
    ∃ s' t' ks, KeyRotation.checkKey policies now (s, submitted) k = (s', submitted ++ ks) ∧
      Represents s' t' ∧
      RotationThreads.checkKey (answered ⟨"", none, now⟩) policies t k = (t', ks.map .rotate) := by
  simp only [KeyRotation.checkKey, RotationThreads.checkKey, answered]
  split_ifs with hskip hexpired hdue
  · exact ⟨s, t, [], by rw [List.append_nil], h, rfl⟩
  · exact ⟨_, _, [], by rw [List.append_nil], h.update k.keyId (hk.withStatus .expired),
      if_pos hexpired⟩
  · exact ⟨s, t, [k.keyId], rfl, h, (if_neg hexpired).trans (if_pos hdue)⟩
  · exact ⟨s, t, [], by rw [List.append_nil], h, (if_neg hexpired).trans (if_neg hdue)⟩

/-- The rest of a pass, by induction on the keys that it has still to look at. -/
theorem leads_checking (policies : Policies) (now : Time) (hkeys : ∀ k ∈ keys, FitColumns k)
    (h : Represents s t) (submitted : List String) :
    ∃ t', Represents (keys.foldl (KeyRotation.checkKey policies now) (s, submitted)).1 t' ∧
      ∀ tasks, Leads policies t (.checking keys :: (submitted.map .rotate ++ tasks)) t'
        ((keys.foldl (KeyRotation.checkKey policies now) (s, submitted)).2.map .rotate ++
          tasks) := by
  induction keys generalizing s t submitted with
  | nil => exact ⟨t, h, fun tasks =>
      .advance (answered ⟨"", none, now⟩) (.checking []) [] trivial rfl⟩
  | cons k keys ih =>
    obtain ⟨hk, hkeys⟩ := List.forall_mem_cons.mp hkeys
    obtain ⟨s₁, t₁, ks, hwhole, h₁, hcall⟩ := h.checkKey hk policies now submitted
    obtain ⟨t', h', hrest⟩ := ih hkeys h₁ (submitted ++ ks)
    rw [List.foldl_cons, hwhole]
    refine ⟨t', h', fun tasks => (Leads.advance (answered ⟨"", none, now⟩) (.checking (k :: keys))
      (.checking keys :: ks.map .rotate) trivial ?_).trans (.of_perm ?_ (hrest tasks))⟩
    · simp only [RotationThreads.advance, hcall]
    · rw [List.cons_append, List.map_append, List.append_assoc]
      exact (List.perm_append_comm_assoc _ _ _).cons _

/-- The rows as the pass of the store lists their keys. -/
def listed (s : KeyStore) : List Row :=
  (s.rows.insertionSort fun a b => a.metadata.createdAt ≥ b.metadata.createdAt).map encode

theorem Represents.fetched (h : Represents s t) : Fetched t none none (listed s) := by
  constructor
  · have hall : t.rows.filter (Row.meets none none) = t.rows :=
      List.filter_eq_self.mpr fun _ _ => rfl
    rw [hall, h]
    exact (List.perm_insertionSort _ _).map encode
  · have : Std.Total fun a b : KeyRow => a.metadata.createdAt ≥ b.metadata.createdAt :=
      ⟨fun a b => le_total b.metadata.createdAt a.metadata.createdAt⟩
    have : IsTrans KeyRow fun a b => a.metadata.createdAt ≥ b.metadata.createdAt :=
      ⟨fun _ _ _ hab hbc => le_trans hbc hab⟩
    exact List.pairwise_map.mpr (List.pairwise_insertionSort _ _)

theorem listKeys_listed (s : KeyStore) :
    DatabaseKeyStore.listKeys .text .returns (listed s) = s.listKeys := by
  have hread : Row.metadata .text ∘ encode = fun key => pure key.metadata :=
    funext metadata_encode
  rw [DatabaseKeyStore.listKeys, if_pos rfl, listed, List.mapM_map, hread, List.mapM_pure]
  exact List.map_insertionSort _ _ _ _ fun _ _ _ _ => Iff.rfl

theorem leads_checkForRotations (h : Represents s t) (hs : Fits s) :
    ∃ t', Represents (checkForRotations policies now s).1 t' ∧
      ∀ tasks, Leads policies t (.check :: tasks) t'
        ((checkForRotations policies now s).2.map .rotate ++ tasks) := by
  have hkeys : ∀ k ∈ s.listKeys, FitColumns k := fun k hk =>
    hs.fitColumns (KeyStore.metadata?_of_mem_listKeys hk)
  obtain ⟨t', h', hchecking⟩ := leads_checking policies now hkeys h []
  refine ⟨t', h', fun tasks => (Leads.advance (answered ⟨"", none, now⟩ (listed s)) .check
    [.checking s.listKeys] h.fetched ?_).trans (hchecking tasks)⟩
  rw [RotationThreads.advance]
  exact congrArg (fun keys => (t, [Task.checking keys])) (listKeys_listed s)

end pass

/-- The threads that the manager has left: the rotations of the executor, and the deprecations. -/
def threads (s : System) : List Task := s.submitted.map .rotate ++ s.deprecations.map waiting

structure Realizes (s : System) (state : State) : Prop where
  table : Represents s.store state.table
  tasks : At s.policies state.table (threads s) state
  fits : Fits s.store
  held : ∀ d ∈ s.deprecations, FitColumns d.oldMetadata

/-- The keys hold their values as they are also after the operation. -/
def KeepsFit (s : System) (op : Op) : Prop := ∀ next ∈ KeyRotation.step s op, Fits next.store

instance (s : System) (op : Op) : Decidable (KeepsFit s op) :=
  inferInstanceAs (Decidable (∀ next ∈ KeyRotation.step s op, Fits next.store))

section run

variable {s s' : System} {t : KeyTable} {state : State} {op : Op} {keyId : String} {env : Env}

theorem perm_map_eraseIdx {α β : Type} {l : List α} {i : Nat} {a : α} (f : α → β)
    (hget : l[i]? = some a) : (l.map f).Perm (f a :: (l.eraseIdx i).map f) := by
  obtain ⟨hlt, rfl⟩ := List.getElem?_eq_some_iff.mp hget
  exact (List.getElem_cons_eraseIdx_perm hlt).symm.map f

/-- A rotation, of a call or of the executor, has one thread. -/
theorem realizes_rotate (htable : Represents s.store t) (hs : Fits s.store)
    (hheld : ∀ d ∈ s.deprecations, FitColumns d.oldMetadata)
    (hat : At s.policies t (.rotate keyId :: threads s) state)
    (hfits : Fits (s.rotate keyId env).store) :
    ∃ ls state', run (RotationThreads.step .text) state ls = some state' ∧
      Realizes (s.rotate keyId env) state' := by
  obtain ⟨t', ht', hheld', hleads⟩ := performs_rotateKey htable hs hfits
  obtain ⟨ls, state', hrun, hat⟩ := hleads _ state hat
  refine ⟨ls, state', hrun, hat.table ▸ ht', ⟨rfl, hat.policies, hat.tasks.trans ?_⟩, hfits, ?_⟩
  · simp only [threads, System.rotate, List.map_append]
    exact (List.perm_append_comm_assoc _ _ _).trans (List.perm_append_comm.append_left _)
  · intro d hd
    rcases List.mem_append.mp hd with hd | hd
    · exact hheld d hd
    · exact hheld' d (Option.mem_toList.mp hd)

theorem realizes_step (h : Realizes s state) (hkeeps : KeepsFit s op)
    (hstep : KeyRotation.step s op = some s') :
    ∃ ls state', run (RotationThreads.step .text) state ls = some state' ∧ Realizes s' state' := by
  have hfits : Fits s'.store := hkeeps s' hstep
  cases op with
  | create spec env =>
    obtain rfl := Option.some.inj hstep
    obtain ⟨t', ht', hleads⟩ := leads_createKey h.table spec env hfits
    obtain ⟨ls, state', hrun, hat⟩ := hleads _ _ (h.tasks.start _)
    exact ⟨.createKey spec :: ls, state', hrun, hat.table ▸ ht', hat.table ▸ hat, hfits, h.held⟩
  | rotate keyId env =>
    obtain rfl := Option.some.inj hstep
    obtain ⟨ls, state', hrun, hs'⟩ :=
      realizes_rotate h.table h.fits h.held (h.tasks.start (.rotate keyId)) hfits
    exact ⟨.rotateKey keyId :: ls, state', hrun, hs'⟩
  | revoke keyId reason now hsmRevokes =>
    obtain rfl := Option.some.inj hstep
    obtain ⟨t', ht', hleads⟩ := leads_revokeKey h.table hfits
    obtain ⟨ls, state', hrun, hat⟩ := hleads _ _ (h.tasks.start _)
    exact ⟨.revokeKey keyId reason :: ls, state', hrun, hat.table ▸ ht', hat.table ▸ hat, hfits,
      h.held⟩
  | check now =>
    obtain rfl := Option.some.inj hstep
    obtain ⟨t', ht', hleads⟩ := leads_checkForRotations h.table h.fits
    obtain ⟨ls, state', hrun, hat⟩ := hleads _ _ (h.tasks.start _)
    refine ⟨.checkForRotations :: ls, state', hrun, hat.table ▸ ht',
      ⟨rfl, hat.policies, hat.tasks.trans ?_⟩, hfits, h.held⟩
    simp only [threads, List.map_append, List.append_assoc]
    exact List.perm_append_comm_assoc _ _ _
  | runSubmitted i env =>
    obtain ⟨keyId, hkeyId, rfl⟩ := Option.map_eq_some_iff.mp hstep
    have hperm := (perm_map_eraseIdx Task.rotate hkeyId).append_right (s.deprecations.map waiting)
    exact realizes_rotate h.table h.fits h.held
      ⟨rfl, h.tasks.policies, h.tasks.tasks.trans hperm⟩ hfits
  | deprecateOldKey i =>
    obtain ⟨d, hd, rfl⟩ := Option.map_eq_some_iff.mp hstep
    have hmem : d ∈ s.deprecations := List.mem_of_getElem? hd
    have hperm := ((perm_map_eraseIdx waiting hd).append_left (s.submitted.map .rotate)).trans
      List.perm_middle
    obtain ⟨t', ht', hleads⟩ := leads_deprecateOldKey h.table (h.held d hmem)
    obtain ⟨ls, state', hrun, hat⟩ :=
      hleads _ state ⟨rfl, h.tasks.policies, h.tasks.tasks.trans hperm⟩
    exact ⟨ls, state', hrun, hat.table ▸ ht', hat.table ▸ hat, hfits,
      fun d hd => h.held d (List.mem_of_mem_eraseIdx hd)⟩

end run

/-- A run of the operations is one of the statements: it comes to the same rows, and the threads
that are left are the rotations that wait for the executor and the deprecations. -/
theorem statements_of_run (policies : Policies) {ops : List Op} {s : System}
    (hrun : run KeyRotation.step { store := .empty, policies := policies } ops = some s)
    (hkeeps : Guarded KeyRotation.step KeepsFit { store := .empty, policies := policies } ops) :
    ∃ ls state, run (RotationThreads.step .text) { policies := policies } ls = some state ∧
      Realizes s state := by
  have hinit : Realizes { store := .empty, policies := policies } { policies := policies } :=
    ⟨rfl, ⟨rfl, rfl, .refl _⟩, fun _ h => absurd h List.not_mem_nil,
      fun _ h => absurd h List.not_mem_nil⟩
  refine run_invariant (I := fun s => ∃ ls state, run (RotationThreads.step .text)
    { policies := policies } ls = some state ∧ Realizes s state) ?_ ⟨[], _, rfl, hinit⟩ hkeeps hrun
  rintro s op s' ⟨ls, state, hls, hs⟩ hkeeps hstep
  obtain ⟨ls', state', hls', hs'⟩ := realizes_step hs hkeeps hstep
  exact ⟨ls ++ ls', state', by rw [run_append, hls, Option.bind_some, hls'], hs'⟩

/-- A key is rotated and its grace period ends, and a pass near their expiry finds both due. -/
def rotatedAndDue : List Op :=
  [.create ⟨"issuer", .signing, "EC", 256, 365, some "yearly"⟩ ⟨"01", some [1], 0⟩,
    .rotate "issuer_signing_01" ⟨"02", some [2], 1⟩, .deprecateOldKey 0, .check (days 340)]

def yearly : RotationPolicy := ⟨"yearly", 365, 30, true⟩

theorem statements_of_run_rotated : ∃ s ls state,
    run KeyRotation.step { store := .empty, policies := [yearly] } rotatedAndDue = some s ∧
      s.submitted = ["issuer_signing_02", "issuer_signing_01"] ∧
      run (RotationThreads.step .text) { policies := [yearly] } ls = some state ∧
      Realizes s state := by
  have hsubmitted : (run KeyRotation.step { store := .empty, policies := [yearly] }
      rotatedAndDue).map (·.submitted) = some ["issuer_signing_02", "issuer_signing_01"] := by
    decide +kernel
  obtain ⟨s, hrun, hs⟩ := Option.map_eq_some_iff.mp hsubmitted
  obtain ⟨ls, state, hls, hrealizes⟩ :=
    statements_of_run [yearly] hrun (by decide +kernel)
  exact ⟨s, ls, state, hrun, hs, hls, hrealizes⟩

end Marty.Security.WholeOperations
