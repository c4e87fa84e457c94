import Mathlib.Data.List.Sort
import Marty.Lib.Datetime
import Marty.Lib.Dict
import Marty.Lib.Run

/-! `KeyRotationManager` over a key store.  An operation runs as a whole; what it leaves for
later is in the state: the rotations handed to the executor, and the deprecations that wait out
the grace period with the metadata object of their rotation. -/

namespace Marty.Security.KeyRotation

open Lib Lib.Datetime

inductive KeyType
  | signing | encryption | rootCa | intermediateCa | documentSigner | tls | apiKey
  deriving DecidableEq

def KeyType.value : KeyType → String
  | .signing => "signing"
  | .encryption => "encryption"
  | .rootCa => "root_ca"
  | .intermediateCa => "intermediate_ca"
  | .documentSigner => "document_signer"
  | .tls => "tls"
  | .apiKey => "api_key"

inductive KeyStatus
  | active | pendingRotation | rotationInProgress | deprecated | revoked | expired
  deriving DecidableEq

structure KeyMetadata where
  keyId : String
  keyType : KeyType
  algorithm : String
  keySize : Int
  serviceName : String
  createdAt : Time
  expiresAt : Time
  status : KeyStatus := .active
  version : Int := 1
  parentKeyId : Option String := none
  rotationPolicyId : Option String := none
  tags : List (String × String) := []
  deriving DecidableEq

def KeyMetadata.isExpired (k : KeyMetadata) (now : Time) : Bool := decide (now > k.expiresAt)

def KeyMetadata.needsRotation (k : KeyMetadata) (warningDays : Int) (now : Time) : Bool :=
  decide (k.expiresAt ≤ now + days warningDays)

structure RotationPolicy where
  policyId : String
  rotationIntervalDays : Int
  warningDays : Int := 30
  autoRotate : Bool := true

def RotationPolicy.shouldRotate (p : RotationPolicy) (k : KeyMetadata) (now : Time) : Bool :=
  p.autoRotate &&
    (decide (daysOf (now - k.createdAt) ≥ p.rotationIntervalDays) ||
      k.needsRotation p.warningDays now)

structure KeyRow where
  keyData : List UInt8
  metadata : KeyMetadata
  deriving DecidableEq

/-- The rows of `key_store`, with its primary key. -/
structure KeyStore where
  rows : List KeyRow
  primaryKey : (rows.map (·.metadata.keyId)).Nodup

namespace KeyStore

variable (s : KeyStore)

def empty : KeyStore := ⟨[], List.nodup_nil⟩

def getKey (keyId : String) : Option KeyRow := s.rows.find? (·.metadata.keyId = keyId)

def metadata? (keyId : String) : Option KeyMetadata := (s.getKey keyId).map (·.metadata)

/-- `none` when the insertion breaks the primary key. -/
def storeKey (keyData : List UInt8) (metadata : KeyMetadata) : Option KeyStore :=
  if h : metadata.keyId ∈ s.rows.map (·.metadata.keyId) then none
  else some ⟨s.rows ++ [⟨keyData, metadata⟩], by
    simpa [List.nodup_append, s.primaryKey] using h⟩

def listKeys : List KeyMetadata :=
  (s.rows.map (·.metadata)).insertionSort fun a b => a.createdAt ≥ b.createdAt

/-- The columns that `UPDATE key_store SET` names. -/
def updated (metadata row : KeyMetadata) : KeyMetadata :=
  { row with
    status := metadata.status
    version := metadata.version
    parentKeyId := metadata.parentKeyId
    rotationPolicyId := metadata.rotationPolicyId
    tags := metadata.tags }

def updateRow (keyId : String) (metadata : KeyMetadata) (row : KeyRow) : KeyRow :=
  if row.metadata.keyId = keyId then { row with metadata := updated metadata row.metadata } else row

theorem updateRow_keyId (keyId : String) (metadata : KeyMetadata) (row : KeyRow) :
    (updateRow keyId metadata row).metadata.keyId = row.metadata.keyId := by
  unfold updateRow
  split <;> rfl

def updateKeyMetadata (keyId : String) (metadata : KeyMetadata) : KeyStore where
  rows := s.rows.map (updateRow keyId metadata)
  primaryKey := by
    simpa [Function.comp_def, updateRow_keyId] using s.primaryKey

variable {s} {keyId keyId' : String} {m : KeyMetadata}

theorem metadata?_eq_none_iff :
    s.metadata? keyId = none ↔ keyId ∉ s.rows.map (·.metadata.keyId) := by
  simp [metadata?, getKey]

theorem getKey_updateKeyMetadata (m : KeyMetadata) :
    (s.updateKeyMetadata keyId m).getKey keyId' = (s.getKey keyId').map (updateRow keyId m) := by
  simp [getKey, updateKeyMetadata, List.find?_map, Function.comp_def, updateRow_keyId]

theorem metadata?_updateKeyMetadata_self (m : KeyMetadata) :
    (s.updateKeyMetadata keyId m).metadata? keyId = (s.metadata? keyId).map (updated m) := by
  simp only [metadata?, getKey_updateKeyMetadata]
  cases h : s.getKey keyId with
  | none => rfl
  | some row =>
    have hrow : row.metadata.keyId = keyId := by simpa using List.find?_some h
    simp [updateRow, hrow]

theorem metadata?_updateKeyMetadata_of_ne (m : KeyMetadata) (hne : keyId' ≠ keyId) :
    (s.updateKeyMetadata keyId m).metadata? keyId' = s.metadata? keyId' := by
  simp only [metadata?, getKey_updateKeyMetadata]
  cases h : s.getKey keyId' with
  | none => rfl
  | some row =>
    have hrow : row.metadata.keyId ≠ keyId := by
      have : row.metadata.keyId = keyId' := by simpa using List.find?_some h
      rwa [this]
    simp [updateRow, hrow]

/-- An insertion takes a new key identifier and leaves the other keys as they are. -/
theorem storeKey_spec {s' : KeyStore} {keyData : List UInt8} (h : s.storeKey keyData m = some s') :
    s.metadata? m.keyId = none ∧ s'.metadata? m.keyId = some m ∧
      ∀ keyId, keyId ≠ m.keyId → s'.metadata? keyId = s.metadata? keyId := by
  unfold storeKey at h
  split at h
  case isTrue => cases h
  case isFalse hnew =>
    obtain rfl := Option.some.inj h
    have hnone : s.getKey m.keyId = none := by
      simpa [metadata?] using metadata?_eq_none_iff.mpr hnew
    refine ⟨metadata?_eq_none_iff.mpr hnew, ?_, ?_⟩
    · unfold getKey at hnone
      simp [metadata?, getKey, List.find?_append, hnone]
    · intro keyId hne
      simp [metadata?, getKey, List.find?_append, hne.symm]

theorem metadata?_of_mem_listKeys (h : m ∈ s.listKeys) : s.metadata? m.keyId = some m := by
  simp only [listKeys, List.mem_insertionSort, List.mem_map] at h
  obtain ⟨row, hrow, rfl⟩ := h
  have hget : s.getKey row.metadata.keyId = some row := by
    cases hget : s.getKey row.metadata.keyId with
    | none => simp [getKey] at hget; exact absurd rfl (hget row hrow)
    | some row' =>
      have hmem : row' ∈ s.rows := List.mem_of_find?_eq_some hget
      have hid : row'.metadata.keyId = row.metadata.keyId := by simpa using List.find?_some hget
      rw [List.inj_on_of_nodup_map s.primaryKey hmem hrow hid]
  simp [metadata?, hget]

end KeyStore

/-- What a call meets outside: the hexadecimal digits of its `uuid4`, the key material of the
HSM (`none` when it raises) and the time. -/
structure Env where
  hex : String
  keyData : Option (List UInt8)
  now : Time

structure KeySpec where
  serviceName : String
  keyType : KeyType
  algorithm : String
  keySize : Int
  validityDays : Int := 365
  rotationPolicyId : Option String := none

def KeySpec.keyId (spec : KeySpec) (env : Env) : String :=
  spec.serviceName ++ "_" ++ spec.keyType.value ++ "_" ++ env.hex

def KeySpec.metadata (spec : KeySpec) (env : Env) : KeyMetadata where
  keyId := spec.keyId env
  keyType := spec.keyType
  algorithm := spec.algorithm
  keySize := spec.keySize
  serviceName := spec.serviceName
  createdAt := env.now
  expiresAt := env.now + days spec.validityDays
  rotationPolicyId := spec.rotationPolicyId

def createKey (spec : KeySpec) (env : Env) (s : KeyStore) : Option String × KeyStore :=
  match env.keyData.filter (· ≠ []) with
  | none => (none, s)
  | some keyData =>
    match s.storeKey keyData (spec.metadata env) with
    | none => (none, s)
    | some s => (some (spec.keyId env), s)

theorem createKey_spec (spec : KeySpec) (env : Env) (s : KeyStore) :
    createKey spec env s = (none, s) ∨
      ∃ s', createKey spec env s = (some (spec.keyId env), s') ∧
        s.metadata? (spec.keyId env) = none ∧
        s'.metadata? (spec.keyId env) = some (spec.metadata env) ∧
        ∀ k, k ≠ spec.keyId env → s'.metadata? k = s.metadata? k := by
  unfold createKey
  split
  case h_1 => exact .inl rfl
  case h_2 keyData _ =>
    cases h : s.storeKey keyData (spec.metadata env) with
    | none => exact .inl rfl
    | some s' => exact .inr ⟨s', rfl, KeyStore.storeKey_spec h⟩

/-- The successor a rotation asks for: the validity is the default one. -/
def KeyMetadata.successor (old : KeyMetadata) : KeySpec where
  serviceName := old.serviceName
  keyType := old.keyType
  algorithm := old.algorithm
  keySize := old.keySize
  rotationPolicyId := old.rotationPolicyId

/-- `deprecate_old_key` with what it closes over. -/
structure Deprecation where
  keyId : String
  oldMetadata : KeyMetadata

def linkNewKey (s : KeyStore) (newKeyId keyId : String) (old : KeyMetadata) : KeyStore :=
  match s.metadata? newKeyId with
  | none => s
  | some new =>
    s.updateKeyMetadata newKeyId
      { new with parentKeyId := some keyId, version := old.version + 1 }

/-- The rest of a rotation once `create_key` has returned. -/
def completeRotation (keyId : String) (old : KeyMetadata) :
    Option String × KeyStore → Option String × KeyStore × Option Deprecation
  | (none, s) => (none, s.updateKeyMetadata keyId { old with status := .active }, none)
  | (some newKeyId, s) => (some newKeyId, linkNewKey s newKeyId keyId old, some ⟨keyId, old⟩)

def rotateKey (keyId : String) (env : Env) (s : KeyStore) :
    Option String × KeyStore × Option Deprecation :=
  match s.metadata? keyId with
  | none => (none, s, none)
  | some old =>
    let old := { old with status := .pendingRotation }
    completeRotation keyId old
      (createKey old.successor env (s.updateKeyMetadata keyId old))

/-- What a rotation does to the store, and the deprecation it leaves. -/
inductive Rotated (keyId : String) (env : Env) (s : KeyStore) :
    KeyStore → Option Deprecation → Prop
  | missing (hmissing : s.metadata? keyId = none) : Rotated keyId env s s none
  | failed {s' : KeyStore} {old : KeyMetadata} (hold : s.metadata? keyId = some old)
      (hself : s'.metadata? keyId = some { old with status := .active })
      (hother : ∀ k, k ≠ keyId → s'.metadata? k = s.metadata? k) : Rotated keyId env s s' none
  | done {s' : KeyStore} {old new : KeyMetadata} {newKeyId : String}
      (hold : s.metadata? keyId = some old) (hnew : s.metadata? newKeyId = none)
      (hself : s'.metadata? keyId = some { old with status := .pendingRotation })
      (hsuccessor : new = { old.successor.metadata env with
        parentKeyId := some keyId, version := old.version + 1 })
      (hchild : s'.metadata? newKeyId = some new)
      (hother : ∀ k, k ≠ keyId → k ≠ newKeyId → s'.metadata? k = s.metadata? k) :
    Rotated keyId env s s' (some ⟨keyId, { old with status := .pendingRotation }⟩)

theorem rotateKey_rotated (keyId : String) (env : Env) (s : KeyStore) :
    Rotated keyId env s (rotateKey keyId env s).2.1 (rotateKey keyId env s).2.2 := by
  cases hold : s.metadata? keyId with
  | none =>
    simp only [rotateKey, hold]
    exact .missing hold
  | some old =>
    obtain ⟨pending, hold', heq⟩ : ∃ pending : KeyMetadata,
        pending = { old with status := .pendingRotation } ∧
        rotateKey keyId env s = completeRotation keyId pending
          (createKey pending.successor env (s.updateKeyMetadata keyId pending)) :=
      ⟨_, rfl, by simp only [rotateKey, hold]⟩
    rw [heq]
    have hpending : (s.updateKeyMetadata keyId pending).metadata? keyId = some pending := by
      rw [KeyStore.metadata?_updateKeyMetadata_self, hold, hold']
      rfl
    have hothers : ∀ k, k ≠ keyId →
        (s.updateKeyMetadata keyId pending).metadata? k = s.metadata? k :=
      fun k hk => KeyStore.metadata?_updateKeyMetadata_of_ne _ hk
    obtain hc | ⟨s₁, hc, hfree, hcreated, hkept⟩ :=
      createKey_spec pending.successor env (s.updateKeyMetadata keyId pending)
    · rw [hc]
      refine .failed hold ?_ fun k hk => ?_
      · exact (KeyStore.metadata?_updateKeyMetadata_self _).trans (by rw [hpending, hold']; rfl)
      · exact (KeyStore.metadata?_updateKeyMetadata_of_ne _ hk).trans (hothers k hk)
    · have hne : keyId ≠ pending.successor.keyId env := by
        intro h
        rw [← h, hpending] at hfree
        cases hfree
      rw [hc]
      simp only [completeRotation, linkNewKey, hcreated]
      subst hold'
      refine .done hold ((hothers _ hne.symm).symm.trans hfree) ?_ rfl ?_ fun k hk hk' => ?_
      · exact (KeyStore.metadata?_updateKeyMetadata_of_ne _ hne).trans
          ((hkept _ hne).trans hpending)
      · exact (KeyStore.metadata?_updateKeyMetadata_self _).trans (by rw [hcreated]; rfl)
      · exact (KeyStore.metadata?_updateKeyMetadata_of_ne _ hk').trans
          ((hkept k hk').trans (hothers k hk))

def deprecateOldKey (d : Deprecation) (s : KeyStore) : KeyStore :=
  s.updateKeyMetadata d.keyId { d.oldMetadata with status := .deprecated }

def revokeMetadata (reason : String) (now : Time) (m : KeyMetadata) : KeyMetadata :=
  { m with
    status := .revoked
    tags := Dict.set "revoked_at" (isoformat now) (Dict.set "revocation_reason" reason m.tags) }

/-- `hsmRevokes` is false when the HSM raises, which is after the update of the store. -/
def revokeKey (keyId reason : String) (now : Time) (hsmRevokes : Bool) (s : KeyStore) :
    Bool × KeyStore :=
  match s.metadata? keyId with
  | none => (false, s)
  | some metadata =>
    (hsmRevokes, s.updateKeyMetadata keyId (revokeMetadata reason now metadata))

abbrev Policies := List RotationPolicy

def policy? (policies : Policies) (k : KeyMetadata) : Option RotationPolicy :=
  (k.rotationPolicyId.filter (· ≠ "")).bind fun policyId =>
    policies.find? (·.policyId = policyId)

/-- The loop body of `_check_for_rotations`: the store after it and the rotations submitted. -/
def checkKey (policies : Policies) (now : Time) (acc : KeyStore × List String) (k : KeyMetadata) :
    KeyStore × List String :=
  if k.status ≠ .active ∧ k.status ≠ .deprecated then acc
  else if k.isExpired now then
    (acc.1.updateKeyMetadata k.keyId { k with status := .expired }, acc.2)
  else if (policy? policies k).any (·.shouldRotate k now) then (acc.1, acc.2 ++ [k.keyId])
  else acc

def checkForRotations (policies : Policies) (now : Time) (s : KeyStore) : KeyStore × List String :=
  s.listKeys.foldl (checkKey policies now) (s, [])

structure System where
  store : KeyStore
  policies : Policies := []
  submitted : List String := []
  deprecations : List Deprecation := []

inductive Op
  | create (spec : KeySpec) (env : Env)
  | rotate (keyId : String) (env : Env)
  | revoke (keyId reason : String) (now : Time) (hsmRevokes : Bool)
  | check (now : Time)
  /-- The executor runs a submitted rotation. -/
  | runSubmitted (i : Nat) (env : Env)
  /-- The grace period of a rotation ends. -/
  | deprecateOldKey (i : Nat)

def System.rotate (s : System) (keyId : String) (env : Env) : System :=
  let (_, store, deprecation) := rotateKey keyId env s.store
  { s with store := store, deprecations := s.deprecations ++ deprecation.toList }

def step (s : System) : Op → Option System
  | .create spec env => some { s with store := (createKey spec env s.store).2 }
  | .rotate keyId env => some (s.rotate keyId env)
  | .revoke keyId reason now hsmRevokes =>
    some { s with store := (revokeKey keyId reason now hsmRevokes s.store).2 }
  | .check now =>
    let (store, submitted) := checkForRotations s.policies now s.store
    some { s with store := store, submitted := s.submitted ++ submitted }
  | .runSubmitted i env =>
    s.submitted[i]?.map fun keyId =>
      { s with submitted := s.submitted.eraseIdx i }.rotate keyId env
  | .deprecateOldKey i =>
    s.deprecations[i]?.map fun d =>
      { s with
        store := KeyRotation.deprecateOldKey d s.store
        deprecations := s.deprecations.eraseIdx i }

end Marty.Security.KeyRotation
