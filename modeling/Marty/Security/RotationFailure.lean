import Marty.Security.KeyRotation

/-! `rotate_key` where the parties that it calls fail.  The old key is marked before its successor
is created, and a failed creation gives it the status of an active key, whatever it had before. -/

namespace Marty.Security.RotationFailure

open Lib.Datetime KeyRotation

/-- How `store_key` ends, where the primary key lets the row in. -/
inductive Insertion
  | made
  | refused
  /-- The row is stored, and the answer is `False` or an exception all the same. -/
  | unconfirmed

/-- What the parties answer.  The HSM answers with the key data of the environment; `distributes` is
false when `distribute_key` raises, `finishes` when the notification or the start of the thread
does. -/
structure Answers where
  env : Env
  insertion : Insertion := .made
  distributes : Bool := true
  finishes : Bool := true

def createKey (spec : KeySpec) (a : Answers) (s : KeyStore) : Option String × KeyStore :=
  match a.env.keyData.filter (· ≠ []) with
  | none => (none, s)
  | some keyData =>
    match s.storeKey keyData (spec.metadata a.env) with
    | none => (none, s)
    | some stored =>
      match a.insertion with
      | .refused => (none, s)
      | .unconfirmed => (none, stored)
      | .made => if a.distributes then (some (spec.keyId a.env), stored) else (none, stored)

def rotateKey (keyId : String) (a : Answers) (s : KeyStore) :
    Option String × KeyStore × Option Deprecation :=
  match s.metadata? keyId with
  | none => (none, s, none)
  | some old =>
    let old := { old with status := .pendingRotation }
    let result := completeRotation keyId old
      (createKey old.successor a (s.updateKeyMetadata keyId old))
    if a.finishes then result else (none, result.2.1, none)

/-- Where nobody fails after the HSM, these are the rotations of `KeyRotation`. -/
theorem rotateKey_answered (keyId : String) (env : Env) (s : KeyStore) :
    rotateKey keyId { env := env } s = KeyRotation.rotateKey keyId env s := rfl

variable {keyId : String} {a : Answers} {s : KeyStore} {old : KeyMetadata}

/-- A creation leaves the keys that exist as they are. -/
theorem createKey_metadata? {m : KeyMetadata} (spec : KeySpec) (a : Answers)
    (h : s.metadata? keyId = some m) : (createKey spec a s).2.metadata? keyId = some m := by
  unfold createKey
  split
  case h_1 => exact h
  case h_2 keyData _ =>
    cases hstore : s.storeKey keyData (spec.metadata a.env) with
    | none => exact h
    | some stored =>
      obtain ⟨hnew, -, hothers⟩ := KeyStore.storeKey_spec hstore
      have hne : keyId ≠ (spec.metadata a.env).keyId := by
        rintro rfl
        rw [h] at hnew
        cases hnew
      have hstored : stored.metadata? keyId = some m := (hothers keyId hne).trans h
      cases a.insertion with
      | refused => exact h
      | unconfirmed => exact hstored
      | made =>
        dsimp only
        split
        · exact hstored
        · exact hstored

/-- The key that a creation returns is new. -/
theorem createKey_new {newKeyId : String} {spec : KeySpec}
    (h : (createKey spec a s).1 = some newKeyId) : s.metadata? newKeyId = none := by
  unfold createKey at h
  split at h
  case h_1 => cases h
  case h_2 keyData _ =>
    cases hstore : s.storeKey keyData (spec.metadata a.env) with
    | none => simp [hstore] at h
    | some stored =>
      simp only [hstore] at h
      cases hinsertion : a.insertion with
      | refused => simp [hinsertion] at h
      | unconfirmed => simp [hinsertion] at h
      | made =>
        simp only [hinsertion] at h
        split at h
        · obtain rfl := Option.some.inj h
          exact (KeyStore.storeKey_spec hstore).1
        · cases h

theorem metadata?_pending (hold : s.metadata? keyId = some old) :
    (s.updateKeyMetadata keyId { old with status := .pendingRotation }).metadata? keyId =
      some { old with status := .pendingRotation } := by
  rw [KeyStore.metadata?_updateKeyMetadata_self, hold]
  rfl

/-- The status in which a rotation leaves its key.  It stays marked when the successor is there,
also where a later failure makes the rotation return nothing. -/
theorem rotateKey_cases (a : Answers) (hold : s.metadata? keyId = some old) :
    ((rotateKey keyId a s).1 = none ∧
      (rotateKey keyId a s).2.1.metadata? keyId = some { old with status := .active }) ∨
    (((rotateKey keyId a s).1 = none ↔ a.finishes = false) ∧
      (rotateKey keyId a s).2.1.metadata? keyId =
        some { old with status := .pendingRotation }) := by
  obtain ⟨pending, hpending, heq⟩ : ∃ pending : KeyMetadata,
      pending = { old with status := .pendingRotation } ∧
      rotateKey keyId a s =
        if a.finishes then completeRotation keyId pending
          (createKey pending.successor a (s.updateKeyMetadata keyId pending))
        else (none, (completeRotation keyId pending
          (createKey pending.successor a (s.updateKeyMetadata keyId pending))).2.1, none) :=
    ⟨_, rfl, by simp only [rotateKey, hold]⟩
  have hmarked : (s.updateKeyMetadata keyId pending).metadata? keyId = some pending :=
    hpending ▸ metadata?_pending hold
  have hcreated := createKey_metadata? pending.successor a hmarked
  rw [heq]
  cases hcreate : createKey pending.successor a (s.updateKeyMetadata keyId pending) with
  | mk newKeyId after =>
    rw [hcreate] at hcreated
    cases newKeyId with
    | none =>
      have hreverted : (after.updateKeyMetadata keyId
          { pending with status := .active }).metadata? keyId =
            some { old with status := .active } := by
        rw [KeyStore.metadata?_updateKeyMetadata_self, hcreated, hpending]
        rfl
      left
      cases a.finishes with
      | true => exact ⟨rfl, hreverted⟩
      | false => exact ⟨rfl, hreverted⟩
    | some newKeyId =>
      have hne : keyId ≠ newKeyId := by
        rintro rfl
        have hnew := createKey_new (congrArg Prod.fst hcreate)
        rw [hmarked] at hnew
        cases hnew
      have hlinked : (linkNewKey after newKeyId keyId pending).metadata? keyId =
          some { old with status := .pendingRotation } := by
        unfold linkNewKey
        split
        · exact hcreated.trans (congrArg some hpending)
        · rw [KeyStore.metadata?_updateKeyMetadata_of_ne _ hne]
          exact hcreated.trans (congrArg some hpending)
      right
      cases a.finishes with
      | true => exact ⟨by simp [completeRotation], hlinked⟩
      | false => exact ⟨by simp, hlinked⟩

/-- A rotation whose failure lies in the creation leaves its key as it was exactly when the key was
active. -/
theorem failed_rotation_iff (hold : s.metadata? keyId = some old) (hfinishes : a.finishes = true)
    (hnone : (rotateKey keyId a s).1 = none) :
    (rotateKey keyId a s).2.1.metadata? keyId = s.metadata? keyId ↔ old.status = .active := by
  rcases rotateKey_cases a hold with ⟨-, hafter⟩ | ⟨hiff, -⟩
  · rw [hafter, hold]
    constructor
    · intro h
      rw [← Option.some.inj h]
    · intro h
      rw [← h]
  · rw [hiff, hfinishes] at hnone
    cases hnone

def deprecatedKey : KeyMetadata where
  keyId := "svc_tls_00000000"
  keyType := .tls
  algorithm := "RSA"
  keySize := 2048
  serviceName := "svc"
  createdAt := 0
  expiresAt := days 365
  status := .deprecated

/-- A store of one key. -/
def storeOf (metadata : KeyMetadata) : KeyStore := ⟨[⟨[0], metadata⟩], List.nodup_singleton _⟩

/-- The HSM raises. -/
def noKeyData : Answers := { env := ⟨"11111111", none, 0⟩ }

theorem active_unchanged :
    (rotateKey "svc_tls_00000000" noKeyData
      (storeOf { deprecatedKey with status := .active })).2.1.metadata? "svc_tls_00000000" =
      (storeOf { deprecatedKey with status := .active }).metadata? "svc_tls_00000000" :=
  (failed_rotation_iff rfl rfl rfl).mpr rfl

/-- A deprecated key is active again after its rotation has failed. -/
theorem deprecated_reactivated :
    (rotateKey "svc_tls_00000000" noKeyData (storeOf deprecatedKey)).1 = none ∧
      ((storeOf deprecatedKey).metadata? "svc_tls_00000000").map (·.status) = some .deprecated ∧
      ((rotateKey "svc_tls_00000000" noKeyData (storeOf deprecatedKey)).2.1.metadata?
        "svc_tls_00000000").map (·.status) = some .active := by
  decide

end Marty.Security.RotationFailure
