import Marty.Security.KeyRotation

/-! What becomes of a revoked key.  The operations on other keys and the passes of
`_check_for_rotations` leave it alone; a rotation of the key, and a deprecation left over from
an earlier rotation, write over its status. -/

namespace Marty.Security.Revocation

open Lib Lib.Datetime Lib.Run KeyRotation

variable {k keyId : String} {m : KeyMetadata} {s s' : KeyStore}

theorem createKey_keeps (h : s.metadata? k = some m) (spec : KeySpec) (env : Env) :
    (createKey spec env s).2.metadata? k = some m := by
  obtain hc | ⟨s', hc, hnew, -, hother⟩ := createKey_spec spec env s
  · rw [hc, h]
  · have hne : k ≠ spec.keyId env := by
      rintro rfl
      simp [hnew] at h
    rw [hc, hother k hne, h]

theorem rotateKey_keeps (h : s.metadata? k = some m) (hne : k ≠ keyId) (env : Env) :
    (rotateKey keyId env s).2.1.metadata? k = some m := by
  have hrotated := rotateKey_rotated keyId env s
  generalize (rotateKey keyId env s).2.1 = s', (rotateKey keyId env s).2.2 = d at hrotated
  cases hrotated with
  | missing => exact h
  | failed hold hself hother => rw [hother k hne, h]
  | @done _ _ _ newKeyId hold hnew hself hsuccessor hchild hother =>
    have hk : k ≠ newKeyId := by
      rintro rfl
      rw [h] at hnew
      cases hnew
    rw [hother k hne hk, h]

/-- A pass writes only to keys it has listed as active or deprecated. -/
theorem checkForRotations_keeps (h : s.metadata? k = some m) (hactive : m.status ≠ .active)
    (hdeprecated : m.status ≠ .deprecated) (policies : Policies) (now : Time) :
    (checkForRotations policies now s).1.metadata? k = some m := by
  have hlist : ∀ listed ∈ s.listKeys, listed.keyId = k → listed = m := by
    rintro listed hmem rfl
    have := KeyStore.metadata?_of_mem_listKeys hmem
    simpa [h, eq_comm] using this
  have hfold : ∀ (keys : List KeyMetadata) (acc : KeyStore × List String),
      (∀ listed ∈ keys, listed.keyId = k → listed = m) → acc.1.metadata? k = some m →
        (keys.foldl (checkKey policies now) acc).1.metadata? k = some m := by
    intro keys
    induction keys with
    | nil => exact fun _ _ hacc => hacc
    | cons listed keys ih =>
      intro acc hkeys hacc
      refine ih _ (fun x hx => hkeys x (List.mem_cons_of_mem _ hx)) ?_
      unfold checkKey
      split_ifs with hskip hexpired hpolicy
      · exact hacc
      · have hne : k ≠ listed.keyId := by
          intro hk
          rw [hkeys listed List.mem_cons_self hk.symm] at hskip
          exact hskip ⟨hactive, hdeprecated⟩
        rw [KeyStore.metadata?_updateKeyMetadata_of_ne _ hne, hacc]
      · exact hacc
      · exact hacc
  exact hfold s.listKeys (s, []) hlist h

/-- The key an operation rotates, deprecates or revokes. -/
def target (s : System) : Op → Option String
  | .create _ _ => none
  | .rotate keyId _ => some keyId
  | .revoke keyId _ _ _ => some keyId
  | .check _ => none
  | .runSubmitted i _ => s.submitted[i]?
  | .deprecateOldKey i => s.deprecations[i]?.map (·.keyId)

/-- While the key is revoked it is not rotated, deprecated or revoked once more. -/
def Spares (k : String) (s : System) (op : Op) : Prop :=
  (s.store.metadata? k).map (·.status) = some .revoked → target s op ≠ some k

theorem step_keeps {s s' : System} {op : Op} (h : s.store.metadata? k = some m)
    (hrevoked : m.status = .revoked) (hg : Spares k s op) (hs : step s op = some s') :
    s'.store.metadata? k = some m := by
  have hg : target s op ≠ some k := hg (by simp [h, hrevoked])
  cases op with
  | create spec env =>
    obtain rfl := Option.some.inj hs
    exact createKey_keeps h spec env
  | rotate keyId env =>
    obtain rfl := Option.some.inj hs
    exact rotateKey_keeps h (fun hk => hg (by rw [target, hk])) env
  | revoke keyId reason now hsmRevokes =>
    obtain rfl := Option.some.inj hs
    have hne : k ≠ keyId := fun hk => hg (by rw [target, hk])
    simp only [revokeKey]
    split
    · exact h
    · exact (KeyStore.metadata?_updateKeyMetadata_of_ne _ hne).trans h
  | check now =>
    obtain rfl := Option.some.inj hs
    exact checkForRotations_keeps h (by simp [hrevoked]) (by simp [hrevoked]) _ _
  | runSubmitted i env =>
    obtain ⟨keyId, hi, rfl⟩ := Option.map_eq_some_iff.mp hs
    exact rotateKey_keeps h (fun hk => hg (by rw [target, hi, hk])) env
  | deprecateOldKey i =>
    obtain ⟨d, hi, rfl⟩ := Option.map_eq_some_iff.mp hs
    have hne : k ≠ d.keyId := fun hk => hg (by rw [target, hi, hk, Option.map_some])
    exact (KeyStore.metadata?_updateKeyMetadata_of_ne _ hne).trans h

/-- The stored metadata of a key revoked for `reason` at `now`. -/
def Revoked (s : KeyStore) (k reason : String) (now : Time) : Prop :=
  ∃ m, s.metadata? k = some m ∧ m.status = .revoked ∧
    m.tags.lookup "revocation_reason" = some reason ∧
    m.tags.lookup "revoked_at" = some (isoformat now)

theorem revokeKey_revokes {reason : String} {now : Time} {hsmRevokes : Bool}
    (h : (revokeKey k reason now hsmRevokes s).1 = true) :
    Revoked (revokeKey k reason now hsmRevokes s).2 k reason now := by
  unfold revokeKey at h ⊢
  cases hk : s.metadata? k with
  | none => simp [hk] at h
  | some m =>
    refine ⟨KeyStore.updated (revokeMetadata reason now m) m, ?_, rfl, ?_, ?_⟩
    · exact (KeyStore.metadata?_updateKeyMetadata_self _).trans (by rw [hk]; rfl)
    · exact (Dict.lookup_set_of_ne (by decide) _ _).trans (Dict.lookup_set_self _ _ _)
    · exact Dict.lookup_set_self _ _ _

/-- Once `revoke_key` has returned true, the key stays revoked, with the tags of that call,
through every run that spares it. -/
theorem revoked_stays_of_spared {s s₁ s₂ : System} {k reason : String} {now : Time}
    {hsmRevokes : Bool} {ops : List Op}
    (hrevoke : step s (.revoke k reason now hsmRevokes) = some s₁)
    (htrue : (revokeKey k reason now hsmRevokes s.store).1 = true)
    (hg : Guarded step (Spares k) s₁ ops) (hr : run step s₁ ops = some s₂) :
    Revoked s₂.store k reason now := by
  obtain rfl := Option.some.inj hrevoke
  obtain ⟨m, hm, hstatus, htags⟩ := revokeKey_revokes htrue
  have hkept : s₂.store.metadata? k = some m :=
    run_invariant (I := fun s => s.store.metadata? k = some m)
      (fun _ _ _ h hg hs => step_keeps h hstatus hg hs) hm hg hr
  exact ⟨m, hkept, hstatus, htags⟩

def issuerKey : KeySpec where
  serviceName := "issuer"
  keyType := .signing
  algorithm := "EC"
  keySize := 256

/-- A manager with the one key `issuer_signing_01`. -/
def issuer : System where
  store := (createKey issuerKey ⟨"01", some [1], 0⟩ KeyStore.empty).2

/-- A revoked key through a pass long after its expiry. -/
theorem revoked_stays_through_check :
    Revoked (checkForRotations [] (days 400)
      (revokeKey "issuer_signing_01" "compromised" 1 true issuer.store).2).1
      "issuer_signing_01" "compromised" 1 :=
  @revoked_stays_of_spared issuer _ _ _ _ _ true [.check (days 400)] rfl rfl
    (And.intro (fun _ => nofun) trivial) rfl

/-- A deprecation left over from an earlier rotation undoes the revocation. -/
theorem deprecation_undoes_revocation :
    ∃ s s₁ s₂, step issuer (.rotate "issuer_signing_01" ⟨"02", some [2], 1⟩) = some s ∧
      step s (.revoke "issuer_signing_01" "compromised" 2 true) = some s₁ ∧
      (revokeKey "issuer_signing_01" "compromised" 2 true s.store).1 = true ∧
      run step s₁ [.deprecateOldKey 0] = some s₂ ∧
      ¬ Revoked s₂.store "issuer_signing_01" "compromised" 2 := by
  refine ⟨_, _, _, rfl, rfl, rfl, rfl, ?_⟩
  rintro ⟨m, hm, hrevoked, -⟩
  have hstatus : some KeyStatus.deprecated = some m.status :=
    congrArg (Option.map KeyMetadata.status) hm
  rw [hrevoked] at hstatus
  cases hstatus

end Marty.Security.Revocation
