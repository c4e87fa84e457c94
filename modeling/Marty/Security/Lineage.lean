import Marty.Lib.Forest
import Marty.Security.KeyRotation

/-! The lineage of keys.  A rotation gives the new key its parent and its version in a second
write, and the passes and the deferred deprecations write whole metadata objects back that they
have read before; none of this changes what a key has of its lineage. -/

namespace Marty.Security.Lineage

open Lib Lib.Datetime Lib.Forest Lib.Run KeyRotation

/-- What a key and its successor are compared in. -/
structure Line where
  serviceName : String
  keyType : KeyType
  algorithm : String
  keySize : Int
  rotationPolicyId : Option String
  version : Int
  parentKeyId : Option String

def line (m : KeyMetadata) : Line where
  serviceName := m.serviceName
  keyType := m.keyType
  algorithm := m.algorithm
  keySize := m.keySize
  rotationPolicyId := m.rotationPolicyId
  version := m.version
  parentKeyId := m.parentKeyId

def Line.child (l : Line) (keyId : String) : Line :=
  { l with version := l.version + 1, parentKeyId := some keyId }

def lines (s : KeyStore) (keyId : String) : Option Line := (s.metadata? keyId).map line

def status (s : KeyStore) (keyId : String) : Option KeyStatus := (s.metadata? keyId).map (·.status)

variable {s s' : KeyStore} {k keyId : String} {m : KeyMetadata}

theorem status_of_metadata (h : s.metadata? k = some m) : status s k = some m.status := by
  rw [status, h, Option.map_some]

theorem lines_of_metadata (h : s.metadata? k = some m) : lines s k = some (line m) := by
  rw [lines, h, Option.map_some]

theorem lines_of_none (h : s.metadata? k = none) : lines s k = none := by
  rw [lines, h, Option.map_none]

theorem lines_congr (h : s'.metadata? k = s.metadata? k) : lines s' k = lines s k :=
  congrArg (Option.map line) h

/-- A write of metadata that agrees with the row in its lineage leaves the lineages as they are. -/
theorem lines_updateKeyMetadata (h : lines s keyId = some (line m)) :
    lines (s.updateKeyMetadata keyId m) = lines s := by
  obtain ⟨row, hrow, hline⟩ := Option.map_eq_some_iff.mp h
  funext k
  by_cases hk : k = keyId
  · subst hk
    have hupdated : line (KeyStore.updated m row) = line row := by
      simp only [line, Line.mk.injEq] at hline
      simp [line, KeyStore.updated, hline]
    rw [lines, KeyStore.metadata?_updateKeyMetadata_self, hrow, Option.map_some, Option.map_some,
      hupdated, lines_of_metadata hrow]
  · exact lines_congr (KeyStore.metadata?_updateKeyMetadata_of_ne _ hk)

/-- The lineages before and after an operation: a key has been created, on its own or as the
successor of another, or none has. -/
inductive Evolves (f : String → Option Line) : (String → Option Line) → Prop
  | same : Evolves f f
  | root {keyId : String} {l : Line} (hnew : f keyId = none) (hversion : l.version = 1)
      (hparent : l.parentKeyId = none) : Evolves f (Function.update f keyId (some l))
  | child {keyId newKeyId : String} {l : Line} (hold : f keyId = some l)
      (hnew : f newKeyId = none) : Evolves f (Function.update f newKeyId (some (l.child keyId)))

theorem Evolves.kept {f g : String → Option Line} (h : Evolves f g) {l : Line}
    (hk : f k = some l) : g k = some l := by
  have hne : ∀ {k'}, f k' = none → k ≠ k' := by
    rintro _ hnone rfl
    rw [hk] at hnone
    cases hnone
  cases h with
  | same => exact hk
  | root hnew => rw [Function.update_of_ne (hne hnew), hk]
  | child hold hnew => rw [Function.update_of_ne (hne hnew), hk]

/-- A store that has one key more. -/
theorem lines_of_new {newKeyId : String} (hnew : s'.metadata? newKeyId = some m)
    (hother : ∀ k, k ≠ newKeyId → lines s' k = lines s k) :
    lines s' = Function.update (lines s) newKeyId (some (line m)) := by
  funext k
  by_cases hk : k = newKeyId
  · subst hk
    rw [Function.update_self, lines_of_metadata hnew]
  · rw [Function.update_of_ne hk, hother k hk]

theorem createKey_evolves (spec : KeySpec) (env : Env) (s : KeyStore) :
    Evolves (lines s) (lines (createKey spec env s).2) := by
  obtain hc | ⟨s', hc, hfree, hcreated, hkept⟩ := createKey_spec spec env s
  · rw [hc]
    exact .same
  · rw [hc, lines_of_new hcreated fun k hk => lines_congr (hkept k hk)]
    exact .root (lines_of_none hfree) rfl rfl

/-- The lineages after a rotation. -/
theorem lines_rotated {env : Env} {d : Option Deprecation} (h : Rotated keyId env s s' d) :
    lines s' = lines s ∨ ∃ l newKeyId, lines s keyId = some l ∧ lines s newKeyId = none ∧
      status s' keyId = some .pendingRotation ∧
      lines s' = Function.update (lines s) newKeyId (some (l.child keyId)) := by
  cases h with
  | missing => exact .inl rfl
  | failed hold hself hother =>
    left
    funext k
    by_cases hk : k = keyId
    · subst hk
      rw [lines_of_metadata hself, lines_of_metadata hold]
      rfl
    · exact lines_congr (hother k hk)
  | @done _ old new newKeyId hold hnew hself hsuccessor hchild hother =>
    have hline : line new = (line old).child keyId := by
      rw [hsuccessor]
      rfl
    refine .inr ⟨line old, newKeyId, lines_of_metadata hold, lines_of_none hnew,
      status_of_metadata hself, ?_⟩
    rw [lines_of_new (s := s) hchild, hline]
    intro k hk
    by_cases hk' : k = keyId
    · subst hk'
      rw [lines_of_metadata hself, lines_of_metadata hold]
      rfl
    · exact lines_congr (hother k hk' hk)

theorem rotated_evolves {env : Env} {d : Option Deprecation} (h : Rotated keyId env s s' d) :
    Evolves (lines s) (lines s') := by
  rcases lines_rotated h with hsame | ⟨l, newKeyId, hold, hnew, -, hlines⟩
  · rw [hsame]
    exact .same
  · rw [hlines]
    exact .child hold hnew

theorem rotateKey_evolves (keyId : String) (env : Env) (s : KeyStore) :
    Evolves (lines s) (lines (rotateKey keyId env s).2.1) :=
  rotated_evolves (rotateKey_rotated keyId env s)

/-- The metadata of a deprecation agrees with its key. -/
def Agrees (s : KeyStore) (d : Deprecation) : Prop := lines s d.keyId = some (line d.oldMetadata)

theorem Agrees.evolves {d : Deprecation} (h : Agrees s d) (he : Evolves (lines s) (lines s')) :
    Agrees s' d :=
  he.kept h

theorem rotateKey_agrees {env : Env} {d : Deprecation}
    (hd : (rotateKey keyId env s).2.2 = some d) : Agrees (rotateKey keyId env s).2.1 d := by
  have h := rotateKey_rotated keyId env s
  rw [hd] at h
  generalize (rotateKey keyId env s).2.1 = s' at h ⊢
  cases h with
  | done hold hnew hself => exact lines_of_metadata hself

theorem lines_checkKey {policies : Policies} {now : Time} {acc : KeyStore × List String}
    (hm : lines acc.1 m.keyId = some (line m)) :
    lines (checkKey policies now acc m).1 = lines acc.1 := by
  unfold checkKey
  split_ifs
  · rfl
  · exact lines_updateKeyMetadata hm
  · rfl
  · rfl

theorem lines_checkForRotations (policies : Policies) (now : Time) (s : KeyStore) :
    lines (checkForRotations policies now s).1 = lines s := by
  have hlist : ∀ m ∈ s.listKeys, lines s m.keyId = some (line m) :=
    fun m hm => lines_of_metadata (KeyStore.metadata?_of_mem_listKeys hm)
  have hfold : ∀ (keys : List KeyMetadata) (acc : KeyStore × List String),
      (∀ m ∈ keys, lines s m.keyId = some (line m)) → lines acc.1 = lines s →
        lines (keys.foldl (checkKey policies now) acc).1 = lines s := by
    intro keys
    induction keys with
    | nil => exact fun _ _ hacc => hacc
    | cons m keys ih =>
      intro acc hkeys hacc
      refine ih _ (fun x hx => hkeys x (List.mem_cons_of_mem _ hx)) ?_
      rw [lines_checkKey (hacc ▸ hkeys m List.mem_cons_self), hacc]
  exact hfold s.listKeys (s, []) hlist rfl

/-- Every line is the first of its kind, or the child of one that is there. -/
def WellFormed (f : String → Option Line) : Prop :=
  ∀ k l, f k = some l → l.version = 1 ∧ l.parentKeyId = none ∨
    ∃ p parent, f p = some parent ∧ l = parent.child p

theorem WellFormed.evolves {f g : String → Option Line} (hf : WellFormed f) (h : Evolves f g) :
    WellFormed g := by
  have hold : ∀ {k l}, f k = some l → l.version = 1 ∧ l.parentKeyId = none ∨
      ∃ p parent, g p = some parent ∧ l = parent.child p := by
    intro k l hk
    refine (hf k l hk).imp_right ?_
    rintro ⟨p, parent, hp, hl⟩
    exact ⟨p, parent, h.kept hp, hl⟩
  have hg := h
  cases h with
  | same => exact hf
  | root hnew hversion hparent =>
    intro k l hk
    rcases Dict.update_eq_some hk with ⟨-, hl⟩ | hk
    · obtain rfl := Option.some.inj hl
      exact .inl ⟨hversion, hparent⟩
    · exact hold hk
  | child hp hnew =>
    intro k l hk
    rcases Dict.update_eq_some hk with ⟨-, hl⟩ | hk
    · exact .inr ⟨_, _, hg.kept hp, (Option.some.inj hl).symm⟩
    · exact hold hk

/-- In every state the lineages are well formed, and what waits for the end of its grace period
agrees with them. -/
structure Tidy (s : System) : Prop where
  lineage : WellFormed (lines s.store)
  deprecations : ∀ d ∈ s.deprecations, Agrees s.store d

theorem Tidy.of_evolves {s s' : System} (hs : Tidy s)
    (h : Evolves (lines s.store) (lines s'.store))
    (hdeprecations : ∀ d ∈ s'.deprecations, d ∈ s.deprecations ∨ Agrees s'.store d) : Tidy s' where
  lineage := hs.lineage.evolves h
  deprecations := by
    intro d hd
    rcases hdeprecations d hd with hd | hd
    · exact (hs.deprecations d hd).evolves h
    · exact hd

theorem Tidy.rotate {s : System} (hs : Tidy s) (keyId : String) (env : Env) :
    Tidy (s.rotate keyId env) := by
  refine hs.of_evolves (rotateKey_evolves keyId env s.store) fun d hd => ?_
  rcases List.mem_append.mp hd with hd | hd
  · exact .inl hd
  · exact .inr (rotateKey_agrees (Option.mem_toList.mp hd))

theorem tidy_step {s s' : System} {op : Op} (hs : Tidy s) (h : step s op = some s') :
    Tidy s' := by
  cases op with
  | create spec env =>
    obtain rfl := Option.some.inj h
    exact hs.of_evolves (createKey_evolves spec env s.store) fun d hd => .inl hd
  | rotate keyId env =>
    obtain rfl := Option.some.inj h
    exact hs.rotate keyId env
  | revoke keyId reason now hsmRevokes =>
    obtain rfl := Option.some.inj h
    refine hs.of_evolves ?_ fun d hd => .inl hd
    simp only [revokeKey]
    split
    case h_1 => exact .same
    case h_2 metadata hmetadata =>
      have hline : lines s.store keyId = some (line (revokeMetadata reason now metadata)) := by
        rw [lines_of_metadata hmetadata]
        rfl
      rw [lines_updateKeyMetadata hline]
      exact .same
  | check now =>
    obtain rfl := Option.some.inj h
    refine hs.of_evolves ?_ fun d hd => .inl hd
    exact lines_checkForRotations s.policies now s.store ▸ .same
  | runSubmitted i env =>
    obtain ⟨keyId, -, rfl⟩ := Option.map_eq_some_iff.mp h
    have hs' : Tidy { s with submitted := s.submitted.eraseIdx i } :=
      ⟨hs.lineage, hs.deprecations⟩
    exact hs'.rotate keyId env
  | deprecateOldKey i =>
    obtain ⟨d, hd, rfl⟩ := Option.map_eq_some_iff.mp h
    refine hs.of_evolves ?_ fun d hd => .inl (List.mem_of_mem_eraseIdx hd)
    have hline : lines s.store d.keyId =
        some (line { d.oldMetadata with status := .deprecated }) :=
      hs.deprecations d (List.mem_of_getElem? hd)
    exact lines_updateKeyMetadata hline ▸ .same

theorem tidy_init (policies : Policies) : Tidy { store := .empty, policies := policies } := by
  refine ⟨fun k l hk => ?_, fun d hd => ?_⟩
  · cases hk
  · cases hd

theorem tidy_of_run {policies : Policies} {ops : List Op} {s : System}
    (hr : run step { store := .empty, policies := policies } ops = some s) : Tidy s :=
  run_preserves (fun _ _ _ => tidy_step) (tidy_init policies) hr

/-- The stored parent of a key with a parent. -/
theorem WellFormed.parent (hs : WellFormed (lines s)) (hm : s.metadata? k = some m) {p : String}
    (hp : m.parentKeyId = some p) :
    ∃ parent, s.metadata? p = some parent ∧ line m = (line parent).child p := by
  rcases hs k (line m) (lines_of_metadata hm) with ⟨-, hnone⟩ | ⟨q, l, hq, hl⟩
  · cases hp.symm.trans hnone
  · obtain ⟨parent, hparent, rfl⟩ := Option.map_eq_some_iff.mp hq
    have hsame : some p = some q := hp.symm.trans (congrArg Line.parentKeyId hl)
    obtain rfl := Option.some.inj hsame
    exact ⟨parent, hparent, hl⟩

theorem WellFormed.not_cycle (hs : WellFormed (lines s)) (k : String) :
    ¬ Relation.TransGen (Edge KeyMetadata.parentKeyId s.metadata?) k k := by
  refine Forest.not_cycle KeyMetadata.version ?_ ?_ k
  · intro b n a m hn ha hm
    obtain ⟨parent, hparent, hline⟩ := hs.parent hn ha
    obtain rfl := Option.some.inj (hparent.symm.trans hm)
    have hversion : n.version = parent.version + 1 := congrArg Line.version hline
    omega
  · rintro a b ⟨n, hn, ha⟩
    obtain ⟨parent, hparent, -⟩ := hs.parent hn ha
    rw [hparent]
    rfl

/-- In every state of every run the parent of a key is stored, is one version older and of the
same service, type, algorithm, size and policy; a key without a parent has version 1; and no key
descends from itself. -/
theorem lineage_of_run {policies : Policies} {ops : List Op} {s : System}
    (hr : run step { store := .empty, policies := policies } ops = some s) :
    (∀ {k p : String} {m : KeyMetadata}, s.store.metadata? k = some m → m.parentKeyId = some p →
      ∃ parent, s.store.metadata? p = some parent ∧ m.version = parent.version + 1 ∧
        m.serviceName = parent.serviceName ∧ m.keyType = parent.keyType ∧
        m.algorithm = parent.algorithm ∧ m.keySize = parent.keySize ∧
        m.rotationPolicyId = parent.rotationPolicyId) ∧
      (∀ {k : String} {m : KeyMetadata}, s.store.metadata? k = some m → m.parentKeyId = none →
        m.version = 1) ∧
      ∀ k, ¬ Relation.TransGen (Edge KeyMetadata.parentKeyId s.store.metadata?) k k := by
  have hs := (tidy_of_run hr).lineage
  refine ⟨fun {k p m} hm hp => ?_, fun {k m} hm hp => ?_, hs.not_cycle⟩
  · obtain ⟨parent, hparent, hline⟩ := hs.parent hm hp
    simp only [line, Line.child, Line.mk.injEq] at hline
    obtain ⟨hservice, htype, halgorithm, hsize, hpolicy, hversion, -⟩ := hline
    exact ⟨parent, hparent, hversion, hservice, htype, halgorithm, hsize, hpolicy⟩
  · rcases hs k (line m) (lines_of_metadata hm) with ⟨hversion, -⟩ | ⟨q, l, -, hl⟩
    · exact hversion
    · cases hp.symm.trans (congrArg Line.parentKeyId hl)

/-- A key, its rotation and its revocation, and the deprecation that comes after it. -/
def rotatedOnce : List Op :=
  [.create ⟨"issuer", .signing, "EC", 256, 365, none⟩ ⟨"01", some [1], 0⟩,
    .rotate "issuer_signing_01" ⟨"02", some [2], 1⟩,
    .revoke "issuer_signing_01" "compromised" 2 true, .deprecateOldKey 0]

theorem lineage_rotatedOnce :
    ∃ s m parent, run step { store := .empty } rotatedOnce = some s ∧
      s.store.metadata? "issuer_signing_02" = some m ∧
      s.store.metadata? "issuer_signing_01" = some parent ∧ m.version = parent.version + 1 := by
  have hparent : ((run step { store := .empty } rotatedOnce).bind
      (·.store.metadata? "issuer_signing_02")).map (·.parentKeyId) =
        some (some "issuer_signing_01") := by
    decide +kernel
  obtain ⟨m, hm, hparent⟩ := Option.map_eq_some_iff.mp hparent
  obtain ⟨s, hr, hm⟩ := Option.bind_eq_some_iff.mp hm
  obtain ⟨parent, hstored, hversion, -⟩ := (lineage_of_run hr).1 hm hparent
  exact ⟨s, m, parent, hr, hm, hstored, hversion⟩

end Marty.Security.Lineage
