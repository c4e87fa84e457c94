import Marty.Security.Lineage

/-! Automatic rotation.  A pass of `_check_for_rotations` lists the keys and then takes them one by
one; the rotations it hands to the executor, and the deprecations these leave, run at any later
point, between two keys of a pass as well. -/

namespace Marty.Security.Automation

open Lib Lib.Datetime Lib.Forest Lib.Run KeyRotation Lineage

/-- `listed` is what the pass has still to look at. -/
structure State where
  manager : System
  listed : List KeyMetadata := []

inductive Label
  | create (spec : KeySpec) (env : Env)
  | listKeys
  | checkNext (now : Time)
  | runSubmitted (i : Nat) (env : Env)
  | deprecateOldKey (i : Nat)

/-- The passes are made by one thread. -/
def step (s : State) : Label → Option State
  | .create spec env =>
    (KeyRotation.step s.manager (.create spec env)).map ({ s with manager := · })
  | .listKeys =>
    if s.listed = [] then some { s with listed := s.manager.store.listKeys } else none
  | .checkNext now =>
    match s.listed with
    | [] => none
    | k :: listed =>
      let (store, submitted) := checkKey s.manager.policies now (s.manager.store, []) k
      some ⟨{ s.manager with store := store, submitted := s.manager.submitted ++ submitted },
        listed⟩
  | .runSubmitted i env =>
    (KeyRotation.step s.manager (.runSubmitted i env)).map ({ s with manager := · })
  | .deprecateOldKey i =>
    (KeyRotation.step s.manager (.deprecateOldKey i)).map ({ s with manager := · })

/-- The pass submits a rotation of the key. -/
def due (policies : Policies) (now : Time) (k : KeyMetadata) : Bool :=
  (k.status = .active ∨ k.status = .deprecated) && !k.isExpired now &&
    (policy? policies k).any (·.shouldRotate k now)

theorem checkKey_cases {policies : Policies} {now : Time} {store : KeyStore} {k : KeyMetadata} :
    checkKey policies now (store, []) k = (store, []) ∨
      checkKey policies now (store, []) k =
        (store.updateKeyMetadata k.keyId { k with status := .expired }, []) ∨
      due policies now k = true ∧ checkKey policies now (store, []) k = (store, [k.keyId]) := by
  unfold checkKey
  split_ifs with hskip hexpired hpolicy
  · exact .inl rfl
  · exact .inr (.inl rfl)
  · refine .inr (.inr ⟨?_, rfl⟩)
    have hstatus : k.status = .active ∨ k.status = .deprecated := by tauto
    simp [due, hstatus, hexpired, hpolicy]
  · exact .inl rfl

/-- A key that is due is active and has no rotation waiting for it. -/
def FirstTime (s : State) : Label → Prop
  | .checkNext now => ∀ k ∈ s.listed.head?, due s.manager.policies now k = true →
    status s.manager.store k.keyId = some .active ∧ k.keyId ∉ s.manager.submitted
  | _ => True

/-- `a` is the parent of `b`. -/
abbrev Parent (s : KeyStore) : String → String → Prop := Edge Line.parentKeyId (lines s)

structure Inv (s : State) : Prop where
  tidy : Tidy s.manager
  listed : ∀ m ∈ s.listed, lines s.manager.store m.keyId = some (line m)
  inactive : ∀ {k c}, Parent s.manager.store k c → status s.manager.store k ≠ some .active
  waiting : s.manager.submitted.Nodup
  childless : ∀ {k}, k ∈ s.manager.submitted → ∀ c, ¬ Parent s.manager.store k c
  single : ∀ {k a b}, Parent s.manager.store k a → Parent s.manager.store k b → a = b

variable {s : State} {manager : System} {store : KeyStore}

theorem closed_lines (h : WellFormed (lines store)) : Closed Line.parentKeyId (lines store) := by
  rintro a b ⟨l, hl, ha⟩
  rcases h b l hl with ⟨-, hnone⟩ | ⟨p, parent, hp, rfl⟩
  · cases ha.symm.trans hnone
  · obtain rfl := Option.some.inj ha
    rw [hp]
    rfl

theorem status_updateKeyMetadata {keyId k : String} {m : KeyMetadata}
    (h : status (store.updateKeyMetadata keyId m) k = some .active) :
    m.status = .active ∨ status store k = some .active := by
  by_cases hk : k = keyId
  · subst hk
    left
    obtain ⟨row, hrow, hactive⟩ := Option.map_eq_some_iff.mp h
    rw [KeyStore.metadata?_updateKeyMetadata_self] at hrow
    obtain ⟨old, -, rfl⟩ := Option.map_eq_some_iff.mp hrow
    exact hactive
  · right
    rwa [status, KeyStore.metadata?_updateKeyMetadata_of_ne _ hk] at h

/-- A step that leaves the lineages as they are and makes no key active. -/
theorem Inv.of_same {s' : State} (hs : Inv s) (htidy : Tidy s'.manager)
    (hlines : lines s'.manager.store = lines s.manager.store)
    (hlisted : ∀ m ∈ s'.listed, m ∈ s.listed)
    (hstatus : ∀ {k}, status s'.manager.store k = some .active →
      status s.manager.store k = some .active)
    (hwaiting : s'.manager.submitted.Nodup)
    (hchildless : ∀ {k}, k ∈ s'.manager.submitted → ∀ c, ¬ Parent s.manager.store k c) :
    Inv s' where
  tidy := htidy
  listed := by
    intro m hm
    rw [hlines]
    exact hs.listed m (hlisted m hm)
  inactive := by
    intro k c h hactive
    rw [Parent, hlines] at h
    exact hs.inactive h (hstatus hactive)
  waiting := hwaiting
  childless := by
    intro k hk c h
    rw [Parent, hlines] at h
    exact hchildless hk c h
  single := by
    intro k a b ha hb
    rw [Parent, hlines] at ha hb
    exact hs.single ha hb

theorem Inv.create (hs : Inv s) (spec : KeySpec) (env : Env) (htidy : Tidy
    { s.manager with store := (createKey spec env s.manager.store).2 }) :
    Inv { s with
      manager := { s.manager with store := (createKey spec env s.manager.store).2 } } := by
  obtain hc | ⟨store, hc, hfree, hcreated, hkept⟩ := createKey_spec spec env s.manager.store
  · rw [hc]
    exact hs
  · rw [hc] at htidy ⊢
    have hnone := lines_of_none hfree
    have hlines : lines store = Function.update (lines s.manager.store) (spec.keyId env)
        (some (line (spec.metadata env))) :=
      lines_of_new hcreated fun k hk => lines_congr (hkept k hk)
    -- The new key has no parent, and is nobody's.
    have hparent : ∀ {p c}, Parent store p c → Parent s.manager.store p c := by
      intro p c h
      rw [Parent, hlines] at h
      rcases (edge_update hnone).mp h with ⟨-, h⟩ | h
      · cases h
      · exact h
    have hold : ∀ {p c}, Parent s.manager.store p c → p ≠ spec.keyId env := by
      rintro p c h rfl
      exact not_edge_of_none (closed_lines hs.tidy.lineage) hnone h
    constructor
    case tidy => exact htidy
    case listed =>
      intro m hm
      have hm := hs.listed m hm
      have hne : m.keyId ≠ spec.keyId env := by
        intro h
        rw [h, hnone] at hm
        cases hm
      rw [hlines, Function.update_of_ne hne, hm]
    case inactive =>
      intro k c h hactive
      have h := hparent h
      rw [status, hkept k (hold h)] at hactive
      exact hs.inactive h hactive
    case waiting => exact hs.waiting
    case childless => exact fun hk c h => hs.childless hk c (hparent h)
    case single => exact fun ha hb => hs.single (hparent ha) (hparent hb)

/-- A rotation makes no key active but, when it fails, its own, and a new one. -/
theorem status_rotated {keyId k : String} {env : Env} {store' : KeyStore} {d : Option Deprecation}
    (h : Rotated keyId env store store' d) (hk : k ≠ keyId)
    (hactive : status store' k = some .active) :
    status store k = some .active ∨ lines store k = none := by
  cases h with
  | missing => exact .inl hactive
  | failed hold hself hother => exact .inl (by rwa [status, hother k hk] at hactive)
  | @done _ _ _ newKeyId hold hnew hself hsuccessor hchild hother =>
    by_cases hk' : k = newKeyId
    · exact .inr (hk' ▸ lines_of_none hnew)
    · exact .inl (by rwa [status, hother k hk hk'] at hactive)

theorem Inv.rotate {keyId : String} {env : Env} (hs : Inv s)
    (hchildless : ∀ c, ¬ Parent s.manager.store keyId c) (hgone : keyId ∉ s.manager.submitted) :
    Inv { s with manager := s.manager.rotate keyId env } := by
  have htidy := hs.tidy.rotate keyId env
  have hrotated := rotateKey_rotated keyId env s.manager.store
  have hstore : (s.manager.rotate keyId env).store = (rotateKey keyId env s.manager.store).2.1 :=
    rfl
  have hevolves := rotated_evolves hrotated
  have hlisted : ∀ m ∈ s.listed,
      lines (s.manager.rotate keyId env).store m.keyId = some (line m) :=
    fun m hm => hevolves.kept (hs.listed m hm)
  -- The keys with a child, and the children of the key that is rotated.
  have hparent : ∀ {p c}, Parent (s.manager.rotate keyId env).store p c →
      Parent s.manager.store p c ∨
        p = keyId ∧ status (s.manager.rotate keyId env).store keyId = some .pendingRotation := by
    intro p c h
    rw [hstore, Parent] at h
    rcases lines_rotated hrotated with hsame | ⟨l, newKeyId, -, hnew, hstatus, hlines⟩
    · rw [hsame] at h
      exact .inl h
    · rw [hlines] at h
      rcases (edge_update hnew).mp h with ⟨-, h⟩ | h
      · exact .inr ⟨(Option.some.inj h).symm, hstatus⟩
      · exact .inl h
  have hclosed := closed_lines hs.tidy.lineage
  constructor
  case tidy => exact htidy
  case listed => exact hlisted
  case inactive =>
    intro k c h hactive
    rcases hparent h with hbefore | ⟨rfl, hpending⟩
    · have hk : k ≠ keyId := by
        rintro rfl
        exact hchildless c hbefore
      rcases status_rotated hrotated hk hactive with hactive | hnone
      · exact hs.inactive hbefore hactive
      · exact not_edge_of_none hclosed hnone hbefore
    · cases hpending.symm.trans hactive
  case waiting => exact hs.waiting
  case childless =>
    intro k hk c h
    rcases hparent h with h | ⟨rfl, -⟩
    · exact hs.childless hk c h
    · exact hgone hk
  case single =>
    intro k a b ha hb
    rw [hstore, Parent] at ha hb
    rcases lines_rotated hrotated with hsame | ⟨l, newKeyId, -, hnew, -, hlines⟩
    · rw [hsame] at ha hb
      exact hs.single ha hb
    · rw [hlines] at ha hb
      refine single_update hnew hs.single (fun p hp => ?_) ha hb
      obtain rfl := Option.some.inj hp
      exact hchildless

theorem Inv.checkNext {k : KeyMetadata} {listed : List KeyMetadata} {now : Time} (hs : Inv s)
    (hlisted : s.listed = k :: listed) (hl : FirstTime s (.checkNext now)) :
    Inv ⟨{ s.manager with
      store := (checkKey s.manager.policies now (s.manager.store, []) k).1
      submitted := s.manager.submitted ++
        (checkKey s.manager.policies now (s.manager.store, []) k).2 }, listed⟩ := by
  have hk := hs.listed k (hlisted ▸ List.mem_cons_self)
  have hrest : ∀ m ∈ listed, m ∈ s.listed := fun m hm => hlisted ▸ List.mem_cons_of_mem k hm
  have hlines : lines (checkKey s.manager.policies now (s.manager.store, []) k).1 =
      lines s.manager.store :=
    lines_checkKey hk
  have htidy : ∀ submitted, Tidy { s.manager with
      store := (checkKey s.manager.policies now (s.manager.store, []) k).1
      submitted := submitted } :=
    fun submitted => hs.tidy.of_evolves (hlines ▸ .same) fun d hd => .inl hd
  rcases @checkKey_cases s.manager.policies now s.manager.store k with
    hcheck | hcheck | ⟨hdue, hcheck⟩
  · refine hs.of_same (htidy _) hlines hrest ?_ ?_ ?_
    · simp [hcheck]
    · simpa [hcheck] using hs.waiting
    · exact fun hk => hs.childless (by simpa [hcheck] using hk)
  · refine hs.of_same (htidy _) hlines hrest ?_ ?_ ?_
    · intro k' hactive
      rw [hcheck] at hactive
      rcases status_updateKeyMetadata hactive with h | h
      · cases h
      · exact h
    · simpa [hcheck] using hs.waiting
    · exact fun hk => hs.childless (by simpa [hcheck] using hk)
  · obtain ⟨hactive, hnew⟩ := hl k (by rw [hlisted]; rfl) hdue
    refine hs.of_same (htidy _) hlines hrest ?_ ?_ ?_
    · simp [hcheck]
    · rw [hcheck]
      exact List.nodup_append.mpr ⟨hs.waiting, List.nodup_singleton _, by
        rintro a ha b hb rfl
        exact hnew (List.mem_singleton.mp hb ▸ ha)⟩
    · intro k' hk' c hc
      rw [hcheck] at hk'
      rcases List.mem_append.mp hk' with hk' | hk'
      · exact hs.childless hk' c hc
      · obtain rfl := List.mem_singleton.mp hk'
        exact hs.inactive hc hactive

/-- The executor takes a rotation: no other of the key is waiting. -/
theorem Inv.take {i : ℕ} {keyId : String} (hs : Inv s)
    (hi : s.manager.submitted[i]? = some keyId) :
    Inv { s with manager := { s.manager with submitted := s.manager.submitted.eraseIdx i } } ∧
      keyId ∉ s.manager.submitted.eraseIdx i := by
  constructor
  · refine hs.of_same ⟨hs.tidy.lineage, hs.tidy.deprecations⟩ rfl (fun m hm => hm)
      (fun h => h) (hs.waiting.eraseIdx i) fun hk => ?_
    exact hs.childless (List.mem_of_mem_eraseIdx hk)
  · intro hmem
    obtain ⟨j, hne, hj⟩ := List.mem_eraseIdx_iff_getElem?.mp hmem
    have hlt := (List.getElem?_eq_some_iff.mp hj).1
    exact hne ((List.getElem?_inj hlt hs.waiting).mp (hj.trans hi.symm))

theorem inv_step {s' : State} {l : Label} (hs : Inv s) (hl : FirstTime s l)
    (h : step s l = some s') : Inv s' := by
  cases l with
  | create spec env =>
    simp only [step] at h
    obtain ⟨manager, hmanager, rfl⟩ := Option.map_eq_some_iff.mp h
    obtain rfl := Option.some.inj hmanager
    exact hs.create spec env (tidy_step hs.tidy hmanager)
  | listKeys =>
    simp only [step] at h
    split at h
    case isFalse => cases h
    case isTrue =>
      obtain rfl := Option.some.inj h
      refine ⟨hs.tidy, fun m hm => ?_, hs.inactive, hs.waiting, hs.childless, hs.single⟩
      exact lines_of_metadata (KeyStore.metadata?_of_mem_listKeys hm)
  | checkNext now =>
    simp only [step] at h
    split at h
    case h_1 => cases h
    case h_2 k listed hlisted =>
      obtain rfl := Option.some.inj h
      exact hs.checkNext hlisted hl
  | runSubmitted i env =>
    simp only [step] at h
    obtain ⟨manager, hmanager, rfl⟩ := Option.map_eq_some_iff.mp h
    obtain ⟨keyId, hi, rfl⟩ := Option.map_eq_some_iff.mp hmanager
    obtain ⟨hs', hgone⟩ := hs.take hi
    exact hs'.rotate (hs.childless (List.mem_of_getElem? hi)) hgone
  | deprecateOldKey i =>
    simp only [step] at h
    obtain ⟨manager, hmanager, rfl⟩ := Option.map_eq_some_iff.mp h
    have htidy := tidy_step hs.tidy hmanager
    obtain ⟨d, hd, rfl⟩ := Option.map_eq_some_iff.mp hmanager
    have hline : lines s.manager.store d.keyId =
        some (line { d.oldMetadata with status := .deprecated }) :=
      hs.tidy.deprecations d (List.mem_of_getElem? hd)
    refine hs.of_same htidy (lines_updateKeyMetadata hline) (fun m hm => hm) ?_ hs.waiting
      hs.childless
    intro k hactive
    rcases status_updateKeyMetadata hactive with h | h
    · cases h
    · exact h

def start (policies : Policies) : State where
  manager := { store := .empty, policies := policies }

theorem inv_start (policies : Policies) : Inv (start policies) := by
  have hnone : ∀ {k c}, ¬ Parent (start policies).manager.store k c := by
    rintro k c ⟨l, hl, -⟩
    cases hl
  refine ⟨tidy_init policies, fun m hm => ?_, fun h => absurd h hnone, List.nodup_nil,
    fun hk => ?_, fun h => absurd h hnone⟩
  · cases hm
  · cases hk

theorem inv_of_run {policies : Policies} {ls : List Label}
    (hg : Guarded step FirstTime (start policies) ls)
    (hr : run step (start policies) ls = some s) : Inv s :=
  run_invariant (fun _ _ _ => inv_step) (inv_start policies) hg hr

theorem parent_of_metadata {k c : String} {m : KeyMetadata} (hm : store.metadata? c = some m)
    (hk : m.parentKeyId = some k) : Parent store k c :=
  ⟨line m, lines_of_metadata hm, hk⟩

/-- Where the passes only ever rotate keys that are active and not yet submitted, no key has two
successors in any state of any run. -/
theorem superseded_once_of_firstTime {policies : Policies} {ls : List Label}
    (hg : Guarded step FirstTime (start policies) ls)
    (hr : run step (start policies) ls = some s) {k a b : String} {m n : KeyMetadata}
    (hm : s.manager.store.metadata? a = some m) (hn : s.manager.store.metadata? b = some n)
    (ha : m.parentKeyId = some k) (hb : n.parentKeyId = some k) : a = b :=
  (inv_of_run hg hr).single (parent_of_metadata hm ha) (parent_of_metadata hn hb)

instance : ∀ s l, Decidable (FirstTime s l)
  | s, .checkNext _ => inferInstanceAs (Decidable (∀ k ∈ s.listed.head?, _ → _))
  | _, .create _ _ | _, .listKeys | _, .runSubmitted _ _ | _, .deprecateOldKey _ =>
    inferInstanceAs (Decidable True)

/-- A rotation every 90 days. -/
def quarterly : Policies := [{ policyId := "p", rotationIntervalDays := 90 }]

/-- A key is rotated on its 91st day, and its successor deprecates it. -/
def rotatedInTurn : List Label :=
  [.create ⟨"issuer", .signing, "EC", 256, 365, some "p"⟩ ⟨"01", some [1], 0⟩, .listKeys,
    .checkNext (days 91), .runSubmitted 0 ⟨"02", some [2], days 91⟩, .deprecateOldKey 0]

/-- The pass of the next day meets the deprecated key, which is as old as before. -/
def rotatedAgain : List Label :=
  rotatedInTurn ++ [.listKeys, .checkNext (days 92), .checkNext (days 92),
    .runSubmitted 0 ⟨"03", some [3], days 92⟩]

theorem superseded_once_rotatedInTurn :
    ∃ s m, run step (start quarterly) rotatedInTurn = some s ∧
      s.manager.store.metadata? "issuer_signing_02" = some m ∧
      m.parentKeyId = some "issuer_signing_01" ∧
      ∀ b n, s.manager.store.metadata? b = some n → n.parentKeyId = some "issuer_signing_01" →
        "issuer_signing_02" = b := by
  have hparent : ((run step (start quarterly) rotatedInTurn).bind
      (·.manager.store.metadata? "issuer_signing_02")).map (·.parentKeyId) =
        some (some "issuer_signing_01") := by
    decide +kernel
  obtain ⟨m, hm, hparent⟩ := Option.map_eq_some_iff.mp hparent
  obtain ⟨s, hr, hm⟩ := Option.bind_eq_some_iff.mp hm
  have hg : Guarded step FirstTime (start quarterly) rotatedInTurn := by decide +kernel
  exact ⟨s, m, hr, hm, hparent,
    fun b n hn hb => superseded_once_of_firstTime hg hr hm hn hparent hb⟩

theorem superseded_twice :
    ∃ s m n, run step (start quarterly) rotatedAgain = some s ∧
      s.manager.store.metadata? "issuer_signing_02" = some m ∧
      s.manager.store.metadata? "issuer_signing_03" = some n ∧
      m.parentKeyId = some "issuer_signing_01" ∧ n.parentKeyId = some "issuer_signing_01" := by
  have hboth : (run step (start quarterly) rotatedAgain).map (fun s =>
      ((s.manager.store.metadata? "issuer_signing_02").map (·.parentKeyId),
        (s.manager.store.metadata? "issuer_signing_03").map (·.parentKeyId))) =
      some (some (some "issuer_signing_01"), some (some "issuer_signing_01")) := by
    decide +kernel
  obtain ⟨s, hr, hboth⟩ := Option.map_eq_some_iff.mp hboth
  obtain ⟨hm, hn⟩ := Prod.mk.inj hboth
  obtain ⟨m, hm, hmp⟩ := Option.map_eq_some_iff.mp hm
  obtain ⟨n, hn, hnp⟩ := Option.map_eq_some_iff.mp hn
  exact ⟨s, m, n, hr, hm, hn, hmp, hnp⟩

end Marty.Security.Automation
