import Marty.Lib.JsonText
import Marty.Lib.Seeding

/-! The migrations 013 and 014, which seed the system trust frameworks and the trust anchor of Open
Badges.  The tables are under the foreign keys of migration 003: the anchors of a framework go with
it, and a framework that an organization uses cannot be deleted. -/

namespace Marty.Migrations.SystemSeeds

open Lib Lib.JsonText

abbrev Entries : Type := List (String × Value Written)

/-! Rows. -/

/-- A row of `trust_frameworks`. -/
structure Framework where
  id : String
  code : String
  displayName : String
  description : String
  pkdEndpoints : String
  defaultAlgorithms : String
  defaultFormats : String
  validationRuleset : String
  syncConfig : String
  isSystem : Bool
  createdAt : String
  updatedAt : String
  deriving DecidableEq

/-- A row of `trust_framework_anchors` with what the anchor is known by. -/
structure Anchor (κ : Type) where
  id : String
  frameworkId : Option String
  anchorType : String
  jurisdiction : Option String
  subject : String
  issuer : String
  source : String
  syncedAt : Option String
  createdAt : String
  knownBy : κ
  deriving DecidableEq

/-- Before migration 014 every anchor has a certificate. -/
structure Certificate where
  certificateDer : List UInt8
  certificateHash : String
  deriving DecidableEq

/-- With migration 014 an anchor may be known by a DID instead. -/
structure Credentials where
  certificateDer : Option (List UInt8) := none
  certificateHash : Option String := none
  issuerDid : Option String := none
  issuerJwk : Option String := none
  deriving DecidableEq

/-- A row of `organization_trust_profiles`. -/
structure OrganizationProfile where
  id : String
  frameworkId : Option String
  deriving DecidableEq

structure Database (κ : Type) where
  frameworks : List Framework
  anchors : List (Anchor κ)
  organizationProfiles : List OrganizationProfile
  deriving DecidableEq

variable {κ : Type}

def HasFramework (db : Database κ) (frameworkId : Option String) : Prop :=
  ∀ id, frameworkId = some id → id ∈ db.frameworks.map (·.id)

/-- The foreign keys hold. -/
structure Database.Consistent (db : Database κ) : Prop where
  anchors : ∀ a ∈ db.anchors, HasFramework db a.frameworkId
  organizationProfiles : ∀ p ∈ db.organizationProfiles, HasFramework db p.frameworkId

/-! Seeds. -/

structure FrameworkSeed where
  id : String
  code : String
  displayName : String
  description : String
  pkdEndpoints : Entries
  defaultAlgorithms : List String
  defaultFormats : List String
  validationRuleset : Entries
  syncConfig : Entries

def systemFrameworks : List FrameworkSeed := [
  { id := "tf-icao-system"
    code := "ICAO"
    displayName := "ICAO PKD (ePassports / eMRTD)"
    description := "ICAO Public Key Directory trust framework for ePassport, eMRTD, " ++
      "and Digital Travel Credential verification."
    pkdEndpoints := [("master_list", .str "https://pkd.icao.int/"),
      ("crl_distribution", .str "https://pkd.icao.int/crl/")]
    defaultAlgorithms := ["ES256", "ES384", "RS256", "RS384"]
    defaultFormats := ["MDOC"]
    validationRuleset := [("require_csca_chain", .bool true),
      ("require_dsc_signature", .bool true), ("check_crl", .bool true),
      ("check_ocsp", .bool true)]
    syncConfig := [("source", .str "icao_pkd"), ("refresh_interval_hours", .int 24),
      ("auto_sync", .bool true)] },
  { id := "tf-aamva-system"
    code := "AAMVA"
    displayName := "AAMVA (Mobile Driver's License)"
    description := "AAMVA trust framework for ISO 18013-5 mDL verification " ++
      "with IACA root certificates."
    pkdEndpoints := [("iaca_trust_list", .str "https://trust.aamva.org/iaca-trust-list.json"),
      ("dts_endpoint", .str "https://dts.aamva.org/")]
    defaultAlgorithms := ["ES256", "ES384"]
    defaultFormats := ["MDOC"]
    validationRuleset := [("require_iaca_chain", .bool true), ("check_crl", .bool true),
      ("check_ocsp", .bool true), ("max_cert_chain_depth", .int 3)]
    syncConfig := [("source", .str "aamva_dts"), ("refresh_interval_hours", .int 24),
      ("auto_sync", .bool true)] },
  { id := "tf-eudi-system"
    code := "EUDI"
    displayName := "EUDI (EU Digital Identity Wallet)"
    description := "European Digital Identity Wallet trust framework (eIDAS 2.0). " ++
      "Supports mDoc and SD-JWT VC with QTSP validation."
    pkdEndpoints := [("eu_lotl", .str "https://ec.europa.eu/tools/lotl/eu-lotl.xml"),
      ("trust_list", .str "https://eudi.ec.europa.eu/trusted-list.json")]
    defaultAlgorithms := ["ES256", "ES384"]
    defaultFormats := ["MDOC", "SD_JWT_VC"]
    validationRuleset := [("require_qualified_trust_service", .bool true),
      ("check_status_list", .bool true), ("eidas_level", .str "high")]
    syncConfig := [("source", .str "eudi_lotl"), ("refresh_interval_hours", .int 12),
      ("auto_sync", .bool true)] },
  { id := "tf-ob3-system"
    code := "OB3"
    displayName := "Open Badge v3 (1EdTech)"
    description := "1EdTech Open Badges v3 trust framework for verifiable " ++
      "achievement credentials (JWT VC and JSON-LD)."
    pkdEndpoints := []
    defaultAlgorithms := ["ES256", "EdDSA"]
    defaultFormats := ["VC_JWT", "JSON_LD"]
    validationRuleset := [("require_holder_binding", .bool true),
      ("require_issuer_did", .bool true), ("check_status_list", .bool true)]
    syncConfig := [("source", .str "pinned_issuer"), ("refresh_interval_hours", .int 0),
      ("auto_sync", .bool false)] },
  { id := "tf-custom-system"
    code := "CUSTOM"
    displayName := "Custom (Organization-Defined)"
    description := "Catch-all trust framework for organization-defined credential ecosystems."
    pkdEndpoints := []
    defaultAlgorithms := ["ES256", "ES384", "ES512"]
    defaultFormats := ["MDOC", "SD_JWT_VC"]
    validationRuleset := []
    syncConfig := [("refresh_interval_hours", .int 0), ("auto_sync", .bool false)] }]

def dumpsList (items : List String) : String := dumps written (.arr (items.map .str))

def dumpsDict (entries : Entries) : String := dumps written (.obj entries)

/-- `INSERT` -/
def FrameworkSeed.row (s : FrameworkSeed) (now : String) : Framework where
  id := s.id
  code := s.code
  displayName := s.displayName
  description := s.description
  pkdEndpoints := dumpsDict s.pkdEndpoints
  defaultAlgorithms := dumpsList s.defaultAlgorithms
  defaultFormats := dumpsList s.defaultFormats
  validationRuleset := dumpsDict s.validationRuleset
  syncConfig := dumpsDict s.syncConfig
  isSystem := true
  createdAt := now
  updatedAt := now

/-- `UPDATE` -/
def FrameworkSeed.refresh (s : FrameworkSeed) (now : String) (f : Framework) : Framework :=
  { f with
    displayName := s.displayName
    description := s.description
    pkdEndpoints := dumpsDict s.pkdEndpoints
    defaultAlgorithms := dumpsList s.defaultAlgorithms
    defaultFormats := dumpsList s.defaultFormats
    validationRuleset := dumpsDict s.validationRuleset
    syncConfig := dumpsDict s.syncConfig
    updatedAt := now }

def seeding (now : String) : Seeding FrameworkSeed Framework String String where
  code := Framework.code
  id := Framework.id
  seedCode := FrameworkSeed.code
  fresh s := s.row now
  refresh s := s.refresh now
  code_fresh _ := rfl
  code_refresh _ _ := rfl
  id_refresh _ _ := rfl

/-- The trust anchor without the times at which it is inserted. -/
def ob3Anchor : Anchor Credentials where
  id := "ta-ob3-marty-system"
  frameworkId := some "tf-ob3-system"
  anchorType := "issuer_did"
  jurisdiction := none
  subject := "Marty Platform (System Issuer)"
  issuer := "did:web:marty.example.com"
  source := "pinned_issuer"
  syncedAt := none
  createdAt := ""
  knownBy := {
    issuerDid := some "did:web:marty.example.com"
    issuerJwk := some (dumpsDict [("kty", .str "EC"), ("crv", .str "P-256"),
      ("x", .str "_PLACEHOLDER_"), ("y", .str "_PLACEHOLDER_")]) }

def ob3TrustAnchors : List (Anchor Credentials) := [ob3Anchor]

/-! Migration 013. -/

def upgradeFrameworks (now : String) (db : Database κ) : Option (Database κ) :=
  ((seeding now).seed systemFrameworks db.frameworks).map fun frameworks => { db with frameworks }

def Database.isGone (db : Database κ) (p : Framework → Bool) (frameworkId : Option String) : Bool :=
  db.frameworks.any fun f => p f && frameworkId = some f.id

def Database.without (db : Database κ) (p : Framework → Bool) : Database κ :=
  { db with
    frameworks := db.frameworks.filter (!p ·)
    anchors := db.anchors.filter (!db.isGone p ·.frameworkId) }

/-- `DELETE FROM trust_frameworks` -/
def Database.deleteFrameworks (db : Database κ) (p : Framework → Bool) : Option (Database κ) :=
  if db.organizationProfiles.any (db.isGone p ·.frameworkId) then none else some (db.without p)

def isSeed (s : FrameworkSeed) (f : Framework) : Bool := f.code = s.code && f.isSystem

def downgradeFrameworks (db : Database κ) : Option (Database κ) :=
  systemFrameworks.foldlM (fun db s => db.deleteFrameworks (isSeed s)) db

/-! Migration 014. -/

def Certificate.widen (c : Certificate) : Credentials where
  certificateDer := some c.certificateDer
  certificateHash := some c.certificateHash

/-- `NOT NULL` again, without the columns of the DID. -/
def Credentials.narrow (c : Credentials) : Option Certificate := do
  let certificateDer ← c.certificateDer
  let certificateHash ← c.certificateHash
  some { certificateDer, certificateHash }

def insertAnchor (now : String) (db : Database Credentials) (anchor : Anchor Credentials) :
    Option (Database Credentials) :=
  if anchor.id ∈ db.anchors.map (·.id) then some db
  else if ∀ id ∈ anchor.frameworkId, id ∈ db.frameworks.map (·.id) then
    some { db with anchors := db.anchors ++
      [{ anchor with syncedAt := some now, createdAt := now }] }
  else none

def upgradeAnchors (now : String) (db : Database Certificate) : Option (Database Credentials) :=
  ob3TrustAnchors.foldlM (insertAnchor now)
    { db with anchors := db.anchors.map fun a => { a with knownBy := a.knownBy.widen } }

def narrowAnchor (a : Anchor Credentials) : Option (Anchor Certificate) :=
  a.knownBy.narrow.map fun c => { a with knownBy := c }

def downgradeAnchors (db : Database Credentials) : Option (Database Certificate) :=
  ((db.anchors.filter (·.id ∉ ob3TrustAnchors.map (·.id))).mapM narrowAnchor).map fun anchors =>
    { db with anchors }

def migrate (now : String) (db : Database Certificate) : Option (Database Credentials) :=
  (upgradeFrameworks now db).bind (upgradeAnchors now)

def revert (db : Database Credentials) : Option (Database Certificate) :=
  (downgradeAnchors db).bind downgradeFrameworks

variable {db : Database κ} {p q : Framework → Bool} {now : String}

theorem isGone_eq_true {frameworkId : Option String} :
    db.isGone p frameworkId = true ↔
      ∃ f ∈ db.frameworks, p f = true ∧ frameworkId = some f.id := by
  simp [Database.isGone]

/-- What two deletions delete together. -/
theorem isGone_or (db : Database κ) (p q : Framework → Bool) (frameworkId : Option String) :
    db.isGone (fun f => p f || q f) frameworkId =
      (db.isGone p frameworkId || (db.without p).isGone q frameworkId) := by
  rw [Bool.eq_iff_iff, Bool.or_eq_true]
  simp only [isGone_eq_true, Database.without, List.mem_filter, Bool.or_eq_true, Bool.not_eq_true']
  constructor
  · rintro ⟨f, hf, hpq, heq⟩
    cases hp : p f with
    | true => exact .inl ⟨f, hf, hp, heq⟩
    | false => exact .inr ⟨f, ⟨hf, hp⟩, hpq.resolve_left (by simp [hp]), heq⟩
  · rintro (⟨f, hf, hp, heq⟩ | ⟨f, ⟨hf, -⟩, hq, heq⟩)
    · exact ⟨f, hf, .inl hp, heq⟩
    · exact ⟨f, hf, .inr hq, heq⟩

theorem without_without (db : Database κ) (p q : Framework → Bool) :
    (db.without p).without q = db.without fun f => p f || q f := by
  have hgone := isGone_or db p q
  simp only [Database.without] at hgone ⊢
  simp [hgone, List.filter_filter, Bool.and_comm]

/-- One deletion after the other is one deletion of both. -/
theorem deleteFrameworks_bind (db : Database κ) (p q : Framework → Bool) :
    (db.deleteFrameworks p).bind (·.deleteFrameworks q) =
      db.deleteFrameworks fun f => p f || q f := by
  have hany : db.organizationProfiles.any (db.isGone (fun f => p f || q f) ·.frameworkId) =
      (db.organizationProfiles.any (db.isGone p ·.frameworkId) ||
        db.organizationProfiles.any ((db.without p).isGone q ·.frameworkId)) := by
    rw [Bool.eq_iff_iff]
    simp only [Bool.or_eq_true, List.any_eq_true, isGone_or, and_or_left, exists_or]
  unfold Database.deleteFrameworks
  rw [hany]
  cases db.organizationProfiles.any (db.isGone p ·.frameworkId) with
  | true => rfl
  | false => rw [Bool.false_or, ← without_without]; rfl

theorem deleteFrameworks_false (db : Database κ) :
    db.deleteFrameworks (fun _ => false) = some db := by
  have hgone (frameworkId : Option String) : db.isGone (fun _ => false) frameworkId = false := by
    simp [Database.isGone]
  simp [Database.deleteFrameworks, Database.without, hgone]

def isSeeded (f : Framework) : Bool := systemFrameworks.any (isSeed · f)

theorem foldlM_deleteFrameworks (seeds : List FrameworkSeed) (db : Database κ) :
    seeds.foldlM (fun db s => db.deleteFrameworks (isSeed s)) db =
      db.deleteFrameworks fun f => seeds.any (isSeed · f) := by
  induction seeds generalizing db with
  | nil => exact (deleteFrameworks_false db).symm
  | cons s seeds ih =>
    have hstep : (s :: seeds).foldlM (fun db s => Database.deleteFrameworks db (isSeed s)) db =
        (db.deleteFrameworks (isSeed s)).bind
          (seeds.foldlM (fun db s => db.deleteFrameworks (isSeed s))) := rfl
    rw [hstep, funext ih, deleteFrameworks_bind]
    rfl

theorem downgradeFrameworks_eq (db : Database κ) :
    downgradeFrameworks db = db.deleteFrameworks isSeeded :=
  foldlM_deleteFrameworks systemFrameworks db

/-! When the migrations apply. -/

def upgradedFrameworks (now : String) (frameworks : List Framework) : List Framework :=
  (seeding now).seeded systemFrameworks frameworks

theorem nodup_code : (systemFrameworks.map (·.code)).Nodup := by decide +kernel

theorem nodup_id : (systemFrameworks.map (·.id)).Nodup := by decide +kernel

theorem upgradeFrameworks_eq (now : String) (db : Database κ) :
    upgradeFrameworks now db =
      if (seeding now).Free systemFrameworks db.frameworks then
        some { db with frameworks := upgradedFrameworks now db.frameworks }
      else none := by
  rw [upgradeFrameworks, (seeding now).seed_eq nodup_code nodup_id]
  split <;> rfl

/-! The framework that the seeded anchor belongs to. -/

theorem exists_ob3 : ∃ s ∈ systemFrameworks, s.code = "OB3" := by decide +kernel

theorem id_eq_ob3_iff : ∀ s ∈ systemFrameworks, s.id = "tf-ob3-system" ↔ s.code = "OB3" := by
  decide +kernel

theorem mem_upgradedFrameworks_iff (now : String) (frameworks : List Framework) :
    "tf-ob3-system" ∈ (upgradedFrameworks now frameworks).map (·.id) ↔
      "tf-ob3-system" ∈ frameworks.map (·.id) ∨ "OB3" ∉ frameworks.map (·.code) := by
  have hold : (frameworks.map ((seeding now).refreshed systemFrameworks)).map (·.id) =
      frameworks.map (·.id) := by
    rw [List.map_map]
    exact List.map_congr_left fun f _ => (seeding now).id_refreshed _ f
  rw [upgradedFrameworks, Seeding.seeded, List.map_append, hold, List.mem_append]
  refine or_congr_right ⟨fun h hob3 => ?_, fun h => ?_⟩
  · obtain ⟨f, hf, hid⟩ := List.mem_map.mp h
    obtain ⟨s, hs, rfl⟩ := List.mem_map.mp hf
    obtain ⟨hseed, hmissing⟩ := List.mem_filter.mp hs
    have hcode : s.code ∉ frameworks.map (·.code) := of_decide_eq_true hmissing
    rw [(id_eq_ob3_iff s hseed).mp hid] at hcode
    exact hcode hob3
  · obtain ⟨s, hseed, hcode⟩ := exists_ob3
    have hfree : s.code ∉ frameworks.map (·.code) := by rwa [hcode]
    have hmissing : s ∈ (seeding now).missing systemFrameworks frameworks :=
      List.mem_filter.mpr ⟨hseed, decide_eq_true hfree⟩
    refine List.mem_map.mpr ⟨s.row now, List.mem_map_of_mem hmissing, ?_⟩
    exact (id_eq_ob3_iff s hseed).mpr hcode

def widened (db : Database Certificate) : Database Credentials :=
  { db with anchors := db.anchors.map fun a => { a with knownBy := a.knownBy.widen } }

theorem map_id_widened (db : Database Certificate) :
    (widened db).anchors.map (·.id) = db.anchors.map (·.id) := by
  simp [widened, Function.comp_def]

theorem upgradeAnchors_eq (now : String) (db : Database Certificate) :
    upgradeAnchors now db = insertAnchor now (widened db) ob3Anchor :=
  bind_pure _

theorem upgradeAnchors_isSome_iff (now : String) (db : Database Certificate) :
    (upgradeAnchors now db).isSome ↔ "ta-ob3-marty-system" ∈ db.anchors.map (·.id) ∨
      "tf-ob3-system" ∈ db.frameworks.map (·.id) := by
  have hid : ob3Anchor.id = "ta-ob3-marty-system" := rfl
  have hframework : ob3Anchor.frameworkId = some "tf-ob3-system" := rfl
  have hframeworks : (widened db).frameworks = db.frameworks := rfl
  rw [upgradeAnchors_eq, insertAnchor, map_id_widened, hid, hframework, hframeworks]
  split
  case isTrue h => simp [h]
  case isFalse h =>
    simp only [Option.mem_some_iff, forall_eq']
    split
    case isTrue hmem => simpa [h] using hmem
    case isFalse hnone => simpa [h] using hnone

/-- Migrations 013 and 014 apply exactly when each missing framework finds its identifier free, and
the seeded anchor is there already or finds its framework: only a framework with the code of Open
Badges under another identifier can leave it without. -/
theorem migrate_isSome_iff (now : String) (db : Database Certificate) :
    (migrate now db).isSome ↔
      (∀ s ∈ systemFrameworks, s.code ∉ db.frameworks.map (·.code) →
        s.id ∉ db.frameworks.map (·.id)) ∧
      ("ta-ob3-marty-system" ∈ db.anchors.map (·.id) ∨
        "tf-ob3-system" ∈ db.frameworks.map (·.id) ∨ "OB3" ∉ db.frameworks.map (·.code)) := by
  have hfree : (seeding now).Free systemFrameworks db.frameworks ↔
      ∀ s ∈ systemFrameworks, s.code ∉ db.frameworks.map (·.code) →
        s.id ∉ db.frameworks.map (·.id) := by
    simp only [Seeding.Free, Seeding.missing, List.mem_filter, decide_eq_true_eq, and_imp]
    rfl
  rw [migrate, upgradeFrameworks_eq, ← hfree]
  split
  case isTrue h =>
    rw [Option.bind_some, upgradeAnchors_isSome_iff, mem_upgradedFrameworks_iff]
    exact (and_iff_right h).symm
  case isFalse h => simp [h]

/-! What the downgrades give back. -/

/-- No seed was there before, but for rows of organizations that are as seeded. -/
structure Untouched (now : String) (db : Database Certificate) : Prop where
  anchors : ∀ a ∈ db.anchors, a.id ≠ "ta-ob3-marty-system"
  frameworks : ∀ f ∈ db.frameworks, f.code ∈ systemFrameworks.map (·.code) →
    f.isSystem = false ∧ (seeding now).refreshed systemFrameworks f = f

theorem isSeeded_iff {f : Framework} :
    isSeeded f = true ↔ f.code ∈ systemFrameworks.map (·.code) ∧ f.isSystem = true := by
  simp only [isSeeded, isSeed, List.any_eq_true, Bool.and_eq_true, decide_eq_true_eq,
    List.mem_map]
  constructor
  · rintro ⟨s, hs, hcode, hsystem⟩
    exact ⟨⟨s, hs, hcode.symm⟩, hsystem⟩
  · rintro ⟨⟨s, hs, hcode⟩, hsystem⟩
    exact ⟨s, hs, hcode.symm, hsystem⟩

theorem isSystem_refreshed (now : String) (f : Framework) :
    ((seeding now).refreshed systemFrameworks f).isSystem = f.isSystem := by
  unfold Seeding.refreshed
  split <;> rfl

theorem isSeeded_refreshed (now : String) (f : Framework) :
    isSeeded ((seeding now).refreshed systemFrameworks f) = isSeeded f := by
  have hcode : ((seeding now).refreshed systemFrameworks f).code = f.code :=
    (seeding now).code_refreshed _ f
  rw [Bool.eq_iff_iff, isSeeded_iff, isSeeded_iff, hcode, isSystem_refreshed]

theorem isSeeded_row {s : FrameworkSeed} (h : s ∈ systemFrameworks) (now : String) :
    isSeeded (s.row now) = true :=
  isSeeded_iff.mpr ⟨List.mem_map_of_mem h, rfl⟩

theorem filter_upgradedFrameworks_eq_self_iff {frameworks : List Framework} :
    (upgradedFrameworks now frameworks).filter (!isSeeded ·) = frameworks ↔
      ∀ f ∈ frameworks, isSeeded f = false ∧ (seeding now).refreshed systemFrameworks f = f := by
  have hfresh (s : FrameworkSeed) (hs : s ∈ systemFrameworks) :
      (!isSeeded ((seeding now).fresh s)) = false :=
    congrArg (!·) (isSeeded_row hs now)
  have hrefresh (f : Framework) : (!isSeeded ((seeding now).refreshed systemFrameworks f)) =
      !isSeeded f := congrArg (!·) (isSeeded_refreshed now f)
  rw [upgradedFrameworks, (seeding now).filter_seeded_eq_self_iff hfresh hrefresh]
  simp only [Bool.not_eq_true']

theorem mapM_narrowAnchor (anchors : List (Anchor Certificate)) :
    (anchors.map fun a => { a with knownBy := a.knownBy.widen }).mapM narrowAnchor =
      some anchors := by
  induction anchors with
  | nil => rfl
  | cons a anchors ih =>
    have hhead : narrowAnchor { a with knownBy := a.knownBy.widen } = some a := rfl
    rw [List.map_cons, List.mapM_cons, hhead, ih]
    rfl

/-- The anchors that the downgrade keeps of those that the upgrade has. -/
theorem filter_insertAnchor {d d' : Database Credentials}
    (h : insertAnchor now d ob3Anchor = some d') :
    d'.frameworks = d.frameworks ∧ d'.organizationProfiles = d.organizationProfiles ∧
      d'.anchors.filter (·.id ∉ ob3TrustAnchors.map (·.id)) =
        d.anchors.filter (·.id ∉ ob3TrustAnchors.map (·.id)) := by
  unfold insertAnchor at h
  split at h
  case isTrue => cases h; exact ⟨rfl, rfl, rfl⟩
  case isFalse =>
    split at h <;> cases h
    refine ⟨rfl, rfl, ?_⟩
    simp [List.filter_append, ob3TrustAnchors]

/-- The database between the downgrades. -/
def downgraded (now : String) (db : Database Certificate) : Database Certificate :=
  { db with
    frameworks := upgradedFrameworks now db.frameworks
    anchors := db.anchors.filter (·.id ∉ ob3TrustAnchors.map (·.id)) }

theorem downgradeAnchors_of_migrate {db : Database Certificate} {d : Database Credentials}
    (h : migrate now db = some d) :
    (seeding now).Free systemFrameworks db.frameworks ∧
      downgradeAnchors d = some (downgraded now db) := by
  rw [migrate, upgradeFrameworks_eq] at h
  split at h
  case isFalse => cases h
  case isTrue hfree =>
    rw [Option.bind_some, upgradeAnchors_eq] at h
    obtain ⟨hframeworks, hprofiles, hanchors⟩ := filter_insertAnchor h
    have hkept : (widened db).anchors.filter (·.id ∉ ob3TrustAnchors.map (·.id)) =
        (downgraded now db).anchors.map fun a => { a with knownBy := a.knownBy.widen } := by
      simp only [widened, downgraded, List.filter_map, Function.comp_def]
    have hnarrow : (d.anchors.filter (·.id ∉ ob3TrustAnchors.map (·.id))).mapM narrowAnchor =
        some (downgraded now db).anchors := by
      rw [hanchors]
      exact (congrArg (List.mapM narrowAnchor) hkept).trans (mapM_narrowAnchor _)
    refine ⟨hfree, ?_⟩
    rw [downgradeAnchors, hnarrow, hframeworks, hprofiles]
    rfl

/-- The identifiers of missing frameworks are in no row. -/
theorem isGone_downgraded {db : Database Certificate}
    (hfree : (seeding now).Free systemFrameworks db.frameworks)
    (hnone : ∀ f ∈ db.frameworks, isSeeded f = false) {frameworkId : Option String}
    (h : HasFramework db frameworkId) :
    (downgraded now db).isGone isSeeded frameworkId = false := by
  rw [Bool.eq_false_iff]
  intro hgone
  obtain ⟨f, hf, hseeded, rfl⟩ := isGone_eq_true.mp hgone
  rcases List.mem_append.mp hf with hf | hf
  · obtain ⟨f, hmem, rfl⟩ := List.mem_map.mp hf
    rw [isSeeded_refreshed, hnone f hmem] at hseeded
    cases hseeded
  · obtain ⟨s, hs, rfl⟩ := List.mem_map.mp hf
    exact hfree s hs (h _ rfl)

theorem Untouched.isSeeded_eq_false {db : Database Certificate} (h : Untouched now db)
    {f : Framework} (hf : f ∈ db.frameworks) : isSeeded f = false := by
  rw [Bool.eq_false_iff]
  intro hseeded
  obtain ⟨hcode, hsystem⟩ := isSeeded_iff.mp hseeded
  rw [(h.frameworks f hf hcode).1] at hsystem
  cases hsystem

theorem Untouched.refreshed_eq {db : Database Certificate} (h : Untouched now db)
    {f : Framework} (hf : f ∈ db.frameworks) :
    (seeding now).refreshed systemFrameworks f = f := by
  by_cases hcode : f.code ∈ systemFrameworks.map (·.code)
  · exact (h.frameworks f hf hcode).2
  · exact (seeding now).refreshed_of_notMem hcode

/-- The downgrades of 014 and 013 give back a consistent database exactly when none of what is
seeded was there before: a system framework or the anchor that was there goes with them. -/
theorem revert_migrate_iff {db : Database Certificate} (hdb : db.Consistent)
    {d : Database Credentials} (h : migrate now db = some d) :
    revert d = some db ↔ Untouched now db := by
  obtain ⟨hfree, hd⟩ := downgradeAnchors_of_migrate h
  rw [revert, hd, Option.bind_some, downgradeFrameworks_eq, Database.deleteFrameworks]
  constructor
  · intro hrevert
    split at hrevert
    case isTrue => cases hrevert
    case isFalse =>
      have hwithout := Option.some.inj hrevert
      have hframeworks := filter_upgradedFrameworks_eq_self_iff.mp
        (congrArg Database.frameworks hwithout)
      have hanchors : (downgraded now db).anchors.filter
          (!(downgraded now db).isGone isSeeded ·.frameworkId) = db.anchors :=
        congrArg Database.anchors hwithout
      refine ⟨fun a ha => ?_, fun f hf hcode => ⟨?_, (hframeworks f hf).2⟩⟩
      · rw [← hanchors] at ha
        simpa [ob3TrustAnchors, ob3Anchor] using (List.mem_filter.mp (List.mem_filter.mp ha).1).2
      · have hseeded := (hframeworks f hf).1
        rw [Bool.eq_false_iff, Ne, isSeeded_iff] at hseeded
        simpa [hcode] using hseeded
  · intro huntouched
    have hgone {frameworkId : Option String} (hid : HasFramework db frameworkId) :
        (downgraded now db).isGone isSeeded frameworkId = false :=
      isGone_downgraded hfree (fun f => huntouched.isSeeded_eq_false) hid
    have hprofiles : (downgraded now db).organizationProfiles.any
        ((downgraded now db).isGone isSeeded ·.frameworkId) = false :=
      List.any_eq_false.mpr fun p hp => by simp [hgone (hdb.organizationProfiles p hp)]
    have hframeworks : (upgradedFrameworks now db.frameworks).filter (!isSeeded ·) =
        db.frameworks := filter_upgradedFrameworks_eq_self_iff.mpr fun f hf =>
      ⟨huntouched.isSeeded_eq_false hf, huntouched.refreshed_eq hf⟩
    have hanchors : (downgraded now db).anchors = db.anchors :=
      List.filter_eq_self.mpr fun a ha => by
        simpa [ob3TrustAnchors, ob3Anchor] using huntouched.anchors a ha
    have hkept : db.anchors.filter (!(downgraded now db).isGone isSeeded ·.frameworkId) =
        db.anchors := List.filter_eq_self.mpr fun a ha => by simp [hgone (hdb.anchors a ha)]
    rw [hprofiles, if_neg Bool.false_ne_true, Database.without, hanchors, hkept]
    exact congrArg (fun frameworks => some { db with frameworks }) hframeworks

/-- An organization with a framework of its own. -/
def ownFramework : Database Certificate where
  frameworks := [{
    id := "tf-1"
    code := "ACME"
    displayName := "ACME"
    description := ""
    pkdEndpoints := "\x7b\x7d"
    defaultAlgorithms := "[]"
    defaultFormats := "[]"
    validationRuleset := "\x7b\x7d"
    syncConfig := "\x7b\x7d"
    isSystem := false
    createdAt := "2026-01-01"
    updatedAt := "2026-01-01" }]
  anchors := [{
    id := "ta-1"
    frameworkId := some "tf-1"
    anchorType := "root"
    jurisdiction := none
    subject := "CN=ACME"
    issuer := "CN=ACME"
    source := "upload"
    syncedAt := none
    createdAt := "2026-01-02"
    knownBy := ⟨[48], "af1e"⟩ }]
  organizationProfiles := [⟨"op-1", some "tf-1"⟩]

theorem revert_ownFramework : ∃ d, migrate "2026-03-16" ownFramework = some d ∧
    revert d = some ownFramework := by
  have happlies : (migrate "2026-03-16" ownFramework).isSome = true := by decide +kernel
  obtain ⟨d, hd⟩ := Option.isSome_iff_exists.mp happlies
  have hframework : HasFramework ownFramework (some "tf-1") := by
    rintro id ⟨⟩
    exact List.mem_singleton_self _
  have hconsistent : ownFramework.Consistent :=
    ⟨List.forall_mem_singleton.mpr hframework, List.forall_mem_singleton.mpr hframework⟩
  have huntouched : Untouched "2026-03-16" ownFramework := by
    refine ⟨List.forall_mem_singleton.mpr (by decide +kernel),
      List.forall_mem_singleton.mpr fun hcode => absurd hcode (by decide +kernel)⟩
  exact ⟨d, hd, (revert_migrate_iff hconsistent hd).mpr huntouched⟩

end Marty.Migrations.SystemSeeds
