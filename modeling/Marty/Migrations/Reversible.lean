import Marty.Lib.Schema

/-! The migrations that create objects and take them away again.  `downgrade` drops what `upgrade`
has created, the dependent objects first. -/

namespace Marty.Migrations.Reversible

open Lib.Schema

structure Migration where
  revision : String
  /-- In the order of `upgrade`. -/
  created : List Object
  /-- What `upgrade` writes into the new columns. -/
  backfill : Row → Row := id
  /-- In the order of `downgrade`. -/
  dropped : List Key
  ifExists : Bool := false

def Migration.upgrade (m : Migration) (db : Database) : Option Database :=
  (m.created.foldlM create db).map fun db => { db with rows := db.rows.map m.backfill }

def Migration.downgrade (m : Migration) (db : Database) : Option Database :=
  m.dropped.foldlM (if m.ifExists then dropIfExists else drop) db

/-- `NULL` by default. -/
def optional (name type : String) : Column where
  name := name
  type := .base type

def required (name type : String) : Column where
  name := name
  type := .base type
  nullable := false

def defaulted (name type default : String) (nullable : Bool := false) : Column where
  name := name
  type := .base type
  nullable := nullable
  default := some default

def timestamptz : String := "TIMESTAMP WITH TIME ZONE"

section digital_identity_initial

def named : List Column := [required "id" "UUID", required "name" "VARCHAR(255)"]

def versioned : List Column :=
  [defaulted "created_at" timestamptz "now()", defaulted "updated_at" timestamptz "now()",
    defaulted "version" "INTEGER" "1"]

def trustProfiles : Object :=
  .table "trust_profiles"
    (named ++ [required "type" "VARCHAR(50)", optional "description" "TEXT",
      defaulted "config" "JSONB" "\x7b\x7d"] ++ versioned) []

def credentialTemplates : Object :=
  .table "credential_templates"
    (named ++ [required "credential_type" "VARCHAR(100)", optional "description" "TEXT",
      defaulted "claims" "JSONB" "[]", optional "trust_profile_id" "UUID",
      optional "revocation_policy" "JSONB", optional "time_policy" "JSONB"] ++ versioned)
    [("trust_profiles", "id")]

def presentationPolicies : Object :=
  .table "presentation_policies"
    (named ++ [optional "description" "TEXT", defaulted "required_credentials" "JSONB" "[]",
      defaulted "requested_claims" "JSONB" "[]", optional "trust_profile_id" "UUID",
      optional "constraints" "JSONB"] ++ versioned)
    [("trust_profiles", "id")]

def deploymentProfiles : Object :=
  .table "deployment_profiles"
    (named ++ [optional "description" "TEXT", optional "trust_profile_id" "UUID",
      defaulted "credential_template_ids" "JSONB" "[]",
      defaulted "presentation_policy_ids" "JSONB" "[]",
      optional "environment_config" "JSONB"] ++ versioned)
    [("trust_profiles", "id")]

def flows : Object :=
  .table "flows"
    (named ++ [required "flow_type" "VARCHAR(50)", optional "description" "TEXT",
      optional "deployment_profile_id" "UUID", defaulted "steps" "JSONB" "[]",
      defaulted "hooks" "JSONB" "\x7b\x7d", defaulted "approval_strategy" "VARCHAR(50)" "'AUTO'",
      optional "timeout_seconds" "INTEGER"] ++ versioned)
    [("deployment_profiles", "id")]

def flowExecutions : Object :=
  .table "flow_executions"
    ([required "id" "UUID", required "flow_id" "UUID",
      defaulted "status" "VARCHAR(50)" "'PENDING'", optional "current_step" "VARCHAR(100)",
      defaulted "context" "JSONB" "\x7b\x7d", defaulted "step_results" "JSONB" "\x7b\x7d",
      optional "error_message" "TEXT", optional "started_at" timestamptz,
      optional "completed_at" timestamptz] ++ versioned)
    [("flows", "id")]

def digitalIdentityInitial : Migration where
  revision := "001_digital_identity_initial"
  created := [trustProfiles, credentialTemplates, presentationPolicies, deploymentProfiles, flows,
    flowExecutions, .index "ix_flow_executions_flow_status" "flow_executions" ["flow_id", "status"],
    .index "ix_credential_templates_trust_profile" "credential_templates" ["trust_profile_id"],
    .index "ix_presentation_policies_trust_profile" "presentation_policies" ["trust_profile_id"]]
  dropped := [.index "ix_presentation_policies_trust_profile",
    .index "ix_credential_templates_trust_profile", .index "ix_flow_executions_flow_status",
    .table "flow_executions", .table "flows", .table "deployment_profiles",
    .table "presentation_policies", .table "credential_templates", .table "trust_profiles"]

end digital_identity_initial

def enableFkConstraints : Migration where
  revision := "003_enable_fk_constraints"
  created := [
    .foreignKey "trust_framework_anchors_framework_id_fkey" "trust_framework_anchors"
      "framework_id" "trust_frameworks" "id" "CASCADE",
    .foreignKey "organization_trust_profiles_organization_id_fkey" "organization_trust_profiles"
      "organization_id" "organizations" "id" "CASCADE",
    .foreignKey "organization_trust_profiles_framework_id_fkey" "organization_trust_profiles"
      "framework_id" "trust_frameworks" "id" "RESTRICT",
    .foreignKey "digital_identity_trust_profiles_organization_id_fkey"
      "digital_identity_trust_profiles" "organization_id" "organizations" "id" "CASCADE"]
  dropped := [
    .constraint "digital_identity_trust_profiles"
      "digital_identity_trust_profiles_organization_id_fkey",
    .constraint "organization_trust_profiles" "organization_trust_profiles_framework_id_fkey",
    .constraint "organization_trust_profiles" "organization_trust_profiles_organization_id_fkey",
    .constraint "trust_framework_anchors" "trust_framework_anchors_framework_id_fkey"]
  ifExists := true

def policies : String := "digital_identity_presentation_policies"

def extendPresentationPolicies : Migration where
  revision := "004_extend_presentation_policies"
  created := [.column policies (defaulted "allowed_issuers" "JSON" "[]" true),
    .column policies (defaulted "derived_attribute_preferences" "JSON" "\x7b\x7d" true),
    .column policies (defaulted "credential_ranking_strategy" "VARCHAR(50)" "freshest_first"),
    .column policies (defaulted "credential_ranking_weights" "JSON" "\x7b\x7d" true)]
  dropped := [.column policies "allowed_issuers", .column policies "derived_attribute_preferences",
    .column policies "credential_ranking_strategy", .column policies "credential_ranking_weights"]
  ifExists := true

def revocationBatches : String := "digital_identity_revocation_batches"

def addRevocationBatches : Migration where
  revision := "005_add_revocation_batches"
  created := [
    .table revocationBatches
      [required "id" "VARCHAR(36)", required "organization_id" "VARCHAR(36)",
        required "credential_template_id" "VARCHAR(36)", required "credential_count" "INTEGER",
        defaulted "credential_ids" "JSON" "[]" true, defaulted "status" "VARCHAR(20)" "queued",
        required "scheduled_for" timestamptz, optional "completed_at" timestamptz,
        required "revocation_interval" "VARCHAR(10)", optional "error_message" "TEXT",
        required "created_at" timestamptz, required "updated_at" timestamptz,
        defaulted "version" "INTEGER" "1"] [],
    .index "idx_revocation_batches_org" revocationBatches ["organization_id"],
    .index "idx_revocation_batches_template" revocationBatches ["credential_template_id"],
    .index "idx_revocation_batches_status" revocationBatches ["status"],
    .index "idx_revocation_batches_scheduled" revocationBatches ["scheduled_for"]]
  dropped := [.index "idx_revocation_batches_scheduled", .index "idx_revocation_batches_status",
    .index "idx_revocation_batches_template", .index "idx_revocation_batches_org",
    .table revocationBatches]
  ifExists := true

section persistence_alignment

def ct : String := "digital_identity_credential_templates"

def tp : String := "digital_identity_trust_profiles"

def pp : String := policies

def dp : String := "digital_identity_deployment_profiles"

def at_ : String := "digital_identity_application_templates"

def co : String := "digital_identity_cascade_operations"

/-- `op.create_index(f'ix_{table}_{column}', table, [column])` -/
def indexOn (table column : String) : Object :=
  .index ("ix_" ++ table ++ "_" ++ column) table [column]

def dropIndexOn (table column : String) : Key := .index ("ix_" ++ table ++ "_" ++ column)

def persistenceAlignment : Migration where
  revision := "008_persistence_alignment"
  created := [.column ct (optional "organization_id" "VARCHAR(36)"),
    indexOn ct "organization_id",
    .column ct (optional "issuer_key_id" "VARCHAR(255)"),
    .column ct (optional "issuer_algorithm" "VARCHAR(50)"),
    .column ct (defaulted "key_access_mode" "VARCHAR(50)" "key_vault"),
    .column ct (optional "revocation_profile_id" "VARCHAR(36)"),
    indexOn ct "revocation_profile_id",
    .column ct (defaulted "privacy_posture" "VARCHAR(50)" "selective_disclosure"),
    .column ct (defaulted "auto_generate_artifacts" "BOOLEAN" "0"),
    .column tp (optional "revocation_profile_id" "VARCHAR(36)"),
    indexOn tp "revocation_profile_id",
    .column pp (defaulted "fallback_policy" "VARCHAR(50)" "ACCEPT_RAW"),
    .column pp (defaulted "supported_circuits" "JSON" "[]"),
    .column dp (optional "organization_id" "VARCHAR(36)"),
    indexOn dp "organization_id",
    .column dp (defaulted "lanes" "JSON" "[]"),
    .column at_ (optional "organization_id" "VARCHAR(36)"),
    indexOn at_ "organization_id",
    .column at_ (defaulted "form_fields" "JSON" "[]"),
    .column at_ (defaulted "claim_collection_rules" "JSON" "[]"),
    .column at_ (defaulted "notifications" "JSON" "\x7b\x7d"),
    .column at_ (defaulted "ui_config" "JSON" "\x7b\x7d"),
    .column co (optional "organization_id" "VARCHAR(36)"),
    indexOn co "organization_id"]
  dropped := [dropIndexOn co "organization_id", .column co "organization_id",
    .column at_ "ui_config", .column at_ "notifications", .column at_ "claim_collection_rules",
    .column at_ "form_fields", dropIndexOn at_ "organization_id", .column at_ "organization_id",
    .column dp "lanes", dropIndexOn dp "organization_id", .column dp "organization_id",
    .column pp "supported_circuits", .column pp "fallback_policy",
    dropIndexOn tp "revocation_profile_id", .column tp "revocation_profile_id",
    .column ct "auto_generate_artifacts", .column ct "privacy_posture",
    dropIndexOn ct "revocation_profile_id", .column ct "revocation_profile_id",
    .column ct "key_access_mode", .column ct "issuer_algorithm", .column ct "issuer_key_id",
    dropIndexOn ct "organization_id", .column ct "organization_id"]

end persistence_alignment

def customAnchors : String := "organization_custom_anchors"

/-- `SET updated_at = created_at WHERE updated_at IS NULL` -/
def backfillUpdatedAt (row : Row) : Row :=
  if row.table = customAnchors ∧ (row.cells "updated_at").join = none then
    { row with cells := Function.update row.cells "updated_at" (row.cells "created_at") }
  else row

def missingColumns : Migration where
  revision := "012_missing_columns"
  created := [
    .column "digital_identity_trust_profile_issuers" (defaulted "version" "INTEGER" "1"),
    .column customAnchors (optional "updated_at" timestamptz),
    .column customAnchors (defaulted "version" "INTEGER" "1")]
  backfill := backfillUpdatedAt
  dropped := [.column "digital_identity_trust_profile_issuers" "version",
    .column customAnchors "version", .column customAnchors "updated_at"]

def migrations : List Migration :=
  [digitalIdentityInitial, enableFkConstraints, extendPresentationPolicies, addRevocationBatches,
    persistenceAlignment, missingColumns]

theorem dropObject_created :
    ∀ m ∈ migrations, m.dropped.foldlM dropObject m.created = some [] := by
  decide +kernel

/-- A backfill writes into the new columns only. -/
structure FillsNew (m : Migration) : Prop where
  table : ∀ row, (m.backfill row).table = row.table
  cells : ∀ row c, (m.backfill row).cells c = row.cells c ∨
    Key.column row.table c ∈ m.created.map Object.key
  cleared : ∀ row, clearAll m.dropped (m.backfill row) = clearAll m.dropped row

theorem fillsNew_of_id {m : Migration} (h : m.backfill = id) : FillsNew m := by
  constructor <;> simp [h]

theorem fillsNew_missingColumns : FillsNew missingColumns := by
  have htable : ∀ row, (backfillUpdatedAt row).table = row.table := by
    intro row
    unfold backfillUpdatedAt
    split <;> rfl
  have hcells : ∀ row c, (backfillUpdatedAt row).cells c = row.cells c ∨
      row.table = customAnchors ∧ c = "updated_at" := by
    intro row c
    unfold backfillUpdatedAt
    split
    case isTrue h =>
      by_cases hc : c = "updated_at"
      · exact .inr ⟨h.1, hc⟩
      · exact .inl (Function.update_of_ne hc _ _)
    case isFalse => exact .inl rfl
  have hnotable : ∀ t, Key.table t ∉ missingColumns.dropped := by
    simp [missingColumns]
  refine ⟨htable, fun row c => (hcells row c).imp_right ?_, fun row => ?_⟩
  · rintro ⟨ht, rfl⟩
    simp [missingColumns, Object.key, ht, optional]
  · change clearAll missingColumns.dropped (backfillUpdatedAt row) = _
    rw [clearAll_eq_some (hnotable _), clearAll_eq_some (hnotable _), htable]
    refine congrArg some (congrArg (Row.mk row.table) (funext fun c => ?_))
    rcases hcells row c with h | ⟨ht, rfl⟩
    · rw [h]
    · simp [missingColumns, ht]

theorem fillsNew : ∀ m ∈ migrations, FillsNew m := by
  simp only [migrations, List.forall_mem_cons]
  exact ⟨fillsNew_of_id rfl, fillsNew_of_id rfl, fillsNew_of_id rfl, fillsNew_of_id rfl,
    fillsNew_of_id rfl, fillsNew_missingColumns, nofun⟩

variable {m : Migration} {db db' : Database}

theorem consistent_upgrade (hm : m ∈ migrations) (hdb : Consistent db)
    (h : m.upgrade db = some db') : Consistent db' := by
  obtain ⟨mid, hmid, rfl⟩ := Option.map_eq_some_iff.mp h
  have hfills := fillsNew m hm
  have hcreated := created_of_create hmid
  obtain ⟨hclosed, htables, hcells⟩ := consistent_createAll hdb hmid
  refine ⟨hclosed, ?_, ?_⟩
  · intro _ hrow
    obtain ⟨row, hmem, rfl⟩ := List.mem_map.mp hrow
    rw [hfills.table]
    exact htables row hmem
  · intro _ hrow c hc
    obtain ⟨row, hmem, rfl⟩ := List.mem_map.mp hrow
    rw [hfills.table]
    rcases hfills.cells row c with heq | hnew
    · exact hcells row hmem c (heq ▸ hc)
    · obtain ⟨o, ho, hkey⟩ := List.mem_map.mp hnew
      rw [hcreated.catalog]
      exact mem_provided.mpr
        ⟨o, List.mem_append_right _ ho, hkey ▸ o.key_mem_provides⟩

/-- A downgrade takes back its upgrade, whatever has been written in between. -/
theorem downgrade_upgrade (hm : m ∈ migrations) (hdb : Consistent db)
    (h : m.upgrade db = some db') (rows : List Row) :
    m.downgrade { db' with rows := rows } =
      some { db with rows := rows.filterMap (clearAll m.dropped) } := by
  obtain ⟨mid, hmid, rfl⟩ := Option.map_eq_some_iff.mp h
  have hdrop := drop_create hdb hmid (dropObject_created m hm) rows
  unfold Migration.downgrade
  split
  · exact dropIfExists_of_drop hdrop
  · exact hdrop

theorem clear_upgrade (hm : m ∈ migrations) (hdb : Consistent db) (h : m.upgrade db = some db') :
    db'.rows.filterMap (clearAll m.dropped) = db.rows := by
  obtain ⟨mid, hmid, rfl⟩ := Option.map_eq_some_iff.mp h
  have hcleared : clearAll m.dropped ∘ m.backfill = clearAll m.dropped :=
    funext (fillsNew m hm).cleared
  rw [List.filterMap_map, hcleared]
  exact clear_fill hdb hmid (dropObject_created m hm)

def upgrades (ms : List Migration) (db : Database) : Option Database :=
  ms.foldlM (fun db m => m.upgrade db) db

/-- The last one first. -/
def downgrades (ms : List Migration) (db : Database) : Option Database :=
  ms.reverse.foldlM (fun db m => m.downgrade db) db

def droppedAll (ms : List Migration) : List Key := ms.reverse.flatMap (·.dropped)

theorem downgrades_cons (m : Migration) (ms : List Migration) (db : Database) :
    downgrades (m :: ms) db = (downgrades ms db).bind m.downgrade := by
  rw [downgrades, List.reverse_cons, List.foldlM_append]
  refine Option.bind_congr fun mid _ => ?_
  rw [List.foldlM_cons]
  exact bind_pure (m.downgrade mid)

theorem clearAll_droppedAll_cons (m : Migration) (ms : List Migration) (rows : List Row) :
    rows.filterMap (clearAll (droppedAll (m :: ms))) =
      (rows.filterMap (clearAll (droppedAll ms))).filterMap (clearAll m.dropped) := by
  have hkeys : droppedAll (m :: ms) = droppedAll ms ++ m.dropped := by simp [droppedAll]
  rw [List.filterMap_filterMap, hkeys, funext (clearAll_append _ _)]

theorem downgrades_rows {ms : List Migration} (hms : ∀ m ∈ ms, m ∈ migrations)
    (hdb : Consistent db) (h : upgrades ms db = some db') :
    (∀ rows, downgrades ms { db' with rows := rows } =
        some { db with rows := rows.filterMap (clearAll (droppedAll ms)) }) ∧
      db'.rows.filterMap (clearAll (droppedAll ms)) = db.rows := by
  induction ms generalizing db with
  | nil =>
    obtain rfl := Option.some.inj h
    have hnone : ∀ rows : List Row, rows.filterMap (clearAll (droppedAll [])) = rows :=
      fun _ => List.filterMap_some
    exact ⟨fun rows => by rw [hnone]; rfl, hnone db.rows⟩
  | cons m ms ih =>
    rw [upgrades, List.foldlM_cons] at h
    obtain ⟨mid, hmid, h⟩ := Option.bind_eq_some_iff.mp h
    have hm := hms m List.mem_cons_self
    have hms : ∀ m ∈ ms, m ∈ migrations := fun p hp => hms p (List.mem_cons_of_mem m hp)
    obtain ⟨hdowns, hrows⟩ := ih hms (consistent_upgrade hm hdb hmid) h
    refine ⟨fun rows => ?_, ?_⟩
    · rw [downgrades_cons, hdowns, clearAll_droppedAll_cons]
      exact downgrade_upgrade hm hdb hmid _
    · rw [clearAll_droppedAll_cons, hrows]
      exact clear_upgrade hm hdb hmid

/-- A database with one policy. -/
def onePolicy : Database where
  catalog := [.table policies [required "id" "VARCHAR(36)"] []]
  rows := [⟨policies, fun c => if c = "id" then some (some "policy-1") else none⟩]

theorem consistent_onePolicy : Consistent onePolicy := by
  constructor <;>
    simp [onePolicy, Object.needs, Object.provides, Column.needs, required]

def publishStatus : Object := .type "publishstatus" ["DRAFT", "PUBLISHED", "ARCHIVED"]

def obv3Created : List Object :=
  [.column ct {
      name := "status"
      type := .enum "publishstatus"
      nullable := false
      default := some "DRAFT" },
    .index "ix_credential_templates_status" ct ["status"],
    .column ct (optional "compliance_profile_id" "VARCHAR(36)"),
    .foreignKey "fk_credential_templates_compliance_profile" ct "compliance_profile_id"
      "digital_identity_compliance_profiles" "id" "RESTRICT",
    .index "ix_credential_templates_compliance_profile_id" ct ["compliance_profile_id"],
    .column ct (optional "application_template_id" "VARCHAR(36)"),
    .foreignKey "fk_credential_templates_application_template" ct "application_template_id"
      "digital_identity_application_templates" "id" "SET NULL",
    .index "ix_credential_templates_application_template_id" ct ["application_template_id"],
    .column ct (optional "issuer_certificate_chain_pem" "TEXT"),
    .column ct (optional "issuer_did" "VARCHAR(500)"),
    .column "digital_identity_flows" (optional "issuance_protocol" "VARCHAR(50)"),
    .index "ix_flows_issuance_protocol" "digital_identity_flows" ["issuance_protocol"]]

def obv3Dropped : List Key :=
  [.index "ix_flows_issuance_protocol", .index "ix_credential_templates_application_template_id",
    .index "ix_credential_templates_compliance_profile_id", .index "ix_credential_templates_status",
    .constraint ct "fk_credential_templates_application_template",
    .constraint ct "fk_credential_templates_compliance_profile",
    .column "digital_identity_flows" "issuance_protocol", .column ct "issuer_did",
    .column ct "issuer_certificate_chain_pem", .column ct "application_template_id",
    .column ct "compliance_profile_id", .column ct "status", .type "publishstatus"]

/-- `create(checkfirst=True)` -/
def createIfAbsent (db : Database) (o : Object) : Option Database :=
  if o.key ∈ db.catalog.map Object.key then some db else create db o

def upgradeObv3 (db : Database) : Option Database :=
  (createIfAbsent db publishStatus).bind fun db => obv3Created.foldlM create db

def downgradeObv3 (db : Database) : Option Database := obv3Dropped.foldlM drop db

theorem dropObject_obv3 :
    obv3Dropped.foldlM dropObject (publishStatus :: obv3Created) = some [] := by
  decide +kernel

/-- The downgrade takes back the upgrade exactly when the type was not there before. -/
theorem downgradeObv3_iff (hdb : Consistent db) (h : upgradeObv3 db = some db') :
    downgradeObv3 db' = some db ↔ Key.type "publishstatus" ∉ db.catalog.map Object.key := by
  obtain ⟨mid, hmid, h⟩ := Option.bind_eq_some_iff.mp h
  constructor
  · intro hdown hmem
    obtain ⟨o, ho, hkey⟩ := List.mem_map.mp hmem
    have hdropped : o.key ∉ obv3Dropped := (key_notMem_of_drop hdown o ho).2
    rw [hkey] at hdropped
    exact hdropped (by decide)
  · intro hnone
    have hcreate : create db publishStatus = some mid := by
      have habsent : publishStatus.key ∉ db.catalog.map Object.key := hnone
      rwa [createIfAbsent, if_neg habsent] at hmid
    have hall : (publishStatus :: obv3Created).foldlM create db = some db' := by
      rw [List.foldlM_cons, hcreate]
      exact h
    have hdown := drop_create hdb hall dropObject_obv3 db'.rows
    rwa [clear_fill hdb hall dropObject_obv3] at hdown

/-- The tables that the migration alters and refers to. -/
def beforeObv3 : List Object :=
  [.table ct [required "id" "VARCHAR(36)"] [],
    .table "digital_identity_compliance_profiles" [required "id" "VARCHAR(36)"] [],
    .table "digital_identity_application_templates" [required "id" "VARCHAR(36)"] [],
    .table "digital_identity_flows" [required "id" "VARCHAR(36)"] []]

theorem downgradeObv3_beforeObv3 : ∃ db', upgradeObv3 { catalog := beforeObv3 } = some db' ∧
    downgradeObv3 db' = some { catalog := beforeObv3 } := by
  have hup : (upgradeObv3 { catalog := beforeObv3 }).isSome := by decide +kernel
  obtain ⟨db', hdb'⟩ := Option.isSome_iff_exists.mp hup
  have hconsistent : Consistent { catalog := beforeObv3 } := by
    refine ⟨?_, nofun, nofun⟩
    simp [beforeObv3, Object.needs, Column.needs, required]
  exact ⟨db', hdb', (downgradeObv3_iff hconsistent hdb').mpr (by decide)⟩

end Marty.Migrations.Reversible
