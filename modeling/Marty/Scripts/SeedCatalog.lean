import Mathlib.Data.List.Induction
import Mathlib.Data.List.Nodup
import Marty.Lib.Dict

/-! `seed_marty_org_catalog`: the registry of signing services is read, merged with the desired
services and written back when they differ.  The gateway is a parameter. -/

namespace Marty.Scripts.SeedCatalog

open Lib

/-- JSON values, up to `==`. -/
structure Values (V : Type) where
  null : V
  str : String → V
  strs : List String → V
  dict : List (String × String) → V
  isHashable : V → Bool
  str_injective : Function.Injective str
  isHashable_str : ∀ s, isHashable (str s) = true

/-- The settings from the environment. -/
structure Environment where
  openbaoEndpoint : String := "http://localhost:8200"
  openbaoMount : String := "transit"
  openbaoTokenRef : String := "bao-root-token"

abbrev Service (V : Type) : Type := List (String × V)

/-- An element of `services`, which need not be a dictionary. -/
inductive Item (V : Type) : Type
  | dict (service : Service V)
  | other

/-- What the script reads of the configuration. `services` may be missing, and may be `null`. -/
structure Config (V : Type) where
  services : Option (Option (List (Item V))) := none
  defaultServiceId : Option V := none
  formatDefaults : Option V := none
  typeDefaults : Option V := none

/-- What the script writes. -/
structure Registry (V : Type) where
  services : List (Service V)
  defaultServiceId : V
  formatDefaults : V
  typeDefaults : V

def formatDefaults : List (String × String) := [("vds_nc", "marty-vdsnc-signer"),
  ("mso_mdoc", "marty-mdoc-dsc"), ("zk_mdoc", "marty-mdoc-dsc"),
  ("jwt_vc_json", "marty-vc-jwt-signer"), ("dc+sd-jwt", "marty-vc-jwt-signer")]

def typeDefaults : List (String × String) := [("com.icao.mrv", "marty-vdsnc-signer"),
  ("com.icao.dtc.1", "marty-vdsnc-signer"), ("com.icao.dtc.2", "marty-vdsnc-signer"),
  ("com.icao.visa", "marty-vdsnc-signer"), ("com.icao.etd", "marty-vdsnc-signer"),
  ("org.iso.18013.5.1.mDL", "marty-mdoc-dsc"), ("com.marty.member.v1", "marty-mdoc-dsc"),
  ("com.marty.credential.login.v1", "marty-vc-jwt-signer"),
  ("OpenBadgeCredential", "marty-vc-jwt-signer"), ("AccessBadgeCredential", "marty-vc-jwt-signer")]

def defaultServiceId : String := "marty-vc-jwt-signer"

/-- In some order. -/
def runtimeKeys : List String :=
  ["created_at", "updated_at", "discovered_capabilities", "status", "x5c"]

def checkKeys : List String := ["key_reference", "algorithms", "key_purposes",
  "credential_formats", "service_type", "endpoint", "mount", "auth_mode"]

variable {V : Type} [DecidableEq V] (values : Values V) (env : Environment)

def desired (id name description keyReference : String) (algorithms keyPurposes : List String)
    (credentialFormats : List String) : Service V := [
  ("id", values.str id), ("name", values.str name), ("description", values.str description),
  ("service_type", values.str "openbao-transit"), ("provider", values.str "openbao"),
  ("endpoint", values.str env.openbaoEndpoint), ("mount", values.str env.openbaoMount),
  ("auth_mode", values.str "token"), ("auth_reference", values.str env.openbaoTokenRef),
  ("key_reference", values.str keyReference), ("algorithms", values.strs algorithms),
  ("key_purposes", values.strs keyPurposes),
  ("credential_formats", values.strs credentialFormats)]

/-- `DESIRED_SERVICES`, with their identifiers. -/
def desiredServices : List (String × Service V) := [
  ("marty-vc-jwt-signer", desired values env "marty-vc-jwt-signer"
    "Marty VC-JWT / SD-JWT Signer (ES256)"
    ("Primary OpenBao-backed ES256 signing service for W3C VC-JWT and " ++
      "DC+SD-JWT credential issuance by the Marty org.")
    "cred-issuer-marty-es256" ["ES256"] ["vc_jwt_issuer"] ["jwt_vc_json", "dc+sd-jwt"]),
  ("marty-eddsa-signer", desired values env "marty-eddsa-signer"
    "Marty VC-JWT / SD-JWT Signer (EdDSA)"
    ("OpenBao-backed EdDSA signing service for W3C VC-JWT and " ++
      "DC+SD-JWT credential issuance by the Marty org.")
    "cred-issuer-marty-eddsa" ["EdDSA"] ["vc_jwt_issuer"] ["jwt_vc_json", "dc+sd-jwt"]),
  ("marty-mdoc-dsc", desired values env "marty-mdoc-dsc"
    "Marty mDoc Document Signer (ES256)"
    ("OpenBao-backed ES256 Document Signer Certificate key for " ++
      "ISO 18013-5 mDoc (mso_mdoc and zk_mdoc) issuance by the Marty org. " ++
      "Also used for mDL and member credential issuance.")
    "cred-dsc-marty-primary" ["ES256"] ["mdoc_dsc"] ["mso_mdoc", "zk_mdoc"]),
  ("marty-vdsnc-signer", desired values env "marty-vdsnc-signer"
    "Marty VDS-NC ICAO Signer (ES256)"
    ("OpenBao-backed ES256 signing service for ICAO VDS-NC travel " ++
      "document credentials (ePassport, DTC-1, DTC-2, visa, ETD) " ++
      "produced by the VDSNC-RUST signing pipeline. " ++
      "Key reference: " ++ "cred-issuer-marty-vdsnc")
    "cred-issuer-marty-vdsnc" ["ES256"] ["vdsnc_signing"] ["vds_nc"])]

def desiredIds : List V := (desiredServices values env).map fun s => values.str s.1

/-- `s["id"]`, as the key of a dictionary. -/
def serviceId (s : Service V) : Option V := (s.lookup "id").filter values.isHashable

def Item.dict? : Item V → Option (Service V)
  | .dict service => some service
  | .other => none

/-- The services by their identifiers: the last one of each, where the first one stood. -/
def byId (services : List (Service V)) : Option (List (V × Service V)) :=
  (services.mapM fun s => (serviceId values s).map fun id => (id, s)).map (Dict.updated [])

def setdefault (key : String) (value : V) (s : Service V) : Service V :=
  if key ∈ s.map (·.1) then s else s ++ [(key, value)]

/-- The desired service with what runs have left in the existing one. -/
def merge (service existing : Service V) : Service V :=
  runtimeKeys.foldl (fun s key => match existing.lookup key with
    | none => s
    | some value => setdefault key value s) service

def buildDesiredRegistry (existing : List (Item V)) : Option (Registry V) := do
  let existingById ← byId values (existing.filterMap Item.dict?)
  some {
    services := (existingById.filter (·.1 ∉ desiredIds values env)).map (·.2) ++
      (desiredServices values env).map fun s =>
        merge s.2 ((existingById.lookup (values.str s.1)).getD [])
    defaultServiceId := values.str defaultServiceId
    formatDefaults := values.dict formatDefaults
    typeDefaults := values.dict typeDefaults }

/-- `s.get(key)` -/
def get (s : Service V) (key : String) : V := (s.lookup key).getD values.null

/-- What `for` goes over in `current.get("services", [])`. -/
def Config.iterated (c : Config V) : Option (List (Item V)) :=
  match c.services with
  | none => some []
  | some services => services

/-- `current.get("services") or []` -/
def Config.existing (c : Config V) : List (Item V) := (c.services.getD none).getD []

/-- A checked value of a desired service is not that of its counterpart. -/
def differs (currentById : List (V × Service V)) (s : Service V) : Bool :=
  match currentById.lookup (get values s "id") with
  | none => true
  | some service => checkKeys.any fun key => get values s key ≠ get values service key

def registryNeedsUpdate (current : Config V) (desired : Registry V) : Option Bool := do
  let services ← current.iterated
  let currentById ← byId values (services.filterMap Item.dict?)
  let desiredIds ← desired.services.mapM (serviceId values)
  if ¬desiredIds ⊆ currentById.map (·.1) then some true
  else if current.formatDefaults.getD values.null ≠ desired.formatDefaults then some true
  else if current.typeDefaults.getD values.null ≠ desired.typeDefaults then some true
  else if current.defaultServiceId.getD values.null ≠ desired.defaultServiceId then some true
  else some (desired.services.any (differs values currentById))

/-! Runs against a gateway. -/

inductive Outcome
  | failed | upToDate | dryRun | applied | raised
  deriving DecidableEq

/-- What becomes of the `PATCH`: the answer can be lost after the registry has been written. -/
inductive Patch
  | applied | lost | refused
  deriving DecidableEq

structure Run where
  dryRun : Bool := false
  /-- Whether the `GET` is answered. -/
  answered : Bool := true
  patch : Patch := .applied

/-- The gateway: what it has, and what has been written to it. -/
structure Gateway (V : Type) where
  /-- `none` where the `GET` is answered by 404. -/
  config : Option (Config V) := none
  written : List (Registry V) := []

variable (store : Option (Config V) → Registry V → Config V)

def Gateway.write (g : Gateway V) (r : Registry V) : Gateway V where
  config := some (store g.config r)
  written := g.written ++ [r]

/-- `get_config` -/
def Gateway.current (g : Gateway V) : Config V := g.config.getD {}

/-- The run once the registry has been built. -/
def Gateway.update (g : Gateway V) (run : Run) (desired : Registry V) : Gateway V × Outcome :=
  match registryNeedsUpdate values g.current desired with
  | none => (g, .raised)
  | some false => (g, .upToDate)
  | some true =>
    if run.dryRun then (g, .dryRun)
    else match run.patch with
      | .applied => (g.write store desired, .applied)
      | .lost => (g.write store desired, .failed)
      | .refused => (g, .failed)

def seed (g : Gateway V) (run : Run) : Gateway V × Outcome :=
  if run.answered then
    match buildDesiredRegistry values env g.current.existing with
    | none => (g, .raised)
    | some desired => g.update values store run desired
  else (g, .failed)

def seeds (g : Gateway V) (runs : List Run) : Gateway V :=
  runs.foldl (fun g run => (seed values env store g run).1) g

/-! The merged services. -/

section merge

omit [DecidableEq V]

theorem lookup_setdefault (key key' : String) (value : V) (s : Service V) :
    (setdefault key value s).lookup key' =
      (s.lookup key').or (if key' = key then some value else none) := by
  unfold setdefault
  split
  case isTrue hmem =>
    split
    case isTrue heq =>
      obtain ⟨v, hv⟩ := Option.ne_none_iff_exists'.mp (Dict.lookup_ne_none.mpr (heq ▸ hmem))
      simp [hv]
    case isFalse => simp
  case isFalse =>
    rw [List.lookup_append, List.lookup_cons, List.lookup_nil]
    by_cases heq : key' = key
    · simp [heq]
    · rw [beq_false_of_ne heq, if_neg heq]

/-- Every value of the service stays, and those at run time are added. -/
theorem lookup_merge (service existing : Service V) (key : String) :
    (merge service existing).lookup key =
      (service.lookup key).or (if key ∈ runtimeKeys then existing.lookup key else none) := by
  unfold merge
  induction runtimeKeys generalizing service with
  | nil => simp
  | cons key' keys ih =>
    rw [List.foldl_cons, ih]
    cases hexisting : existing.lookup key' with
    | none =>
      by_cases hkey : key = key'
      · subst hkey
        simp [hexisting]
      · simp [hkey]
    | some value =>
      rw [lookup_setdefault, Option.or_assoc]
      by_cases hkey : key = key'
      · subst hkey
        simp [hexisting]
      · simp [hkey]

theorem get_merge {key : String} (hkey : key ∉ runtimeKeys) (service existing : Service V) :
    get values (merge service existing) key = get values service key := by
  rw [get, lookup_merge, if_neg hkey, Option.or_none, get]

theorem checkKeys_notMem : ∀ key ∈ checkKeys, key ∉ runtimeKeys := by decide +kernel

end merge

section byId

variable {values} {services : List (Service V)} {entries : List (V × Service V)}

omit [DecidableEq V] in
theorem serviceId_of_mapM
    (h : (services.mapM fun s => (serviceId values s).map fun id => (id, s)) = some entries) :
    ∀ e ∈ entries, serviceId values e.2 = some e.1 := by
  induction services generalizing entries with
  | nil =>
    obtain rfl := Option.some.inj h
    simp
  | cons s services ih =>
    rw [List.mapM_cons] at h
    obtain ⟨e, he, h⟩ := Option.bind_eq_some_iff.mp h
    obtain ⟨rest, hrest, h⟩ := Option.bind_eq_some_iff.mp h
    obtain rfl := Option.some.inj h
    obtain ⟨id, hid, rfl⟩ := Option.map_eq_some_iff.mp he
    exact List.forall_mem_cons.mpr ⟨hid, ih hrest⟩

theorem byId_eq_some (h : byId values services = some entries) :
    (entries.map (·.1)).Nodup ∧ ∀ e ∈ entries, serviceId values e.2 = some e.1 := by
  obtain ⟨pairs, hpairs, rfl⟩ := Option.map_eq_some_iff.mp h
  refine ⟨Dict.nodup_updated List.nodup_nil, fun e he => ?_⟩
  rcases Dict.mem_updated he with he | he
  · exact serviceId_of_mapM hpairs e he
  · cases he

omit [DecidableEq V] in
theorem mapM_of_serviceId {β : Type} (f : V → Service V → β)
    (hids : ∀ e ∈ entries, serviceId values e.2 = some e.1) :
    ((entries.map (·.2)).mapM fun s => (serviceId values s).map fun id => f id s) =
      some (entries.map fun e => f e.1 e.2) := by
  induction entries with
  | nil => rfl
  | cons e entries ih =>
    obtain ⟨he, hids⟩ := List.forall_mem_cons.mp hids
    rw [List.map_cons, List.mapM_cons, he, ih hids]
    rfl

/-- Services with different identifiers are all found. -/
theorem byId_map_snd (hnodup : (entries.map (·.1)).Nodup)
    (hids : ∀ e ∈ entries, serviceId values e.2 = some e.1) :
    byId values (entries.map (·.2)) = some entries := by
  rw [byId, mapM_of_serviceId Prod.mk hids, Option.map_some, Dict.updated_eq_append (by simpa),
    List.nil_append, List.map_id']

omit [DecidableEq V] in
theorem serviceIds_map_snd (hids : ∀ e ∈ entries, serviceId values e.2 = some e.1) :
    (entries.map (·.2)).mapM (serviceId values) = some (entries.map (·.1)) := by
  have h := mapM_of_serviceId (fun id _ => id) hids
  simpa using h

end byId

/-! The registry that is built. -/

section build

variable {values env} {existingById : List (V × Service V)}

/-- The services of the registry, by their identifiers. -/
def entries (values : Values V) (env : Environment) (existingById : List (V × Service V)) :
    List (V × Service V) :=
  existingById.filter (·.1 ∉ desiredIds values env) ++
    (desiredServices values env).map fun s =>
      (values.str s.1, merge s.2 ((existingById.lookup (values.str s.1)).getD []))

omit [DecidableEq V] in
theorem nodup_desiredIds : (desiredIds values env).Nodup := by
  have hnames : (desiredServices values env).map (·.1) =
      ["marty-vc-jwt-signer", "marty-eddsa-signer", "marty-mdoc-dsc", "marty-vdsnc-signer"] := rfl
  have hnodup : ((desiredServices values env).map (·.1)).Nodup := by
    rw [hnames]
    decide +kernel
  have hids := List.Nodup.map values.str_injective hnodup
  rwa [List.map_map] at hids

omit [DecidableEq V] in
theorem id_of_mem_desiredServices :
    ∀ s ∈ desiredServices values env, s.2.lookup "id" = some (values.str s.1) := by
  intro s hs
  rcases hs with _ | ⟨_, _ | ⟨_, _ | ⟨_, _ | ⟨_, hs⟩⟩⟩⟩
  case tail => cases hs
  all_goals rfl

theorem map_fst_entries : (entries values env existingById).map (·.1) =
    (existingById.filter (·.1 ∉ desiredIds values env)).map (·.1) ++ desiredIds values env := by
  simp [entries, desiredIds, Function.comp_def]

theorem nodup_entries (h : (existingById.map (·.1)).Nodup) :
    ((entries values env existingById).map (·.1)).Nodup := by
  rw [map_fst_entries, List.nodup_append]
  refine ⟨h.sublist (List.filter_sublist.map _), nodup_desiredIds, ?_⟩
  rintro id hid _ hdesired rfl
  obtain ⟨e, he, rfl⟩ := List.mem_map.mp hid
  exact of_decide_eq_true (List.mem_filter.mp he).2 hdesired

theorem serviceId_entries (h : ∀ e ∈ existingById, serviceId values e.2 = some e.1) :
    ∀ e ∈ entries values env existingById, serviceId values e.2 = some e.1 := by
  intro e he
  rcases List.mem_append.mp he with he | he
  · exact h e (List.mem_filter.mp he).1
  · obtain ⟨s, hs, rfl⟩ := List.mem_map.mp he
    rw [serviceId, lookup_merge, id_of_mem_desiredServices s hs, Option.some_or, Option.filter_some,
      values.isHashable_str, if_pos rfl]

/-- The registry that is built of the existing services. -/
def registryOf (values : Values V) (env : Environment) (existingById : List (V × Service V)) :
    Registry V where
  services := (entries values env existingById).map (·.2)
  defaultServiceId := values.str defaultServiceId
  formatDefaults := values.dict formatDefaults
  typeDefaults := values.dict typeDefaults

theorem buildDesiredRegistry_eq (existing : List (Item V)) :
    buildDesiredRegistry values env existing =
      (byId values (existing.filterMap Item.dict?)).map (registryOf values env) := by
  unfold buildDesiredRegistry
  cases byId values (existing.filterMap Item.dict?) with
  | none => rfl
  | some existingById => simp [registryOf, entries, Function.comp_def]

end build

/-! When the registry is left alone. -/

/-- The configuration has each desired service with the values that are checked, and the
defaults. -/
structure Settled (values : Values V) (env : Environment) (c : Config V) : Prop where
  services : ∃ services currentById, c.iterated = some services ∧
    byId values (services.filterMap Item.dict?) = some currentById ∧
    ∀ s ∈ desiredServices values env,
      ∃ service, currentById.lookup (values.str s.1) = some service ∧
        ∀ key ∈ checkKeys, get values s.2 key = get values service key
  formatDefaults : c.formatDefaults.getD values.null = values.dict formatDefaults
  typeDefaults : c.typeDefaults.getD values.null = values.dict typeDefaults
  defaultServiceId : c.defaultServiceId.getD values.null = values.str defaultServiceId

section differs

variable {values env} {currentById : List (V × Service V)}

/-- A service that is not desired is compared with itself. -/
theorem differs_existing (hnodup : (currentById.map (·.1)).Nodup)
    (hids : ∀ e ∈ currentById, serviceId values e.2 = some e.1) :
    ∀ e ∈ currentById, differs values currentById e.2 = false := by
  intro e he
  have hid : get values e.2 "id" = e.1 := by
    obtain ⟨hlookup, -⟩ := Option.filter_eq_some_iff.mp (hids e he)
    rw [get, hlookup, Option.getD_some]
  have hlookup := (Dict.mem_iff_lookup hnodup).mp he
  rw [differs, hid, hlookup]
  simp

theorem differs_merge (existing : Service V) :
    ∀ s ∈ desiredServices values env, differs values currentById (merge s.2 existing) = false ↔
      ∃ service, currentById.lookup (values.str s.1) = some service ∧
        ∀ key ∈ checkKeys, get values s.2 key = get values service key := by
  intro s hs
  have hid : get values (merge s.2 existing) "id" = values.str s.1 := by
    rw [get_merge values (by decide), get, id_of_mem_desiredServices s hs, Option.getD_some]
  rw [differs, hid]
  cases currentById.lookup (values.str s.1) with
  | none => simp
  | some service =>
    simp only [Option.some.injEq, exists_eq_left', List.any_eq_false, decide_eq_true_eq, not_not]
    exact forall₂_congr fun key hkey => by rw [get_merge values (checkKeys_notMem key hkey)]

end differs

section settled

variable {values env} {c : Config V} {r : Registry V}

omit [DecidableEq V] in
theorem iterated_eq_existing {services : List (Item V)} (h : c.iterated = some services) :
    c.existing = services := by
  rw [Config.iterated] at h
  rw [Config.existing]
  split at h
  case h_1 hmissing =>
    cases h
    rw [hmissing]
    rfl
  case h_2 hservices =>
    rw [hservices, h]
    rfl

/-- The comparisons, one by one. -/
theorem needsUpdate_registryOf {services : List (Item V)} (hservices : c.iterated = some services)
    {existingById : List (V × Service V)}
    (hbyId : byId values (services.filterMap Item.dict?) = some existingById) :
    registryNeedsUpdate values c (registryOf values env existingById) = some false ↔
      (entries values env existingById).map (·.1) ⊆ existingById.map (·.1) ∧
        c.formatDefaults.getD values.null = values.dict formatDefaults ∧
        c.typeDefaults.getD values.null = values.dict typeDefaults ∧
        c.defaultServiceId.getD values.null = values.str defaultServiceId ∧
        ∀ e ∈ entries values env existingById, differs values existingById e.2 = false := by
  have hids := serviceIds_map_snd (@serviceId_entries _ _ _ env _ (byId_eq_some hbyId).2)
  have hany : (registryOf values env existingById).services.any (differs values existingById) =
      false ↔ ∀ e ∈ entries values env existingById, differs values existingById e.2 = false := by
    simp [registryOf]
  rw [registryNeedsUpdate, hservices, Option.bind_eq_bind, Option.bind_some, hbyId,
    Option.bind_eq_bind, Option.bind_some, registryOf, hids, Option.bind_eq_bind, Option.bind_some]
  split_ifs <;> simp_all

theorem needsUpdate_eq_false_iff (h : buildDesiredRegistry values env c.existing = some r) :
    registryNeedsUpdate values c r = some false ↔ Settled values env c := by
  rw [buildDesiredRegistry_eq] at h
  obtain ⟨existingById, hbyId, rfl⟩ := Option.map_eq_some_iff.mp h
  obtain ⟨hnodup, hids⟩ := byId_eq_some hbyId
  constructor
  · intro hfalse
    obtain ⟨services, hservices, -⟩ := Option.bind_eq_some_iff.mp hfalse
    rw [iterated_eq_existing hservices] at hbyId
    obtain ⟨-, hformat, htype, hdefault, hdiffers⟩ :=
      (needsUpdate_registryOf hservices hbyId).mp hfalse
    refine ⟨⟨services, existingById, hservices, hbyId, fun s hs => ?_⟩, hformat, htype, hdefault⟩
    exact (differs_merge _ s hs).mp
      (hdiffers _ (List.mem_append_right _ (List.mem_map_of_mem hs)))
  · rintro ⟨⟨services, currentById, hservices, hcurrent, hdesired⟩, hformat, htype, hdefault⟩
    rw [iterated_eq_existing hservices, hcurrent, Option.some.injEq] at hbyId
    subst hbyId
    refine (needsUpdate_registryOf hservices hcurrent).mpr
      ⟨?subset, hformat, htype, hdefault, fun e he => ?differs⟩
    case subset =>
      rw [map_fst_entries]
      have hkept := List.map_subset (·.1) (List.filter_subset_self
        (p := (·.1 ∉ desiredIds values env)) currentById)
      refine List.append_subset.mpr ⟨hkept, fun id hid => ?_⟩
      obtain ⟨s, hs, rfl⟩ := List.mem_map.mp hid
      obtain ⟨service, hservice, -⟩ := hdesired s hs
      exact List.mem_map_of_mem (Dict.mem_of_lookup hservice)
    case differs =>
      rcases List.mem_append.mp he with he | he
      · exact differs_existing hnodup hids e (List.mem_filter.mp he).1
      · obtain ⟨s, hs, rfl⟩ := List.mem_map.mp he
        exact (differs_merge _ s hs).mpr (hdesired s hs)

end settled

/-! Several runs. -/

/-- A service as it is served: the gateway may add to it. -/
structure Serves (values : Values V) (s served : Service V) : Prop where
  id : served.lookup "id" = s.lookup "id"
  checked : ∀ key ∈ checkKeys, get values served key = get values s key

/-- The gateway serves what has been written to it. -/
structure Keeps (values : Values V) (store : Option (Config V) → Registry V → Config V) :
    Prop where
  services : ∀ c r, ∃ services, (store c r).services = some (some (services.map .dict)) ∧
    List.Forall₂ (Serves values) r.services services
  defaultServiceId : ∀ c r, (store c r).defaultServiceId = some r.defaultServiceId
  formatDefaults : ∀ c r, (store c r).formatDefaults = some r.formatDefaults
  typeDefaults : ∀ c r, (store c r).typeDefaults = some r.typeDefaults

/-- Every service that is not desired is as it was, and the desired ones keep what they have got at
run time. -/
structure Merged (values : Values V) (env : Environment)
    (existingById mergedById : List (V × Service V)) : Prop where
  existing : ∀ id ∉ desiredIds values env, mergedById.lookup id = existingById.lookup id
  desired : ∀ s ∈ desiredServices values env,
    ∃ service, mergedById.lookup (values.str s.1) = some service ∧
      ∀ key, service.lookup key = (s.2.lookup key).or
        (if key ∈ runtimeKeys then
          ((existingById.lookup (values.str s.1)).getD []).lookup key else none)

section runs

variable {values env store} {existingById : List (V × Service V)}

theorem merged_entries (hnodup : (existingById.map (·.1)).Nodup) :
    Merged values env existingById (entries values env existingById) := by
  have hentries : ((entries values env existingById).map (·.1)).Nodup := nodup_entries hnodup
  constructor
  case existing =>
    intro id hid
    have hdesired (s : Service V) : (id, s) ∉ (desiredServices values env).map fun s =>
        (values.str s.1, merge s.2 ((existingById.lookup (values.str s.1)).getD [])) := by
      intro hmem
      obtain ⟨s, hs, heq⟩ := List.mem_map.mp hmem
      obtain ⟨rfl, -⟩ := Prod.mk.inj heq
      exact hid (List.mem_map_of_mem hs)
    refine Option.ext fun s => ?_
    rw [← Dict.mem_iff_lookup hentries, ← Dict.mem_iff_lookup hnodup, entries, List.mem_append,
      or_iff_left (hdesired s), List.mem_filter]
    exact and_iff_left (decide_eq_true hid)
  case desired =>
    intro s hs
    refine ⟨_, (Dict.mem_iff_lookup hentries).mp
      (List.mem_append_right _ (List.mem_map_of_mem hs)), fun key => ?_⟩
    exact lookup_merge _ _ _

omit [DecidableEq V] in
/-- The served services by the identifiers of those that were written. -/
theorem exists_served {entries : List (V × Service V)} {services : List (Service V)}
    (h : List.Forall₂ (Serves values) (entries.map (·.2)) services) :
    ∃ served : List (V × Service V), services = served.map (·.2) ∧
      served.map (·.1) = entries.map (·.1) ∧
      ∀ e' ∈ served, ∃ e ∈ entries, e.1 = e'.1 ∧ Serves values e.2 e'.2 := by
  induction entries generalizing services with
  | nil =>
    cases h
    exact ⟨[], rfl, rfl, by simp⟩
  | cons e entries ih =>
    obtain ⟨s, services, hs, hrest, rfl⟩ := List.forall₂_cons_left_iff.mp h
    obtain ⟨served, rfl, hkeys, hserved⟩ := ih hrest
    refine ⟨(e.1, s) :: served, rfl, congrArg (e.1 :: ·) hkeys, ?_⟩
    refine List.forall_mem_cons.mpr ⟨⟨e, List.mem_cons_self, rfl, hs⟩, fun e' he' => ?_⟩
    obtain ⟨e, he, hserves⟩ := hserved e' he'
    exact ⟨e, List.mem_cons_of_mem _ he, hserves⟩

/-- What is served of a registry that has been written needs no update. -/
theorem settled_store (hkeeps : Keeps values store) (hnodup : (existingById.map (·.1)).Nodup)
    (hids : ∀ e ∈ existingById, serviceId values e.2 = some e.1) (c : Option (Config V)) :
    Settled values env (store c (registryOf values env existingById)) := by
  obtain ⟨services, hservices, hserves⟩ := hkeeps.services c (registryOf values env existingById)
  obtain ⟨served, rfl, hkeys, hserved⟩ := exists_served hserves
  have hentries : ((entries values env existingById).map (·.1)).Nodup := nodup_entries hnodup
  have hnodupServed : (served.map (·.1)).Nodup := hkeys ▸ hentries
  have hserviceIds (e' : V × Service V) (he' : e' ∈ served) :
      serviceId values e'.2 = some e'.1 := by
    obtain ⟨e, he, hkey, hserves⟩ := hserved e' he'
    rw [serviceId, hserves.id, ← hkey]
    exact serviceId_entries hids e he
  have hbyId : byId values (((served.map (·.2)).map Item.dict).filterMap Item.dict?) =
      some served := by
    have hitems : ((served.map (·.2)).map Item.dict).filterMap Item.dict? = served.map (·.2) := by
      rw [List.filterMap_map]
      exact List.filterMap_some
    rw [hitems]
    exact byId_map_snd hnodupServed hserviceIds
  refine ⟨⟨_, served, ?_, hbyId, fun s hs => ?_⟩, ?_, ?_, ?_⟩
  · rw [Config.iterated, hservices]
  · have hmem := List.mem_append_right
      (existingById.filter (·.1 ∉ desiredIds values env)) (List.mem_map_of_mem
        (f := fun s => (values.str s.1,
          merge s.2 ((existingById.lookup (values.str s.1)).getD []))) hs)
    obtain ⟨⟨id, service⟩, he', rfl⟩ := List.mem_map.mp (hkeys ▸ List.mem_map_of_mem hmem)
    obtain ⟨e, he, hkey, hserves⟩ := hserved _ he'
    obtain rfl := List.inj_on_of_nodup_map hentries he hmem hkey
    refine ⟨service, (Dict.mem_iff_lookup hnodupServed).mp he', fun key hkey => ?_⟩
    rw [hserves.checked key hkey, get_merge values (checkKeys_notMem key hkey)]
  · rw [hkeeps.formatDefaults]
    rfl
  · rw [hkeeps.typeDefaults]
    rfl
  · rw [hkeeps.defaultServiceId]
    rfl

theorem update_cases (g : Gateway V) (run : Run) (desired : Registry V) :
    (g.update values store run desired).1 = g ∨
      (g.update values store run desired).1 = g.write store desired := by
  unfold Gateway.update
  split
  case h_3 =>
    split
    · exact .inl rfl
    · split <;> simp
  all_goals exact .inl rfl

/-- A run leaves everything as it is, or writes the registry that is built of what it has read. -/
theorem seed_cases (g : Gateway V) (run : Run) : (seed values env store g run).1 = g ∨
    ∃ existingById,
      byId values (g.current.existing.filterMap Item.dict?) = some existingById ∧
        (seed values env store g run).1 = g.write store (registryOf values env existingById) := by
  unfold seed
  split
  case isFalse => exact .inl rfl
  case isTrue =>
    rw [buildDesiredRegistry_eq]
    cases hbyId : byId values (g.current.existing.filterMap Item.dict?) with
    | none => exact .inl rfl
    | some existingById =>
      rcases update_cases g run (registryOf values env existingById) with h | h
      · exact .inl h
      · exact .inr ⟨existingById, rfl, h⟩

theorem seed_of_settled {g : Gateway V} (h : Settled values env g.current) (run : Run) :
    (seed values env store g run).1 = g := by
  obtain ⟨services, currentById, hservices, hbyId, -⟩ := h.services
  have hbuild : buildDesiredRegistry values env g.current.existing =
      some (registryOf values env currentById) := by
    rw [buildDesiredRegistry_eq, iterated_eq_existing hservices, hbyId, Option.map_some]
  have hupdate := (needsUpdate_eq_false_iff hbuild).mpr h
  unfold seed
  split
  case isFalse => rfl
  case isTrue =>
    rw [hbuild]
    dsimp only
    rw [Gateway.update, hupdate]

/-- However often the script runs, dry or not, with requests that fail and answers that are lost,
the registry is written once at most: with every other service as it was, the desired ones over
what they have got at run time, and nothing left to update. -/
theorem seeds_converge (hkeeps : Keeps values store) (config : Option (Config V))
    (runs : List Run) :
    let g := seeds values env store { config } runs
    (g.written = [] ∧ g.config = config) ∨ ∃ existingById mergedById r,
      byId values ((config.getD {}).existing.filterMap Item.dict?) = some existingById ∧
      byId values r.services = some mergedById ∧ Merged values env existingById mergedById ∧
      g.written = [r] ∧ g.config = some (store config r) ∧
      Settled values env (store config r) := by
  have hinv : seeds values env store { config } runs = { config } ∨ ∃ existingById,
      byId values ((config.getD {}).existing.filterMap Item.dict?) = some existingById ∧
      seeds values env store { config } runs =
        Gateway.write store { config } (registryOf values env existingById) := by
    induction runs using List.reverseRecOn with
    | nil => exact .inl rfl
    | append_singleton runs run ih =>
      have hstep : seeds values env store { config } (runs ++ [run]) =
          (seed values env store (seeds values env store { config } runs) run).1 :=
        List.foldl_append ..
      rw [hstep]
      rcases ih with ih | ⟨existingById, hbyId, ih⟩
      · rw [ih]
        exact seed_cases _ run
      · obtain ⟨hnodup, hids⟩ := byId_eq_some hbyId
        rw [ih, seed_of_settled (settled_store hkeeps hnodup hids config)]
        exact .inr ⟨existingById, hbyId, rfl⟩
  rcases hinv with h | ⟨existingById, hbyId, h⟩
  · left
    simp only [h, and_self]
  · right
    obtain ⟨hnodup, hids⟩ := byId_eq_some hbyId
    simp only [h]
    exact ⟨existingById, entries values env existingById, registryOf values env existingById, hbyId,
      byId_map_snd (nodup_entries hnodup) (serviceId_entries hids), merged_entries hnodup, rfl, rfl,
      settled_store hkeeps hnodup hids config⟩

end runs

/-- Enough values for the script. -/
inductive Plain
  | null
  | str (s : String)
  | strs (items : List String)
  | dict (entries : List (String × String))
  deriving DecidableEq

def plain : Values Plain where
  null := .null
  str := .str
  strs := .strs
  dict := .dict
  isHashable
    | .strs _ | .dict _ => false
    | _ => true
  str_injective _ _ h := Plain.str.inj h
  isHashable_str _ := rfl

/-- A gateway that serves what it has last been sent. -/
def sent (_ : Option (Config Plain)) (r : Registry Plain) : Config Plain where
  services := some (some (r.services.map .dict))
  defaultServiceId := some r.defaultServiceId
  formatDefaults := some r.formatDefaults
  typeDefaults := some r.typeDefaults

theorem keeps_sent : Keeps plain sent where
  services _ r := ⟨r.services, rfl, List.forall₂_same.mpr fun _ _ => ⟨rfl, fun _ _ => rfl⟩⟩
  defaultServiceId _ _ := rfl
  formatDefaults _ _ := rfl
  typeDefaults _ _ := rfl

theorem seeds_converge_lost : (seeds plain {} sent {}
    [{ dryRun := true }, { patch := .lost }, { answered := false }, {}]).written.length ≤ 1 := by
  rcases @seeds_converge _ _ plain {} sent keeps_sent none
    [{ dryRun := true }, { patch := .lost }, { answered := false }, {}]
    with ⟨hwritten, -⟩ | ⟨-, -, r, -, -, -, hwritten, -⟩
  all_goals exact Nat.le_trans (Nat.le_of_eq (congrArg List.length hwritten)) (by simp)

end Marty.Scripts.SeedCatalog
