import Marty.Lib.Datetime
import Marty.Lib.Declarative
import Marty.Lib.Object

/-! `OidcSessionRepository`: the metadata of an offer is passed to the constructor under a name that
is an attribute of the base class, and is no column. -/

namespace Marty.Infrastructure.OidcSessions

open Lib Lib.Datetime Lib.Declarative Lib.Python

inductive Value
  | object (o : Object)
  | datetime (d : Stamp)

abbrev Row := List (String × Value)

def extraMetadata : Column := ⟨"extra_metadata", true⟩

def oidc4VciSessionRecord : Mapping where
  columns := [⟨"id", false⟩, ⟨"offer_id", false⟩, ⟨"subject_id", false⟩, ⟨"credential_type", false⟩,
    ⟨"status", false⟩, ⟨"offer_payload", true⟩, ⟨"base_claims", false⟩,
    ⟨"selective_disclosures", false⟩, ⟨"pre_authorized_code_hash", false⟩,
    ⟨"pre_authorized_code_expires_at", false⟩, ⟨"access_token_hash", true⟩,
    ⟨"access_token_expires_at", true⟩, ⟨"nonce", true⟩, extraMetadata,
    ⟨"wallet_attestation", true⟩, ⟨"created_at", false⟩, ⟨"updated_at", false⟩]
  attributes := ["metadata", "registry", "__table__", "__tablename__", "__mapper__"]
  nodup := by decide

/-- The defaults of the columns, with the number that the database gives. -/
def defaults (id : Int) (now : Time) : List (String × Value) :=
  [("id", .object (.int id)), ("status", .object (.str "OFFER_CREATED")),
    ("created_at", .datetime (.utc now)), ("updated_at", .datetime (.utc now))]

/-- The arguments of `create_offer`. -/
structure Offer where
  offerId : String
  subjectId : String
  credentialType : String
  baseClaims : Entries
  selectiveDisclosures : Entries
  offerPayload : Entries
  preAuthorizedCode : String
  expiresAt : Stamp
  metadata : Option Entries

/-- The arguments of `attach_access_token`, and the time it reads. -/
structure Token where
  accessToken : String
  expiresAt : Stamp
  nonce : String
  walletAttestation : Option Entries
  now : Time

def internalKey : Key := .str "_internal"

def codeKey : Key := .str "pre_authorized_code"

/-- `dict(metadata_payload.get("_internal", {}))` -/
def internalDetails (payload : Entries) : Option Entries :=
  ((payload.lookup internalKey).getD (.dict [])).toDict

/-- The metadata that `create_offer` passes on. -/
def metadataPayload (metadata : Option Entries) (preAuthorizedCode : String) : Option Entries :=
  let payload := metadata.getD []
  (internalDetails payload).map fun details =>
    Dict.set internalKey (.dict (Dict.set codeKey (.str preAuthorizedCode) details)) payload

/-- `digest` is `_token_digest`. -/
def createOffer (digest : String → String) (o : Offer) : Option (Instance Value) :=
  (metadataPayload o.metadata o.preAuthorizedCode).bind fun payload =>
    oidc4VciSessionRecord.construct
      [("offer_id", .object (.str o.offerId)), ("subject_id", .object (.str o.subjectId)),
        ("credential_type", .object (.str o.credentialType)),
        ("base_claims", .object (.dict o.baseClaims)),
        ("selective_disclosures", .object (.dict o.selectiveDisclosures)),
        ("offer_payload", .object (.dict o.offerPayload)),
        ("pre_authorized_code_hash", .object (.str (digest o.preAuthorizedCode))),
        ("pre_authorized_code_expires_at", .datetime o.expiresAt),
        ("metadata", .object (.dict payload))]

/-- The metadata without the code, where it has one that is not `None`. -/
def popCode (payload : Entries) : Option (Option Entries) :=
  (internalDetails payload).map fun details =>
    match details.lookup codeKey with
    | none | some .none => none
    | some _ =>
      some (Dict.set internalKey (.dict (Dict.delete codeKey details)) payload)

/-- The part of `attach_access_token` about the metadata. -/
def removeCode (x : Instance Value) : Option (Instance Value) :=
  match x.get? extraMetadata.name with
  | none | some (.object .none) => some x
  | some (.datetime _) => none
  | some (.object value) =>
    (value.toDict.bind popCode).map fun
      | none => x
      | some payload => x.set extraMetadata.name (.object (.dict payload))

def attachAccessToken (digest : String → String) (x : Instance Value) (t : Token) :
    Option (Instance Value) :=
  let x := x.set "access_token_hash" (.object (.str (digest t.accessToken)))
  let x := x.set "access_token_expires_at" (.datetime t.expiresAt)
  let x := x.set "nonce" (.object (.str t.nonce))
  let x := x.set "wallet_attestation" (.object ((t.walletAttestation.map .dict).getD .none))
  let x := x.set "status" (.object (.str "TOKEN_ISSUED"))
  (removeCode x).map (·.set "updated_at" (.datetime (.utc t.now)))

/-! The rows after a commit. -/

section

variable (stored : String → Value → Option Value) (digest : String → String)

def offered (id : Int) (now : Time) (o : Offer) : Option Row :=
  (createOffer digest o).bind
    (oidc4VciSessionRecord.flush stored (defaults id now) (.object .none))

def attached (row : Row) (t : Token) : Option Row :=
  (attachAccessToken digest { loaded := row } t).bind
    (oidc4VciSessionRecord.flush stored [] (.object .none))

/-- The metadata that a row has. -/
def metadataOf (row : Row) : Option Entries :=
  match row.lookup extraMetadata.name with
  | some (.object (.dict payload)) => some payload
  | _ => none

/-- The entries under `_internal`. -/
def internalOf (payload : Entries) : Entries :=
  match payload.lookup internalKey with
  | some (.dict details) => details
  | _ => []

/-- The two differ in the code under `_internal` at most. -/
def SameElsewhere (payload payload' : Entries) : Prop :=
  (∀ key ≠ internalKey, payload'.lookup key = payload.lookup key) ∧
    ∀ key ≠ codeKey, (internalOf payload').lookup key = (internalOf payload).lookup key

/-- The session has the given metadata with the code while the offer stands, and without it when
the token is attached. -/
def KeepsMetadata (id : Int) (now : Time) (o : Offer) (t : Token) : Prop :=
  ∃ row payload row' payload',
    offered stored digest id now o = some row ∧ metadataOf row = some payload ∧
    SameElsewhere (o.metadata.getD []) payload ∧
    (internalOf payload).lookup codeKey = some (.str o.preAuthorizedCode) ∧
    attached stored digest row t = some row' ∧ metadataOf row' = some payload' ∧
    SameElsewhere payload payload' ∧ (internalOf payload').lookup codeKey = none

variable {stored digest} {n : Int} {now : Time} {o : Offer} {t : Token} {x x' : Instance Value}
  {row row' : Row} {payload payload' : Entries}

theorem extraMetadata_mem : extraMetadata ∈ oidc4VciSessionRecord.columns := by decide

/-- The constructor is not given the column. -/
theorem createOffer_extraMetadata (h : createOffer digest o = some x) :
    x.get? extraMetadata.name = none := by
  obtain ⟨payload, -, h⟩ := Option.bind_eq_some_iff.mp h
  obtain ⟨-, h⟩ := Option.ite_none_right_eq_some.mp h
  obtain rfl := Option.some.inj h
  rfl

theorem offered_extraMetadata (h : offered stored digest n now o = some row) :
    row.lookup extraMetadata.name = some (.object .none) := by
  obtain ⟨x, hx, h⟩ := Option.bind_eq_some_iff.mp h
  exact Mapping.lookup_flush_null h extraMetadata_mem (createOffer_extraMetadata hx) rfl rfl

theorem metadataOf_offered (h : offered stored digest n now o = some row) :
    metadataOf row = none := by
  rw [metadataOf, offered_extraMetadata h]

/-- The metadata of an offer is lost. -/
theorem not_keepsMetadata (stored : String → Value → Option Value) (digest : String → String)
    (id : Int) (now : Time) (o : Offer) (t : Token) :
    ¬ KeepsMetadata stored digest id now o t := by
  rintro ⟨row, payload, -, -, hrow, hpayload, -⟩
  cases (metadataOf_offered hrow).symm.trans hpayload

/-- An offer with the code "c". -/
def qrOffer : Offer where
  offerId := "o"
  subjectId := "s"
  credentialType := "t"
  baseClaims := []
  selectiveDisclosures := []
  offerPayload := []
  preAuthorizedCode := "c"
  expiresAt := .utc (hours 1)
  metadata := some [(.str "channel", .str "qr")]

def walletToken : Token where
  accessToken := "a"
  expiresAt := .utc (hours 1)
  nonce := "n"
  walletAttestation := none
  now := 0

theorem qrOffer_lost :
    (offered (fun _ => some) id 1 0 qrOffer).bind (·.lookup "extra_metadata") =
        some (.object .none) ∧
      ¬ KeepsMetadata (fun _ => some) id 1 0 qrOffer walletToken := by
  refine ⟨rfl, ?_⟩
  rintro ⟨row, payload, -, -, hrow, hpayload, -⟩
  cases (metadataOf_offered hrow).symm.trans hpayload

/-! What the two operations do with the metadata, wherever it is. -/

theorem internalOf_set (details payload : Entries) :
    internalOf (Dict.set internalKey (.dict details) payload) = details := by
  rw [internalOf, Dict.lookup_set_self]

theorem internalDetails_eq (h : ∀ value, payload.lookup internalKey = some value →
    ∃ details, value = .dict details) : internalDetails payload = some (internalOf payload) := by
  unfold internalDetails internalOf
  cases hvalue : payload.lookup internalKey with
  | none => rfl
  | some value =>
    obtain ⟨details, rfl⟩ := h value hvalue
    rfl

/-- The entries under `_internal` are replaced by ones that differ from them in the code at most. -/
theorem sameElsewhere_set {details : Entries}
    (h : ∀ key ≠ codeKey, details.lookup key = (internalOf payload).lookup key) :
    SameElsewhere payload (Dict.set internalKey (.dict details) payload) := by
  refine ⟨fun key hkey => Dict.lookup_set_of_ne hkey _ _, ?_⟩
  rwa [internalOf_set]

theorem metadataPayload_spec {metadata : Option Entries} {code : String}
    (h : metadataPayload metadata code = some payload)
    (hinternal : ∀ value, (metadata.getD []).lookup internalKey = some value →
      ∃ details, value = .dict details) :
    SameElsewhere (metadata.getD []) payload ∧
      (internalOf payload).lookup codeKey = some (.str code) := by
  obtain ⟨details, hdetails, rfl⟩ := Option.map_eq_some_iff.mp h
  obtain rfl := Option.some.inj ((internalDetails_eq hinternal).symm.trans hdetails)
  constructor
  · exact sameElsewhere_set fun key hkey => Dict.lookup_set_of_ne hkey _ _
  · rw [internalOf_set, Dict.lookup_set_self]

theorem popCode_spec {code : String}
    (hcode : (internalOf payload).lookup codeKey = some (.str code)) :
    ∃ payload', popCode payload = some (some payload') ∧ SameElsewhere payload payload' ∧
      (internalOf payload').lookup codeKey = none := by
  have hdetails : internalDetails payload = some (internalOf payload) := by
    refine internalDetails_eq fun value hvalue => ?_
    unfold internalOf at hcode
    split at hcode
    case h_1 details heq => exact ⟨details, Option.some.inj (hvalue.symm.trans heq)⟩
    case h_2 => cases hcode
  refine ⟨Dict.set internalKey (.dict (Dict.delete codeKey (internalOf payload))) payload, ?_, ?_,
    ?_⟩
  · rw [popCode, hdetails, Option.map_some, hcode]
  · exact sameElsewhere_set fun key hkey => Dict.lookup_delete_of_ne hkey _
  · rw [internalOf_set, Dict.lookup_delete_self]

theorem removeCode_spec {code : String}
    (hget : x.get? extraMetadata.name = some (.object (.dict payload)))
    (hcode : (internalOf payload).lookup codeKey = some (.str code)) :
    ∃ payload', removeCode x = some (x.set extraMetadata.name (.object (.dict payload'))) ∧
      SameElsewhere payload payload' ∧ (internalOf payload').lookup codeKey = none := by
  obtain ⟨payload', hpop, hspec⟩ := popCode_spec hcode
  refine ⟨payload', ?_, hspec⟩
  have hdict : (Object.dict payload).toDict = some payload := rfl
  rw [removeCode, hget]
  simp only [hdict, Option.bind_some, hpop, Option.map_some]

theorem metadataOf_eq_some :
    metadataOf row = some payload ↔
      row.lookup extraMetadata.name = some (.object (.dict payload)) := by
  unfold metadataOf
  split
  case h_1 payload' heq => simp [heq]
  case h_2 hnot => exact iff_of_false nofun (hnot payload)

/-- The other attributes that are set leave the metadata alone. -/
theorem attachAccessToken_spec (h : attachAccessToken digest x t = some x') :
    ∃ before after, before.get? extraMetadata.name = x.get? extraMetadata.name ∧
      removeCode before = some after ∧
      x'.assigned.lookup extraMetadata.name = after.assigned.lookup extraMetadata.name := by
  obtain ⟨after, hremove, rfl⟩ := Option.map_eq_some_iff.mp h
  refine ⟨_, after, ?_, hremove, Dict.lookup_set_of_ne (by decide) _ _⟩
  iterate 5 rw [Instance.get?_set_of_ne (by decide)]

/-- A session that has the code loses it with the token, and nothing else. -/
theorem attached_metadata {code : String} (hrow : metadataOf row = some payload)
    (hcode : (internalOf payload).lookup codeKey = some (.str code))
    (hstored : ∀ value, stored extraMetadata.name value = some value)
    (h : attached stored digest row t = some row') :
    ∃ payload', metadataOf row' = some payload' ∧ SameElsewhere payload payload' ∧
      (internalOf payload').lookup codeKey = none := by
  obtain ⟨x, hx, hflush⟩ := Option.bind_eq_some_iff.mp h
  obtain ⟨before, after, hbefore, hremove, hassigned⟩ := attachAccessToken_spec hx
  have hget : before.get? extraMetadata.name = some (.object (.dict payload)) :=
    hbefore.trans (metadataOf_eq_some.mp hrow)
  obtain ⟨payload', hremove', hspec⟩ := removeCode_spec hget hcode
  obtain rfl := Option.some.inj (hremove'.symm.trans hremove)
  refine ⟨payload', metadataOf_eq_some.mpr ?_, hspec⟩
  have hset : x.assigned.lookup extraMetadata.name = some (.object (.dict payload')) :=
    hassigned.trans (Dict.lookup_set_self _ _ _)
  rw [Mapping.lookup_flush_assigned hflush extraMetadata_mem hset, hstored]

end

end Marty.Infrastructure.OidcSessions
