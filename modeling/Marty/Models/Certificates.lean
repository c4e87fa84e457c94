import Marty.Models.CrewCertificate
import Marty.Models.X509Name

/-! `to_dict` and `from_dict` of certificates, revocation lists and CSCA master lists.  A value of
another type than its field's is refused. -/

namespace Marty.Models.Certificates

open Lib Lib.Fields Lib.Isoformat Lib.JsonText Lib.Uuid
open Documents (StrEnum asStrEnum asUuid optStr getField_optStr)
open CrewCertificate (asBool)

variable {F : Type}

inductive SignatureAlgorithm
  | sha1WithRsa | sha256WithRsa | sha384WithRsa | sha512WithRsa
  | sha256WithEcdsa | sha384WithEcdsa | sha512WithEcdsa
  deriving DecidableEq

instance : StrEnum SignatureAlgorithm where
  value
    | .sha1WithRsa => "SHA1withRSA"
    | .sha256WithRsa => "SHA256withRSA"
    | .sha384WithRsa => "SHA384withRSA"
    | .sha512WithRsa => "SHA512withRSA"
    | .sha256WithEcdsa => "SHA256withECDSA"
    | .sha384WithEcdsa => "SHA384withECDSA"
    | .sha512WithEcdsa => "SHA512withECDSA"
  members := [.sha1WithRsa, .sha256WithRsa, .sha384WithRsa, .sha512WithRsa, .sha256WithEcdsa,
    .sha384WithEcdsa, .sha512WithEcdsa]
  member_value a := by cases a <;> decide +kernel

inductive KeyUsage
  | digitalSignature | nonRepudiation | keyEncipherment | dataEncipherment | keyAgreement
  | keyCertSign | crlSign | encipherOnly | decipherOnly
  deriving DecidableEq

instance : StrEnum KeyUsage where
  value
    | .digitalSignature => "digitalSignature"
    | .nonRepudiation => "nonRepudiation"
    | .keyEncipherment => "keyEncipherment"
    | .dataEncipherment => "dataEncipherment"
    | .keyAgreement => "keyAgreement"
    | .keyCertSign => "keyCertSign"
    | .crlSign => "cRLSign"
    | .encipherOnly => "encipherOnly"
    | .decipherOnly => "decipherOnly"
  members := [.digitalSignature, .nonRepudiation, .keyEncipherment, .dataEncipherment,
    .keyAgreement, .keyCertSign, .crlSign, .encipherOnly, .decipherOnly]
  member_value a := by cases a <;> decide +kernel

inductive CertificateType
  | csca | documentSigner | masterListSigner | crlSigner | terminal
  deriving DecidableEq

instance : StrEnum CertificateType where
  value
    | .csca => "CSCA"
    | .documentSigner => "DS"
    | .masterListSigner => "MLS"
    | .crlSigner => "CRL"
    | .terminal => "TERMINAL"
  members := [.csca, .documentSigner, .masterListSigner, .crlSigner, .terminal]
  member_value a := by cases a <;> decide +kernel

def asDatetime (v : Value F) : Option Datetime := (asStr v).bind fromisoformat

@[simp] theorem asDatetime_isoformat (d : Datetime) :
    asDatetime (F := F) (.str d.isoformat) = some d := by
  rw [asDatetime, asStr_str, Option.bind_some, fromisoformat_isoformat]

/-- `not_before <= now <= not_after`, which raises for a clock that cannot be compared. -/
def between (first now last : Datetime) : Option Bool := do
  let early ← now.lt? first
  if early then some false else (last.lt? now).map (!·)

/-! Names. -/

/-- The attributes that are written when they are not empty. -/
def attributes (n : X509Name) : List (String × Option String) := [
  ("OU", Text.truthy n.organizationalUnit), ("CN", Text.truthy n.commonName),
  ("ST", Text.truthy n.stateOrProvince), ("L", Text.truthy n.locality),
  ("E", Text.truthy n.email)]

/-- `X509Name.to_dict` -/
def nameDict (n : X509Name) : List (String × String) :=
  ("C", n.country) :: ("O", n.organization) :: entries (attributes n)

def nameValue (n : X509Name) : Value F := .obj ((nameDict n).map fun e => (e.1, .str e.2))

/-- `X509Name.from_dict`, of an object. -/
def asName (v : Value F) : Option X509Name :=
  (asEntries v).bind fun data =>
    (data.mapM fun e => (asStr e.2).map fun s => (e.1, s)).map X509Name.fromDict

/-- The name as its dictionary has it. -/
def readName (n : X509Name) : X509Name :=
  { n with
    organizationalUnit := Text.truthy n.organizationalUnit
    commonName := Text.truthy n.commonName
    stateOrProvince := Text.truthy n.stateOrProvince
    locality := Text.truthy n.locality
    email := Text.truthy n.email }

/-- No optional attribute is empty. -/
abbrev NameKept (n : X509Name) : Prop :=
  n.organizationalUnit ≠ some "" ∧ n.commonName ≠ some "" ∧ n.stateOrProvince ≠ some "" ∧
    n.locality ≠ some "" ∧ n.email ≠ some ""

theorem truthy_eq_self {s : Option String} : Text.truthy s = s ↔ s ≠ some "" := by
  refine ⟨fun h heq => ?_, truthy_eq⟩
  subst heq
  cases h

theorem truthy_truthy (s : Option String) : Text.truthy (Text.truthy s) = Text.truthy s :=
  truthy_eq_self.mpr fun h => (Text.truthy_eq_some.mp h).2 rfl

theorem readName_eq_self {n : X509Name} : readName n = n ↔ NameKept n := by
  obtain ⟨country, organization, unit, commonName, stateOrProvince, locality, email⟩ := n
  simp only [readName, X509Name.mk.injEq, true_and, truthy_eq_self, NameKept]

theorem nameDict_readName (n : X509Name) : nameDict (readName n) = nameDict n := by
  simp only [nameDict, attributes, readName, truthy_truthy]

theorem asName_nameValue (n : X509Name) : asName (F := F) (nameValue n) = some (readName n) := by
  have hread : ((nameDict n).map fun e => (e.1, Value.str (F := F) e.2)).mapM
      (fun e => (asStr e.2).map fun s => (e.1, s)) = some (nameDict n) := by
    induction nameDict n with
    | nil => rfl
    | cons e data ih => simp [ih]
  rw [asName, nameValue, asEntries_obj, Option.bind_some, hread]
  simp [X509Name.fromDict, nameDict, attributes, readName, List.lookup_cons, lookup_entries_cons,
    lookup_entries_nil]

/-! Certificates. -/

structure X509Extension (F : Type) where
  oid : String
  critical : Bool := false
  value : Value F := .null

def X509Extension.toDict (e : X509Extension F) : Entries F :=
  entries [("oid", some (.str e.oid)), ("critical", some (.bool e.critical)),
    ("value", notNone e.value)]

def asExtension (v : Value F) : Option (X509Extension F) :=
  (asEntries v).bind fun ext => do
    let oid ← required ext "oid" asStr
    let critical ← ifPresent ext "critical" asBool
    some { oid, critical := critical.getD false, value := (ext.lookup "value").getD .null }

theorem asExtension_toDict (e : X509Extension F) : asExtension (.obj e.toDict) = some e := by
  obtain ⟨oid, critical, value⟩ := e
  simp [asExtension, X509Extension.toDict, required, ifPresent, lookup_entries_cons,
    lookup_entries_nil]

structure Certificate (F : Type) where
  serialNumber : String
  subject : X509Name
  issuer : X509Name
  notBefore : Datetime
  notAfter : Datetime
  publicKey : String
  signatureAlgorithm : SignatureAlgorithm
  signature : String
  certificateType : CertificateType
  keyUsage : List KeyUsage := []
  extensions : List (X509Extension F) := []
  rawData : Option String := none
  id : UUID

namespace Certificate

def toDict (c : Certificate F) : Entries F := [
  ("id", .str c.id.text),
  ("serialNumber", .str c.serialNumber),
  ("subject", nameValue c.subject),
  ("issuer", nameValue c.issuer),
  ("notBefore", .str c.notBefore.isoformat),
  ("notAfter", .str c.notAfter.isoformat),
  ("publicKey", .str c.publicKey),
  ("signatureAlgorithm", .str (StrEnum.value c.signatureAlgorithm)),
  ("signature", .str c.signature),
  ("certificateType", .str (StrEnum.value c.certificateType)),
  ("keyUsage", .arr (c.keyUsage.map fun usage => .str (StrEnum.value usage))),
  ("extensions", .arr (c.extensions.map fun ext => .obj ext.toDict)),
  ("rawData", optStr c.rawData)]

/-- `uuid4` is the id of a certificate that comes without one. -/
def fromDict (uuid4 : UUID) (data : Entries F) : Option (Certificate F) := do
  let id ← ifPresent data "id" asUuid
  let serialNumber ← required data "serialNumber" asStr
  let subject ← required data "subject" asName
  let issuer ← required data "issuer" asName
  let notBefore ← required data "notBefore" asDatetime
  let notAfter ← required data "notAfter" asDatetime
  let publicKey ← required data "publicKey" asStr
  let signatureAlgorithm ← required data "signatureAlgorithm" asStrEnum
  let signature ← required data "signature" asStr
  let certificateType ← required data "certificateType" asStrEnum
  let rawData ← getField data "rawData" asStr
  let keyUsage ← ifPresent data "keyUsage" (asList asStrEnum)
  let extensions ← ifPresent data "extensions" (asList asExtension)
  some {
    id := id.getD uuid4
    serialNumber, subject, issuer, notBefore, notAfter, publicKey, signatureAlgorithm, signature,
    certificateType, rawData
    keyUsage := keyUsage.getD []
    extensions := extensions.getD [] }

/-- `is_valid`; the clock of an aware certificate has to be aware. -/
def isValid (now : Datetime) (c : Certificate F) : Option Bool := between c.notBefore now c.notAfter

def isSelfSigned (c : Certificate F) : Bool :=
  let subject := (nameDict c.subject).map fun e => (Text.lower e.1, e.2)
  let issuer := (nameDict c.issuer).map fun e => (Text.lower e.1, e.2)
  if subject.lookup "c" ≠ issuer.lookup "c" then false
  else if subject.lookup "o" ≠ issuer.lookup "o" then false
  else
    match subject.lookup "cn", issuer.lookup "cn" with
    | some name, some name' => name = name'
    | _, _ => true

/-- The certificate as its dictionary has it. -/
def read (c : Certificate F) : Certificate F :=
  { c with subject := readName c.subject, issuer := readName c.issuer }

theorem fromDict_toDict (uuid4 : UUID) (c : Certificate F) :
    fromDict uuid4 c.toDict = some c.read := by
  have husage : asList (F := F) asStrEnum
      (.arr (c.keyUsage.map fun usage => .str (StrEnum.value usage))) = some c.keyUsage :=
    asList_map fun usage _ => Documents.asStrEnum_value usage
  have hextensions : asList asExtension (.arr (c.extensions.map fun ext => .obj ext.toDict)) =
      some c.extensions := asList_map fun ext _ => asExtension_toDict ext
  have hraw : getField c.toDict "rawData" asStr = some c.rawData := getField_optStr rfl
  rw [fromDict, hraw]
  simp [toDict, required, ifPresent, List.lookup_cons, asName_nameValue, husage, hextensions, read]

theorem toDict_read (c : Certificate F) : c.read.toDict = c.toDict := by
  simp only [toDict, read, nameValue, nameDict_readName]

theorem read_eq_self {c : Certificate F} :
    c.read = c ↔ NameKept c.subject ∧ NameKept c.issuer := by
  obtain ⟨serialNumber, subject, issuer⟩ := c
  simp only [read, mk.injEq, readName_eq_self, true_and, and_true]

theorem isSelfSigned_read (c : Certificate F) : c.read.isSelfSigned = c.isSelfSigned := by
  simp only [isSelfSigned, read, nameDict_readName]

end Certificate

/-! Revocation lists. -/

structure CertificateRevocationList (F : Type) where
  issuer : X509Name
  thisUpdate : Datetime
  nextUpdate : Datetime
  revokedCertificates : List (Entries F) := []
  signatureAlgorithm : Option SignatureAlgorithm := none
  signature : Option String := none
  rawData : Option String := none
  id : UUID

namespace CertificateRevocationList

def toDict (l : CertificateRevocationList F) : Entries F :=
  entries [
    ("id", some (.str l.id.text)),
    ("issuer", some (nameValue l.issuer)),
    ("thisUpdate", some (.str l.thisUpdate.isoformat)),
    ("nextUpdate", some (.str l.nextUpdate.isoformat)),
    ("revokedCertificates", some (.arr (l.revokedCertificates.map .obj))),
    ("signatureAlgorithm", l.signatureAlgorithm.map fun a => .str (StrEnum.value a)),
    ("signature", (Text.truthy l.signature).map .str),
    ("rawData", (Text.truthy l.rawData).map .str)]

def fromDict (uuid4 : UUID) (data : Entries F) : Option (CertificateRevocationList F) := do
  let id ← ifPresent data "id" asUuid
  let issuer ← required data "issuer" asName
  let thisUpdate ← required data "thisUpdate" asDatetime
  let nextUpdate ← required data "nextUpdate" asDatetime
  let revokedCertificates ← ifPresent data "revokedCertificates" (asList asEntries)
  let rawData ← getField data "rawData" asStr
  let signatureAlgorithm ← ifPresent data "signatureAlgorithm" asStrEnum
  let signature ← ifPresent data "signature" asStr
  some {
    id := id.getD uuid4
    issuer, thisUpdate, nextUpdate, rawData, signatureAlgorithm, signature
    revokedCertificates := revokedCertificates.getD [] }

def isCertificateRevoked (serialNumber : String) (l : CertificateRevocationList F) : Bool :=
  l.revokedCertificates.any fun cert =>
    match cert.lookup "serialNumber" with
    | some (.str s) => s = serialNumber
    | _ => false

def isValid (now : Datetime) (l : CertificateRevocationList F) : Option Bool :=
  between l.thisUpdate now l.nextUpdate

def read (l : CertificateRevocationList F) : CertificateRevocationList F :=
  { l with
    issuer := readName l.issuer
    signature := Text.truthy l.signature
    rawData := Text.truthy l.rawData }

theorem fromDict_toDict (uuid4 : UUID) (l : CertificateRevocationList F) :
    fromDict uuid4 l.toDict = some l.read := by
  have hrevoked : asList asEntries (.arr (l.revokedCertificates.map .obj)) =
      some l.revokedCertificates := asList_map fun cert _ => asEntries_obj cert
  have hraw : getField l.toDict "rawData" asStr = some (Text.truthy l.rawData) :=
    getField_str (by simp [toDict, lookup_entries_cons, lookup_entries_nil])
  have halgorithm : ifPresent l.toDict "signatureAlgorithm" asStrEnum =
      some l.signatureAlgorithm :=
    ifPresent_map (fun a => .str (StrEnum.value a))
      (by simp [toDict, lookup_entries_cons, lookup_entries_nil])
      fun a _ => Documents.asStrEnum_value a
  have hsignature : ifPresent l.toDict "signature" asStr = some (Text.truthy l.signature) :=
    ifPresent_map .str (by simp [toDict, lookup_entries_cons, lookup_entries_nil]) fun _ _ => rfl
  rw [fromDict, hraw, halgorithm, hsignature]
  simp [toDict, required, ifPresent, lookup_entries_cons, asName_nameValue, hrevoked, read]

theorem toDict_read (l : CertificateRevocationList F) : l.read.toDict = l.toDict := by
  simp only [toDict, read, nameValue, nameDict_readName, truthy_truthy]

/-- The texts that are written are not empty. -/
abbrev Kept (l : CertificateRevocationList F) : Prop :=
  NameKept l.issuer ∧ l.signature ≠ some "" ∧ l.rawData ≠ some ""

theorem read_eq_self {l : CertificateRevocationList F} : l.read = l ↔ l.Kept := by
  obtain ⟨issuer, thisUpdate, nextUpdate, revoked, algorithm, signature, rawData, id⟩ := l
  simp only [read, mk.injEq, readName_eq_self, truthy_eq_self, true_and, and_true]

/-- A revocation list is read back from its dictionary, whole when the texts that are written are
not empty, and always with the same answers. -/
theorem revocationList_read_back (uuid4 : UUID) (l : CertificateRevocationList F) :
    ∃ l', fromDict uuid4 l.toDict = some l' ∧ (l' = l ↔ l.Kept) ∧ l'.toDict = l.toDict ∧
      (∀ now, l'.isValid now = l.isValid now) ∧
      ∀ serialNumber, l'.isCertificateRevoked serialNumber = l.isCertificateRevoked serialNumber :=
  ⟨l.read, fromDict_toDict uuid4 l, read_eq_self, toDict_read l, fun _ => rfl, fun _ => rfl⟩

end CertificateRevocationList

/-! Master lists. -/

structure CSCAMasterListEntry (F : Type) where
  country : String
  certificate : Certificate F

namespace CSCAMasterListEntry

def toDict (e : CSCAMasterListEntry F) : Entries F :=
  [("country", .str e.country), ("certificate", .obj e.certificate.toDict)]

def fromDict (uuid4 : UUID) (data : Entries F) : Option (CSCAMasterListEntry F) := do
  let country ← required data "country" asStr
  let certificate ← required data "certificate" fun v =>
    (asEntries v).bind (Certificate.fromDict uuid4)
  some { country, certificate }

def read (e : CSCAMasterListEntry F) : CSCAMasterListEntry F :=
  { e with certificate := e.certificate.read }

theorem fromDict_toDict (uuid4 : UUID) (e : CSCAMasterListEntry F) :
    fromDict uuid4 e.toDict = some e.read := by
  simp [fromDict, toDict, required, List.lookup_cons, Certificate.fromDict_toDict, read]

end CSCAMasterListEntry

structure CSCAMasterList (F : Type) where
  version : String
  issuer : X509Name
  issuedDate : Datetime
  nextUpdate : Datetime
  entries : List (CSCAMasterListEntry F) := []
  signature : Option String := none
  id : UUID

namespace CSCAMasterList

def toDict (m : CSCAMasterList F) : Entries F :=
  Fields.entries [
    ("id", some (.str m.id.text)),
    ("version", some (.str m.version)),
    ("issuer", some (nameValue m.issuer)),
    ("issuedDate", some (.str m.issuedDate.isoformat)),
    ("nextUpdate", some (.str m.nextUpdate.isoformat)),
    ("entries", some (.arr (m.entries.map fun e => .obj e.toDict))),
    ("signature", (Text.truthy m.signature).map .str)]

/-- The entry of each value, with the id of its place where it has none. -/
def readEntries (uuid4 : ℕ → UUID) (v : Value F) : Option (List (CSCAMasterListEntry F)) :=
  match v with
  | .arr values => (values.zipIdx 1).mapM fun p =>
      (asEntries p.1).bind (CSCAMasterListEntry.fromDict (uuid4 p.2))
  | _ => none

def fromDict (uuid4 : ℕ → UUID) (data : Entries F) : Option (CSCAMasterList F) := do
  let id ← ifPresent data "id" asUuid
  let version ← required data "version" asStr
  let issuer ← required data "issuer" asName
  let issuedDate ← required data "issuedDate" asDatetime
  let nextUpdate ← required data "nextUpdate" asDatetime
  let signature ← getField data "signature" asStr
  let entries ← ifPresent data "entries" (readEntries uuid4)
  some {
    id := id.getD (uuid4 0)
    version, issuer, issuedDate, nextUpdate, signature
    entries := entries.getD [] }

/-- `upper` is `str.upper`. -/
def getCertificatesForCountry (upper : String → String) (countryCode : String)
    (m : CSCAMasterList F) : List (Certificate F) :=
  (m.entries.filter fun e => upper e.country = upper countryCode).map (·.certificate)

def isValid (now : Datetime) (m : CSCAMasterList F) : Option Bool :=
  between m.issuedDate now m.nextUpdate

def read (m : CSCAMasterList F) : CSCAMasterList F :=
  { m with
    issuer := readName m.issuer
    entries := m.entries.map (·.read)
    signature := Text.truthy m.signature }

theorem readEntries_map (uuid4 : ℕ → UUID) (es : List (CSCAMasterListEntry F)) :
    readEntries uuid4 (.arr (es.map fun e => .obj e.toDict)) = some (es.map (·.read)) := by
  rw [readEntries]
  generalize 1 = k
  induction es generalizing k with
  | nil => rfl
  | cons e es ih =>
    rw [List.map_cons, List.zipIdx_cons, List.mapM_cons, ih]
    simp [CSCAMasterListEntry.fromDict_toDict]

theorem fromDict_toDict (uuid4 : ℕ → UUID) (m : CSCAMasterList F) :
    fromDict uuid4 m.toDict = some m.read := by
  have hsignature : getField m.toDict "signature" asStr = some (Text.truthy m.signature) :=
    getField_str (by simp [toDict, lookup_entries_cons, lookup_entries_nil])
  rw [fromDict, hsignature]
  simp [toDict, required, ifPresent, lookup_entries_cons, asName_nameValue, readEntries_map, read]

theorem toDict_read (m : CSCAMasterList F) : m.read.toDict = m.toDict := by
  have hentries : (m.read.entries.map fun e => Value.obj e.toDict) =
      m.entries.map fun e => Value.obj e.toDict := by
    rw [read, List.map_map]
    refine List.map_congr_left fun e _ => ?_
    simp [CSCAMasterListEntry.toDict, CSCAMasterListEntry.read, Certificate.toDict_read]
  rw [toDict, hentries]
  simp only [toDict, read, nameValue, nameDict_readName, truthy_truthy]

/-- The signature is not empty, and no name in the list has an empty attribute. -/
abbrev Kept (m : CSCAMasterList F) : Prop :=
  NameKept m.issuer ∧ m.signature ≠ some "" ∧
    ∀ e ∈ m.entries, NameKept e.certificate.subject ∧ NameKept e.certificate.issuer

theorem read_eq_self {m : CSCAMasterList F} : m.read = m ↔ m.Kept := by
  have hentries (es : List (CSCAMasterListEntry F)) : es.map CSCAMasterListEntry.read = es ↔
      ∀ e ∈ es, NameKept e.certificate.subject ∧ NameKept e.certificate.issuer := by
    calc
      es.map CSCAMasterListEntry.read = es ↔
          es.map CSCAMasterListEntry.read = es.map fun e => e := by rw [List.map_id']
      _ ↔ ∀ e ∈ es, e.read = e := List.map_inj_left
      _ ↔ _ := by
        refine forall₂_congr fun e _ => ?_
        rw [← Certificate.read_eq_self]
        obtain ⟨country, certificate⟩ := e
        simp [CSCAMasterListEntry.read]
  obtain ⟨version, issuer, issuedDate, nextUpdate, es, signature, id⟩ := m
  simp only [read, mk.injEq, readName_eq_self, truthy_eq_self, hentries, true_and, and_true]
  tauto

/-- Two lists that answer alike. -/
structure Alike (m m' : CSCAMasterList F) : Prop where
  toDict : m'.toDict = m.toDict
  isValid : ∀ now, m'.isValid now = m.isValid now
  certificates : ∀ upper countryCode,
    (m'.getCertificatesForCountry upper countryCode).map (·.toDict) =
      (m.getCertificatesForCountry upper countryCode).map (·.toDict)
  selfSigned : ∀ upper countryCode,
    (m'.getCertificatesForCountry upper countryCode).map (·.isSelfSigned) =
      (m.getCertificatesForCountry upper countryCode).map (·.isSelfSigned)

theorem getCertificatesForCountry_read (m : CSCAMasterList F) (upper : String → String)
    (countryCode : String) : m.read.getCertificatesForCountry upper countryCode =
      (m.getCertificatesForCountry upper countryCode).map (·.read) := by
  simp [getCertificatesForCountry, read, CSCAMasterListEntry.read, List.filter_map,
    Function.comp_def]

/-- A master list is read back from its dictionary, whole when the texts that are written are not
empty, and otherwise as one that answers alike and is written alike. -/
theorem masterList_read_back (uuid4 : ℕ → UUID) (m : CSCAMasterList F) :
    ∃ m', fromDict uuid4 m.toDict = some m' ∧ (m' = m ↔ m.Kept) ∧ Alike m m' := by
  refine ⟨m.read, fromDict_toDict uuid4 m, read_eq_self, toDict_read m, fun _ => rfl, ?_, ?_⟩
  · intro upper countryCode
    rw [getCertificatesForCountry_read, List.map_map]
    exact List.map_congr_left fun c _ => c.toDict_read
  · intro upper countryCode
    rw [getCertificatesForCountry_read, List.map_map]
    exact List.map_congr_left fun c _ => c.isSelfSigned_read

end CSCAMasterList

end Marty.Models.Certificates
