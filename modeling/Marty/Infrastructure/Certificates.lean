import Marty.Lib.Datetime
import Marty.Lib.Dict
import Marty.Lib.Json
import Marty.Lib.Run
import Marty.Lib.Table

/-! `CertificateRepository`.  A call is one transaction.  Two of them write the `details` of a
record, by different rules. -/

namespace Marty.Infrastructure.Certificates

open Lib Lib.Datetime Lib.Run

abbrev Details := List (String × Json)

structure CertificateRecord where
  certificateId : String
  certificateType : String
  issuer : Option String
  subject : Option String
  pem : String
  revoked : Bool := false
  details : Option Details
  createdAt : Stamp
  updatedAt : Stamp

/-- The arguments of `upsert`. -/
structure Import where
  certId : String
  certType : String
  pem : String
  issuer : Option String := none
  subject : Option String := none
  details : Option Details := none

def Import.record (i : Import) (now : Time) : CertificateRecord where
  certificateId := i.certId
  certificateType := i.certType
  issuer := i.issuer
  subject := i.subject
  pem := i.pem
  details := i.details
  createdAt := .utc now
  updatedAt := .utc now

/-- `details`, unless they are missing or empty. -/
def Import.details? (i : Import) : Option Details := i.details.filter (!·.isEmpty)

def Import.overwrite (i : Import) (now : Time) (r : CertificateRecord) : CertificateRecord :=
  { r with
    pem := i.pem
    issuer := i.issuer
    subject := i.subject
    details := i.details? <|> r.details
    updatedAt := .utc now }

/-- The arguments of `mark_revoked`. -/
structure Revocation where
  certId : String
  reason : Option String
  revokedAt : Stamp

def Revocation.reasonJson (v : Revocation) : Json := (v.reason.map Json.str).getD .null

def Revocation.note (v : Revocation) (details : Details) : Details :=
  Dict.updated details
    [("revocation_reason", v.reasonJson), ("revocation_date", .str v.revokedAt.isoformat)]

def Revocation.mark (v : Revocation) (details : Details) (r : CertificateRecord) :
    CertificateRecord :=
  { r with revoked := true, updatedAt := v.revokedAt, details := some details }

/-- The rows of `certificates`, with the constraint on `certificate_id`. -/
structure CertificateTable where
  rows : List CertificateRecord
  unique : (rows.map (·.certificateId)).Nodup

namespace CertificateTable

def get (s : CertificateTable) (certId : String) : Option CertificateRecord :=
  Table.get (·.certificateId) certId s.rows

def upsert (s : CertificateTable) (i : Import) (now : Time) : CertificateTable where
  rows := Table.upsert (·.certificateId) i.certId (i.record now) (i.overwrite now) s.rows
  unique := Table.nodup_upsert (fun _ => rfl) rfl s.unique

def markRevoked (s : CertificateTable) (v : Revocation) : CertificateTable where
  rows :=
    let details := v.note (((s.get v.certId).bind (·.details)).getD [])
    Table.modify (·.certificateId) v.certId (v.mark details) s.rows
  unique := Table.nodup_modify (fun _ => rfl) s.unique

variable {s : CertificateTable} {certId : String}

theorem get_upsert_self (i : Import) (now : Time) :
    (s.upsert i now).get i.certId =
      some (((s.get i.certId).map (i.overwrite now)).getD (i.record now)) :=
  Table.get_upsert_self (fun _ => rfl) rfl

theorem get_upsert_of_ne {i : Import} (now : Time) (hne : certId ≠ i.certId) :
    (s.upsert i now).get certId = s.get certId :=
  Table.get_upsert_of_ne (fun _ => rfl) rfl hne

theorem get_markRevoked_self (v : Revocation) :
    (s.markRevoked v).get v.certId =
      (s.get v.certId).map (v.mark (v.note (((s.get v.certId).bind (·.details)).getD []))) :=
  Table.get_modify_self fun _ => rfl

theorem get_markRevoked_of_ne {v : Revocation} (hne : certId ≠ v.certId) :
    (s.markRevoked v).get certId = s.get certId :=
  Table.get_modify_of_ne (fun _ => rfl) hne

end CertificateTable

open CertificateTable

/-- The table, and the revocations it was told so far. -/
structure State where
  certificates : CertificateTable
  revocations : List Revocation := []

inductive Call
  | upsert (i : Import) (now : Time)
  | markRevoked (v : Revocation)

def step (s : State) : Call → Option State
  | .upsert i now => some { s with certificates := s.certificates.upsert i now }
  | .markRevoked v =>
    some ⟨s.certificates.markRevoked v, s.revocations ++ [v]⟩

/-- The details have the reason and the date of one of the revocations of the certificate. -/
def Noted (revocations : List Revocation) (certId : String) (details : Details) : Prop :=
  ∃ v ∈ revocations, v.certId = certId ∧
    details.lookup "revocation_reason" = some v.reasonJson ∧
    details.lookup "revocation_date" = some (.str v.revokedAt.isoformat)

/-- The record, where there is one, of a certificate that was revoked says so. -/
def Permanent (s : State) : Prop :=
  ∀ v ∈ s.revocations, ∀ r, s.certificates.get v.certId = some r →
    r.revoked = true ∧ ∃ details, r.details = some details ∧ Noted s.revocations v.certId details

/-- An import of a revoked certificate meets its record, and its details, if it has any, have the
revocation too. -/
def Carries (s : State) : Call → Prop
  | .upsert i _ => (∃ v ∈ s.revocations, v.certId = i.certId) →
    (s.certificates.get i.certId).isSome ∧ ∀ details, i.details? = some details →
      Noted s.revocations i.certId details
  | .markRevoked _ => True

theorem lookup_note (v : Revocation) (details : Details) :
    (v.note details).lookup "revocation_reason" = some v.reasonJson ∧
      (v.note details).lookup "revocation_date" = some (.str v.revokedAt.isoformat) := by
  refine ⟨?_, Dict.lookup_set_self _ _ _⟩
  have hne : "revocation_reason" ≠ "revocation_date" := by decide
  exact (Dict.lookup_set_of_ne hne _ _).trans (Dict.lookup_set_self _ _ _)

theorem Noted.mono {revocations revocations' : List Revocation} {certId : String}
    {details : Details} (hsub : ∀ v ∈ revocations, v ∈ revocations')
    (h : Noted revocations certId details) : Noted revocations' certId details := by
  obtain ⟨v, hv, h⟩ := h
  exact ⟨v, hsub v hv, h⟩

variable {s : State}

theorem permanent_markRevoked (hs : Permanent s) (v : Revocation) :
    Permanent ⟨s.certificates.markRevoked v, s.revocations ++ [v]⟩ := by
  intro w hw r hr
  by_cases hc : w.certId = v.certId
  · rw [hc, get_markRevoked_self] at hr
    obtain ⟨old, -, rfl⟩ := Option.map_eq_some_iff.mp hr
    exact ⟨rfl, _, rfl, v, by simp, hc.symm, lookup_note v _⟩
  · rw [get_markRevoked_of_ne hc] at hr
    have hw : w ∈ s.revocations := by
      rcases List.mem_append.mp hw with hw | hw
      · exact hw
      · exact absurd (congrArg Revocation.certId (List.mem_singleton.mp hw)) hc
    obtain ⟨hrevoked, details, hdetails, hnoted⟩ := hs w hw r hr
    exact ⟨hrevoked, details, hdetails, hnoted.mono fun _ hv => List.mem_append_left _ hv⟩

theorem permanent_upsert_iff (hs : Permanent s) (i : Import) (now : Time) :
    Permanent { s with certificates := s.certificates.upsert i now } ↔
      Carries s (.upsert i now) := by
  constructor
  · rintro h ⟨v, hv, hc⟩
    have hafter := h v hv
    simp only [hc, get_upsert_self] at hafter
    cases hget : s.certificates.get i.certId with
    | none =>
      -- The record the import creates is not revoked.
      rw [hget] at hafter
      cases (hafter _ rfl).1
    | some old =>
      rw [hget] at hafter
      refine ⟨rfl, fun details hdetails => ?_⟩
      obtain ⟨-, details', hafter, hnoted⟩ := hafter _ rfl
      have hafter : (i.details? <|> old.details) = some details' := hafter
      rw [hdetails] at hafter
      obtain rfl := Option.some.inj hafter
      exact hnoted
  · intro h v hv r hr
    by_cases hc : v.certId = i.certId
    · obtain ⟨hsome, hdetails⟩ := h ⟨v, hv, hc⟩
      obtain ⟨old, hget⟩ := Option.isSome_iff_exists.mp hsome
      simp only [hc, get_upsert_self, hget] at hr ⊢
      obtain rfl := Option.some.inj hr
      obtain ⟨hrevoked, details, hold, hnoted⟩ := hs v hv old (hc ▸ hget)
      refine ⟨hrevoked, ?_⟩
      cases hnew : i.details? with
      | none => exact ⟨details, by simpa [Import.overwrite, hnew] using hold, hc ▸ hnoted⟩
      | some details =>
        exact ⟨details, by simp [Import.overwrite, hnew], hdetails details hnew⟩
    · rw [get_upsert_of_ne now hc] at hr
      exact hs v hv r hr

theorem carries_iff (hs : Permanent s) (c : Call) :
    Carries s c ↔ ∀ s', step s c = some s' → Permanent s' := by
  cases c with
  | upsert i now =>
    rw [← permanent_upsert_iff hs]
    exact ⟨fun h s' hs' => Option.some.inj hs' ▸ h, fun h => h _ rfl⟩
  | markRevoked v =>
    refine ⟨fun _ s' hs' => ?_, fun _ => trivial⟩
    obtain rfl := Option.some.inj hs'
    exact permanent_markRevoked hs v

/-- A certificate is revoked and then imported again with details of its own. -/
def reimported : List Call :=
  [.upsert { certId := "c", certType := "DSC", pem := "p" } 0,
    .markRevoked ⟨"c", some "keyCompromise", .utc 1⟩,
    .upsert
      { certId := "c", certType := "DSC", pem := "p", details := some [("country", .str "NL")] } 2]

end Marty.Infrastructure.Certificates
