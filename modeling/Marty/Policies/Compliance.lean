import Marty.Policies.Annex9

/-! `verify_annex9_compliance`: the background verification of a certificate is that of its first
completed check, whether that has expired or not. -/

namespace Marty.Policies.Compliance

open Lib Lib.Datetime Annex9

structure CheckResult where
  compliant : Bool
  details : String
  deriving DecidableEq

structure ComplianceResult where
  cmcId : String
  compliant : Bool
  checks : List (String × CheckResult)
  timestamp : String

def checkResult (compliant : Bool) (yes no : String) : CheckResult where
  compliant := compliant
  details := if compliant then yes else no

/-- A completed check of the certificate. -/
def completed (cmcId : String) (check : BackgroundCheckRecord) : Bool :=
  check.cmcId = cmcId ∧ check.status = .completed

variable (lib : Library) (m : Annex9PolicyManager) (cmcId : String)

def backgroundCompliant : Bool :=
  match m.backgroundChecks.find? (completed cmcId) with
  | none => false
  | some check => check.annex9Compliant

def electronicRecordCompliant : Bool :=
  m.electronicRecords.any fun record => record.cmcId = cmcId ∧ record.verifyIntegrity lib

def visaFreeManaged : Bool := m.visaFreeRecords.any (·.cmcId = cmcId)

def verifyAnnex9Compliance (now : Time) : ComplianceResult :=
  let checks := [
    ("background_verification", checkResult (backgroundCompliant m cmcId)
      "Background check completed and verified" "Background check not completed or failed"),
    ("electronic_record_keeping", checkResult (electronicRecordCompliant lib m cmcId)
      "Electronic record maintained with integrity"
      "Electronic record not found or integrity compromised"),
    ("visa_free_management", checkResult (visaFreeManaged m cmcId)
      "Visa-free status actively managed" "Visa-free status not managed")]
  { cmcId := cmcId
    compliant := checks.all (·.2.compliant)
    checks := checks
    timestamp := (Stamp.utc now).isoformat }

/-- The check is compliant, and has not expired. -/
def Valid (now : Time) (check : BackgroundCheckRecord) : Prop :=
  check.annex9Compliant = true ∧ check.isExpired now = false

/-- The background verification says whether the certificate has a completed check that is valid
at the time. -/
def Verifies (now : Time) : Prop :=
  (∃ result, (verifyAnnex9Compliance lib m cmcId now).checks.lookup "background_verification" =
      some result ∧ result.compliant = true) ↔
    ∃ check ∈ m.backgroundChecks, completed cmcId check = true ∧ Valid now check

/-- The first of the completed checks decides as they all do together: where it is compliant one of
them is valid, and otherwise the compliant ones after it have expired. -/
def FirstDecides (now : Time) : List BackgroundCheckRecord → Prop
  | [] => True
  | first :: rest =>
    if first.annex9Compliant then ∃ check ∈ first :: rest, Valid now check
    else ∀ check ∈ rest, check.annex9Compliant = true → check.isExpired now = true

/-- The checks are all compliant, one of them not expired, or none is compliant. -/
def AllAlike (now : Time) (checks : List BackgroundCheckRecord) : Prop :=
  (∀ check ∈ checks, check.annex9Compliant = false) ∨
    (∀ check ∈ checks, check.annex9Compliant = true) ∧ ∃ check ∈ checks, Valid now check

variable {lib m cmcId} {now : Time} {checks : List BackgroundCheckRecord}

theorem backgroundCompliant_iff :
    (∃ result, (verifyAnnex9Compliance lib m cmcId now).checks.lookup "background_verification" =
      some result ∧ result.compliant = true) ↔
    ∃ first rest, m.backgroundChecks.filter (completed cmcId) = first :: rest ∧
      first.annex9Compliant = true := by
  have hlookup : (verifyAnnex9Compliance lib m cmcId now).checks.lookup "background_verification" =
      some (checkResult (backgroundCompliant m cmcId) "Background check completed and verified"
        "Background check not completed or failed") := rfl
  simp only [hlookup, Option.some.injEq, exists_eq_left', checkResult, backgroundCompliant,
    ← List.head?_filter]
  cases m.backgroundChecks.filter (completed cmcId) with
  | nil => simp
  | cons first rest => simp

theorem exists_valid_iff :
    (∃ check ∈ m.backgroundChecks, completed cmcId check = true ∧ Valid now check) ↔
      ∃ check ∈ m.backgroundChecks.filter (completed cmcId), Valid now check := by
  simp only [List.mem_filter, and_assoc]

theorem verifies_iff_firstDecides :
    Verifies lib m cmcId now ↔
      FirstDecides now (m.backgroundChecks.filter (completed cmcId)) := by
  rw [Verifies, backgroundCompliant_iff, exists_valid_iff]
  cases m.backgroundChecks.filter (completed cmcId) with
  | nil => simp [FirstDecides]
  | cons first rest =>
    cases hfirst : first.annex9Compliant with
    | true => simp [FirstDecides, hfirst]
    | false => simp [FirstDecides, Valid, hfirst]

theorem AllAlike.perm {checks checks' : List BackgroundCheckRecord} (hperm : checks'.Perm checks)
    (h : AllAlike now checks) : AllAlike now checks' := by
  apply h.imp
  · exact fun hnone check hcheck => hnone check (hperm.subset hcheck)
  · rintro ⟨hall, valid, hmem, hvalid⟩
    exact ⟨fun check hcheck => hall check (hperm.subset hcheck), valid, hperm.symm.subset hmem,
      hvalid⟩

theorem AllAlike.firstDecides (h : AllAlike now checks) : FirstDecides now checks := by
  cases checks with
  | nil => trivial
  | cons first rest =>
    rw [FirstDecides]
    cases h with
    | inl hnone =>
      rw [if_neg (by simp [hnone first List.mem_cons_self])]
      intro check hcheck hcompliant
      simp [hnone check (List.mem_cons_of_mem _ hcheck)] at hcompliant
    | inr hall =>
      rw [if_pos (hall.1 first List.mem_cons_self)]
      exact hall.2

/-- In the order that has a completed check first, that check decides. -/
theorem compliant_iff_of_every_order
    (horder : ∀ checks', checks'.Perm m.backgroundChecks →
      Verifies lib { m with backgroundChecks := checks' } cmcId now)
    {check : BackgroundCheckRecord} (hcheck : check ∈ m.backgroundChecks.filter (completed cmcId)) :
    check.annex9Compliant = true ↔
      ∃ valid ∈ m.backgroundChecks.filter (completed cmcId), Valid now valid := by
  obtain ⟨hmem, hcompleted⟩ := List.mem_filter.mp hcheck
  obtain ⟨before, after, happend⟩ := List.append_of_mem hmem
  have hperm : (check :: (before ++ after)).Perm m.backgroundChecks := by
    rw [happend]
    exact List.perm_middle.symm
  have hverifies := horder _ hperm
  rw [Verifies, backgroundCompliant_iff, exists_valid_iff] at hverifies
  have hexists :
      (∃ valid ∈ (check :: (before ++ after)).filter (completed cmcId), Valid now valid) ↔
      ∃ valid ∈ m.backgroundChecks.filter (completed cmcId), Valid now valid :=
    exists_congr fun valid => and_congr_left' (hperm.filter _).mem_iff
  rw [← hexists, ← hverifies, List.filter_cons_of_pos hcompleted]
  simp

/-- For an order of insertion, the first completed check has to decide as they all do; for all
orders, they have to be alike. -/
theorem verifies_iff :
    (Verifies lib m cmcId now ↔
      FirstDecides now (m.backgroundChecks.filter (completed cmcId))) ∧
    ((∀ checks', checks'.Perm m.backgroundChecks →
        Verifies lib { m with backgroundChecks := checks' } cmcId now) ↔
      AllAlike now (m.backgroundChecks.filter (completed cmcId))) := by
  refine ⟨verifies_iff_firstDecides, fun horder => ?_, fun halike checks' hperm => ?_⟩
  · by_cases hnone : ∀ check ∈ m.backgroundChecks.filter (completed cmcId),
        check.annex9Compliant = false
    · exact Or.inl hnone
    · push Not at hnone
      obtain ⟨check, hcheck, hcompliant⟩ := hnone
      have hvalid := (compliant_iff_of_every_order horder hcheck).mp (by simpa using hcompliant)
      apply Or.inr
      exact ⟨fun other hother => (compliant_iff_of_every_order horder hother).mpr hvalid, hvalid⟩
  · rw [verifies_iff_firstDecides]
    exact (halike.perm (hperm.filter _)).firstDecides

/-- A check that has failed, the one after it that was passed, and one that was passed and has
expired at the time of the run below. -/
def failedCheck : BackgroundCheckRecord where
  recordId := "1"
  cmcId := "CMC"
  checkAuthority := "A"
  checkReference := "BGC-CMC-1"
  status := .completed

def passedCheck : BackgroundCheckRecord :=
  { failedCheck with recordId := "2", annex9Compliant := true }

def expiredCheck : BackgroundCheckRecord :=
  { failedCheck with recordId := "3", annex9Compliant := true, expiresAt := some 0 }

theorem earlier_check_decides :
    (verifyAnnex9Compliance zeros { backgroundChecks := [failedCheck, passedCheck] } "CMC"
        1).checks.lookup "background_verification" =
      some ⟨false, "Background check not completed or failed"⟩ ∧
    (verifyAnnex9Compliance zeros { backgroundChecks := [passedCheck, failedCheck] } "CMC"
        1).checks.lookup "background_verification" =
      some ⟨true, "Background check completed and verified"⟩ ∧
    (verifyAnnex9Compliance zeros { backgroundChecks := [expiredCheck] } "CMC"
        1).checks.lookup "background_verification" =
      some ⟨true, "Background check completed and verified"⟩ ∧
    ¬ Verifies zeros { backgroundChecks := [failedCheck, passedCheck] } "CMC" 1 ∧
    ¬ Verifies zeros { backgroundChecks := [expiredCheck] } "CMC" 1 := by
  refine ⟨rfl, rfl, rfl, ?_, ?_⟩
  · rw [Verifies]
    intro h
    obtain ⟨result, hresult, hcompliant⟩ :=
      h.mpr ⟨passedCheck, by simp, by decide, by decide, by decide⟩
    cases hresult
    cases hcompliant
  · rw [Verifies]
    intro h
    obtain ⟨check, hcheck, -, -, hexpired⟩ := h.mp ⟨_, rfl, rfl⟩
    simp only [List.mem_singleton] at hcheck
    subst hcheck
    revert hexpired
    decide

end Marty.Policies.Compliance
