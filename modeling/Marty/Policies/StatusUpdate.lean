import Marty.Policies.Annex9

/-! `update_status` when it raises: the status and the time of completion are written before the
findings are interpreted. -/

namespace Marty.Policies.StatusUpdate

open Lib Lib.Datetime Annex9 BackgroundCheckRecord
open Lib.Table (get key_of_get get_modify)

def Passes (findings : Entries) (check : String) : Prop :=
  ∃ finding, findings.lookup check = some (.obj finding) ∧
    (finding.lookup "passed").any Json.truthy = true

/-- The first of the checks that does not pass is there, and is not a dictionary. -/
inductive Malformed (findings : Entries) : List String → Prop
  | here {check checks} {finding : Json} (hlookup : findings.lookup check = some finding)
      (hfinding : ∀ entries, finding ≠ .obj entries) : Malformed findings (check :: checks)
  | next {check checks} (hpasses : Passes findings check) (hrest : Malformed findings checks) :
      Malformed findings (check :: checks)

variable {lib : Library} {r : BackgroundCheckRecord} {m : Annex9PolicyManager} {recordId : String}
  {status : BackgroundCheckStatus} {findings : Entries} {now : Time}

theorem malformed_of_assess {checks : List String} (h : assess findings checks = none) :
    Malformed findings checks := by
  induction checks with
  | nil => cases h
  | cons check checks ih =>
    rw [assess] at h
    split at h
    · cases h
    · rename_i finding hlookup
      split at h
      case isTrue hpassed => exact .next ⟨finding, hlookup, hpassed⟩ (ih h)
      case isFalse => cases h
    · rename_i finding hdict hlookup
      exact .here hlookup fun entries hentries => hdict entries hentries

theorem assess_of_malformed {checks : List String} (h : Malformed findings checks) :
    assess findings checks = none := by
  induction h with
  | @here check checks finding hlookup hfinding =>
    rw [assess, hlookup]
    cases finding with
    | obj entries => exact absurd rfl (hfinding entries)
    | _ => rfl
  | @next check checks hpasses hrest ih =>
    obtain ⟨finding, hlookup, hpassed⟩ := hpasses
    rw [assess, hlookup]
    exact (if_pos hpassed).trans ih

/-- `update_status` raises exactly where it completes a check with such findings. -/
theorem updateStatus_eq_none_iff :
    (r.updateStatus lib status findings now).2 = none ↔
      status = .completed ∧ Malformed findings requiredChecks := by
  cases status with
  | completed =>
    simp only [updateStatus, changeStatus, true_and]
    cases hassess : assessAnnex9Compliance findings with
    | none => exact ⟨fun _ => malformed_of_assess hassess, fun _ => rfl⟩
    | some compliant =>
      constructor
      · intro h
        cases h
      · intro h
        cases hassess.symm.trans (assess_of_malformed h)
  | inProgress => cases hstarted : r.startedAt <;> simp [updateStatus, changeStatus]
  | pending => simp [updateStatus, changeStatus]
  | failed => simp [updateStatus, changeStatus]
  | expired => simp [updateStatus, changeStatus]

/-- What it has written by then. -/
theorem updateStatus_of_malformed (h : Malformed findings requiredChecks) :
    r.updateStatus lib .completed findings now =
      ({ r with status := .completed, completedAt := some now }, none) := by
  have hassess : assessAnnex9Compliance findings = none := assess_of_malformed h
  simp only [updateStatus, changeStatus, hassess]

theorem completed_eq_iff :
    { r with status := .completed, completedAt := some now } = r ↔
      r.status = .completed ∧ r.completedAt = some now := by
  obtain ⟨⟩ := r
  simp only [BackgroundCheckRecord.mk.injEq, true_and, and_true]
  exact and_congr eq_comm eq_comm

/-- The update leaves the record as it is if it raises. -/
def Atomic (lib : Library) (r : BackgroundCheckRecord) (status : BackgroundCheckStatus)
    (findings : Entries) (now : Time) : Prop :=
  (r.updateStatus lib status findings now).2 = none →
    (r.updateStatus lib status findings now).1 = r

/-- The findings do not complete the check with a malformed one, or what is written by then is
there already. -/
def Keeps (r : BackgroundCheckRecord) (status : BackgroundCheckStatus) (findings : Entries)
    (now : Time) : Prop :=
  ¬ (status = .completed ∧ Malformed findings requiredChecks) ∨
    r.status = .completed ∧ r.completedAt = some now

theorem atomic_iff_keeps : Atomic lib r status findings now ↔ Keeps r status findings now := by
  rw [Atomic, Keeps, updateStatus_eq_none_iff, ← imp_iff_not_or]
  refine imp_congr_right fun ⟨hstatus, hmalformed⟩ => ?_
  subst hstatus
  rw [updateStatus_of_malformed hmalformed]
  exact completed_eq_iff

theorem get_modify_const {check : BackgroundCheckRecord} {checks : List BackgroundCheckRecord}
    {recordId' : String} (hcheck : check.recordId = recordId) :
    get (·.recordId) recordId' (Table.modify (·.recordId) recordId (fun _ => check) checks) =
      (get (·.recordId) recordId' checks).map fun other =>
        if other.recordId = recordId then check else other := by
  have hmodify : Table.modify (·.recordId) recordId (fun _ => check) checks =
      Table.modify (·.recordId) recordId
        (fun other => if other.recordId = recordId then check else other) checks := by
    apply List.map_congr_left
    intro other _
    by_cases hother : other.recordId = recordId
    · simp [hother]
    · simp [hother]
  rw [hmodify, get_modify]
  · congr
    funext other
    split <;> rfl
  · intro other
    split
    case isTrue h => exact hcheck.trans h.symm
    case isFalse => rfl

/-- The manager's update leaves each record as it is if it raises. -/
def ManagerAtomic (lib : Library) (m : Annex9PolicyManager) (recordId : String)
    (status : BackgroundCheckStatus) (findings : Entries) (now : Time) : Prop :=
  (m.updateBackgroundCheck lib recordId status findings now).2 = none →
    ∀ recordId', get (·.recordId) recordId'
        (m.updateBackgroundCheck lib recordId status findings now).1.backgroundChecks =
      get (·.recordId) recordId' m.backgroundChecks

theorem updateStatus_recordId :
    (r.updateStatus lib status findings now).1.recordId = r.recordId := by
  cases status with
  | completed =>
    simp only [updateStatus, changeStatus]
    cases assessAnnex9Compliance findings <;> rfl
  | inProgress =>
    simp only [updateStatus, changeStatus]
    cases r.startedAt <;> rfl
  | _ => rfl

theorem managerAtomic_of_get {check : BackgroundCheckRecord}
    (hget : get (·.recordId) recordId m.backgroundChecks = some check) :
    ManagerAtomic lib m recordId status findings now ↔ Atomic lib check status findings now := by
  have hkey : check.recordId = recordId := key_of_get hget
  have hnew : (check.updateStatus lib status findings now).1.recordId = recordId :=
    updateStatus_recordId.trans hkey
  have hupdate : m.updateBackgroundCheck lib recordId status findings now =
      ({ m with
          backgroundChecks := Table.modify (·.recordId) recordId
            (fun _ => (check.updateStatus lib status findings now).1) m.backgroundChecks },
        (check.updateStatus lib status findings now).2.map fun _ =>
          some (check.updateStatus lib status findings now).1) := by
    simp only [Annex9PolicyManager.updateBackgroundCheck, hget]
  rw [ManagerAtomic, Atomic, hupdate]
  simp only [Option.map_eq_none_iff, get_modify_const hnew]
  refine imp_congr_right fun _ => ?_
  constructor
  · intro h
    simpa [hget, hkey] using h recordId
  · intro hsame recordId'
    cases hget' : get (·.recordId) recordId' m.backgroundChecks with
    | none => rfl
    | some other =>
      simp only [Option.map_some, Option.some.injEq]
      split
      case isTrue hother =>
        have hid : recordId' = recordId := (key_of_get hget').symm.trans hother
        subst hid
        rw [hsame]
        exact Option.some.inj (hget.symm.trans hget')
      case isFalse => rfl

def pendingCheck : BackgroundCheckRecord where
  recordId := "1"
  cmcId := "CMC"
  checkAuthority := "A"
  checkReference := "BGC-CMC-1"

end Marty.Policies.StatusUpdate
