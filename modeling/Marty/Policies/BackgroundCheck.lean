import Marty.Lib.Run
import Marty.Policies.Annex9

/-! The compliance flag of a background check against the findings that have accumulated. -/

namespace Marty.Policies.BackgroundCheck

open Lib Lib.Datetime Lib.Run Annex9

/-- The finding of a check, if there is one, is a dictionary whose `passed` is a `bool`. -/
def wellFormed (findings : Entries) (check : String) : Bool :=
  match findings.lookup check with
  | none => true
  | some (.obj finding) =>
    match finding.lookup "passed" with
    | none | some (.bool _) => true
    | some _ => false
  | some _ => false

def passed (findings : Entries) (check : String) : Bool :=
  match findings.lookup check with
  | some (.obj finding) =>
    match finding.lookup "passed" with
    | some (.bool b) => b
    | _ => false
  | _ => false

/-- The findings have all required checks, each of them passed. -/
def AllPassed (findings : Entries) : Prop := ∀ check ∈ requiredChecks, passed findings check = true

instance (findings : Entries) : Decidable (AllPassed findings) :=
  inferInstanceAs (Decidable (∀ check ∈ requiredChecks, _))

/-- A call of `update_status` with well-formed findings. -/
structure Update where
  status : BackgroundCheckStatus
  findings : Entries := []
  now : Time
  nodup : (findings.map (·.1)).Nodup := by decide
  wellFormed : ∀ check ∈ requiredChecks, wellFormed findings check = true := by decide

def step (lib : Library) (r : BackgroundCheckRecord) (u : Update) : Option BackgroundCheckRecord :=
  some (r.updateStatus lib u.status u.findings u.now).1

variable {lib : Library} {r : BackgroundCheckRecord} {u : Update} {findings : Entries}

theorem assess_cons {check : String} {checks : List String}
    (hw : wellFormed findings check = true) :
    assess findings (check :: checks) =
      if passed findings check = true then assess findings checks else some false := by
  unfold wellFormed at hw
  rw [assess, passed]
  split at hw
  · simp [*]
  · rename_i finding hfinding
    simp only [hfinding]
    split at hw
    · simp [*]
    · rename_i b hb
      simp [hb, Json.truthy]
    · cases hw
  · cases hw

/-- On well-formed findings the assessment is made, and it says whether all checks have passed. -/
theorem assess_eq {checks : List String}
    (hw : ∀ check ∈ checks, wellFormed findings check = true) :
    assess findings checks = some (decide (∀ check ∈ checks, passed findings check = true)) := by
  induction checks with
  | nil => rfl
  | cons check checks ih =>
    rw [assess_cons (hw check List.mem_cons_self),
      ih fun check h => hw check (List.mem_cons_of_mem _ h)]
    split
    case isTrue h => simp [h]
    case isFalse h => simp [h]

/-- What a call does to the status, the findings and the flag. -/
structure Updates (r : BackgroundCheckRecord) (u : Update) (r' : BackgroundCheckRecord) : Prop where
  status : r'.status = u.status
  findings : r'.findings = Dict.updated r.findings u.findings
  annex9Compliant : r'.annex9Compliant = match u.status with
    | .completed => decide (AllPassed u.findings)
    | .failed => false
    | .pending | .inProgress | .expired => r.annex9Compliant

theorem updates_step : Updates r u (r.updateStatus lib u.status u.findings u.now).1 := by
  obtain ⟨status, findings, now, -, hw⟩ := u
  have hassess : assessAnnex9Compliance findings = some (decide (AllPassed findings)) :=
    assess_eq hw
  cases status with
  | pending => exact ⟨rfl, rfl, rfl⟩
  | inProgress =>
    simp only [BackgroundCheckRecord.updateStatus, BackgroundCheckRecord.changeStatus]
    cases r.startedAt <;> exact ⟨rfl, rfl, rfl⟩
  | completed =>
    simp only [BackgroundCheckRecord.updateStatus, BackgroundCheckRecord.changeStatus, hassess]
    exact ⟨rfl, rfl, rfl⟩
  | failed => exact ⟨rfl, rfl, rfl⟩
  | expired => exact ⟨rfl, rfl, rfl⟩

/-- The checks that are passed in the findings of a call are passed in the findings it leaves. -/
theorem allPassed_updated (h : AllPassed u.findings) :
    AllPassed (Dict.updated r.findings u.findings) := by
  intro check hcheck
  have hpassed := h check hcheck
  unfold passed at hpassed ⊢
  rw [Dict.lookup_updated u.nodup]
  cases hlookup : u.findings.lookup check with
  | none =>
    rw [hlookup] at hpassed
    cases hpassed
  | some finding => simpa [hlookup] using hpassed

/-- The flag says that the check is completed and that its findings have all required checks,
passed. -/
def Accurate (r : BackgroundCheckRecord) : Prop :=
  r.annex9Compliant = true ↔ r.status = .completed ∧ AllPassed r.findings

/-- A call that completes the check brings all required checks when the accumulated findings and
its own have them, and no other call than one that fails the check is made on a compliant one. -/
def Renewing (r : BackgroundCheckRecord) (u : Update) : Prop :=
  match u.status with
  | .completed => AllPassed (Dict.updated r.findings u.findings) → AllPassed u.findings
  | .failed => True
  | .pending | .inProgress | .expired => r.annex9Compliant = false

instance : Decidable (Renewing r u) := by
  unfold Renewing
  split <;> infer_instance

theorem renewing_iff : Renewing r u ↔ ∀ r', step lib r u = some r' → Accurate r' := by
  have hstep : (∀ r', step lib r u = some r' → Accurate r') ↔
      Accurate (r.updateStatus lib u.status u.findings u.now).1 := by
    simp [step]
  obtain ⟨hstatus, hfindings, hflag⟩ := @updates_step lib r u
  rw [hstep, Accurate, hstatus, hfindings, hflag, Renewing]
  cases hu : u.status with
  | completed =>
    simp only [decide_eq_true_iff, true_and]
    exact ⟨fun h => ⟨allPassed_updated, h⟩, fun h => h.2⟩
  | failed => simp
  | pending => simp
  | inProgress => simp
  | expired => simp

/-- From a new record, the flag is accurate in every state reached exactly when every call meets
the condition. -/
theorem accurate_iff_renewing (lib : Library) (recordId cmcId checkAuthority : String)
    (checkScope : List String) (named expires : Time) (us : List Update) :
    let new :=
      Annex9PolicyManager.newBackgroundCheck recordId cmcId checkAuthority checkScope named expires
    (∀ n r, run (step lib) new (us.take n) = some r → Accurate r) ↔
      Guarded (step lib) Renewing new us :=
  forall_take_iff_guarded (fun _ _ _ => renewing_iff) (by simp [Accurate,
    Annex9PolicyManager.newBackgroundCheck])

def requested : BackgroundCheckRecord :=
  Annex9PolicyManager.newBackgroundCheck "check-1" "cmc-1" "authority" [] 0 0

/-- All required checks, passed. -/
def complete : Entries := requiredChecks.map fun check => (check, .obj [("passed", .bool true)])

/-- The findings come while the check is in progress. -/
def gathered : List Update := [
  { status := .inProgress, findings := complete, now := 0 },
  { status := .completed, now := 1 }]

/-- The findings come with the completion, and later the check expires. -/
def lapsed : List Update := [
  { status := .completed, findings := complete, now := 0 },
  { status := .expired, now := 1 }]

theorem flag_inaccurate :
    (∃ r, run (step zeros) requested gathered = some r ∧ r.status = .completed ∧
      AllPassed r.findings ∧ r.annex9Compliant = false) ∧
    ∃ r, run (step zeros) requested lapsed = some r ∧ r.status = .expired ∧
      r.annex9Compliant = true :=
  ⟨⟨_, rfl, rfl, by decide, rfl⟩, ⟨_, rfl, rfl, rfl⟩⟩

end Marty.Policies.BackgroundCheck
