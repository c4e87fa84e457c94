import Marty.Scripts.ScanEscapes

/-! `run_check` and `run_selected` of `security_scan`.  A run is given with what the system answers
to each of its checks; the texts that are printed are left out. -/

namespace Marty.Scripts.SecurityScan

open Lib Lib.Exceptions Lib.JsonText

variable {F : Type}

/-- The interpreter. -/
structure Host (F : Type) where
  decoder : Decoder F
  decimal : Char → Bool
  executable : String
  installed : String → Bool

structure Completed where
  returncode : Int
  stdout : String

/-- A check, and the answers of the system to it. -/
structure Check (F : Type) where
  tool : Tool
  /-- The files while the command is built. -/
  before : Files F
  /-- `shutil.which(program) is not None` -/
  found : String → Bool
  /-- `git config --get-all secrets.patterns` -/
  patterns : Except Exn Completed
  scan : Except Exn Completed
  /-- Writing the output and the errors of the scan. -/
  kept : Except Exn Unit
  /-- Reading `bandit.json`. -/
  report : Except Exn String
  /-- The files while the report is read. -/
  after : Files F
  /-- Whether there is a `bandit.json` at the end, and reading it again. -/
  isFile : Except Exn Bool
  reread : Except Exn String

inductive Reason
  /-- `Required executable unavailable: ...` -/
  | unavailable (program : String)
  /-- `git-secrets requires configured prohibited patterns` -/
  | noPatterns
  /-- The class of the exception, and its text. -/
  | raised (exn : Exn)
  /-- `Source counts are not compliance evidence; see docs/SECURITY.md` -/
  | noEvidence
  deriving DecidableEq

structure Result where
  status : Status
  returncode : Option Int := none
  reason : Option Reason := none
  deriving DecidableEq

inductive Action
  | full | code | deps | secrets | containers | compliance
  deriving DecidableEq

/-- The arguments of `run_selected`, and the answers of the system to it. -/
structure Run (F : Type) where
  action : Action
  args : Args
  directory : Path
  checks : List (Check F)
  /-- Making the directory, which must not be there yet. -/
  created : Except Exn Unit
  /-- Writing `summary.json`. -/
  summary : Except Exn Unit

/-- `run_selected` returns, or it ends with `SystemExit` or another exception. -/
inductive Ending
  | returned (code : Nat)
  | systemExit (code : Nat)
  | raised (exn : Exn)
  deriving DecidableEq

section run

variable (host : Host F) (run : Run F)

section check

variable (c : Check F)

def Check.command : Except Exn Command :=
  commandFor host.decimal host.executable host.installed c.before
    (run.directory ++ [c.tool.name ++ ".json"]) run.args c.tool

def Check.patternsConfigured : Except Exn Bool :=
  if c.tool = .gitSecrets then do
    let policy ← c.patterns
    .ok (policy.returncode = 0 && Text.strip policy.stdout ≠ "")
  else .ok true

/-- The block of `run_check` whose exceptions are caught. -/
def Check.attempt : Except Exn Result := do
  let command ← c.command host run
  if !c.found command.program then
    .ok { status := .unavailable, reason := some (.unavailable command.program) }
  else do
    let configured ← c.patternsConfigured
    if !configured then .ok { status := .error, reason := some .noPatterns }
    else do
      let completed ← c.scan
      c.kept
      let status ← classify host.decoder host.decimal c.tool completed.returncode completed.stdout
        c.report (some c.after)
      .ok { status, returncode := some completed.returncode }

def runCheck : Except Exn Result :=
  handle Exn.caught (fun exn => { status := .error, reason := some (.raised exn) })
    (c.attempt host run)

/-- What is read of a finding and of an error to print them. -/
def printReport (data : Value F) : Except Exn Unit := do
  let findings ← get "results" (.arr []) data >>= iterate
  findings.forM fun finding => do
    let _ ← item "filename" finding
    let _ ← item "line_number" finding
    let _ ← item "test_id" finding
    let _ ← get "test_name" (.str "") finding
    .ok ()
  let errors ← get "errors" (.arr []) data >>= iterate
  errors.forM fun error => do
    let _ ← item "filename" error
    let _ ← item "reason" error
    .ok ()

/-- The findings of Bandit are printed when the reports do not stay. -/
def rereadReport : Except Exn Unit :=
  if run.args.ephemeral && c.tool = .bandit then do
    let isFile ← c.isFile
    if isFile then
      handle Exn.malformed (fun _ => ()) (c.reread >>= host.decoder.loads >>= printReport)
    else .ok ()
  else .ok ()

end check

def exitCode (results : List Result) : Nat :=
  if results.any (·.status ∉ [.passed, .findings]) then 2
  else if results.any (·.status = .findings) then 1
  else 0

/-- The results, with one that is never passed for the compliance action. -/
def withCompliance (results : List Result) : List Result :=
  if run.action = .compliance then results ++ [{ status := .manual, reason := some .noEvidence }]
  else results

def runChecks : Except Exn Nat := do
  let results ← run.checks.mapM (runCheck host run)
  run.summary
  run.checks.forM (rereadReport host run)
  .ok (exitCode (withCompliance run results))

/-- `parser.error` exits with 2. -/
def runSelected : Ending :=
  match run.created with
  | .error .osError => .systemExit 2
  | .error exn => .raised exn
  | .ok () =>
    match runChecks host run with
    | .ok code => .returned code
    | .error exn => .raised exn

/-! What the gate is to do. -/

def HasStatus (c : Check F) (status : Status) : Prop :=
  ∃ result, runCheck host run c = .ok result ∧ result.status = status

/-- The output of the scan is complete and has a finding. -/
def ReportsFinding (c : Check F) : Prop :=
  ∃ completed findings, c.scan = .ok completed ∧ findings ≠ [] ∧
    Complete host.decoder host.decimal (some c.after) completed.returncode completed.stdout
      c.report c.tool findings

def Ending.Gives (ending : Ending) (code : Nat) : Prop :=
  ending = .returned code ∨ ending = .systemExit code

structure FailsClosed : Prop where
  /-- A scan is passed with return code 0 and complete output without a finding only. -/
  passed : ∀ tool returncode stdout report root,
    classify host.decoder host.decimal tool returncode stdout report root = .ok .passed →
      returncode = 0 ∧ Output host.decoder host.decimal root stdout report [] tool
  zero : (runSelected host run).Gives 0 →
    run.action ≠ .compliance ∧ ∀ c ∈ run.checks, HasStatus host run c .passed
  one : (runSelected host run).Gives 1 →
    run.action ≠ .compliance ∧
      (∀ c ∈ run.checks, HasStatus host run c .passed ∨ HasStatus host run c .findings) ∧
      ∃ c ∈ run.checks, HasStatus host run c .findings ∧ ReportsFinding host c
  two : ¬ (runSelected host run).Gives 0 → ¬ (runSelected host run).Gives 1 →
    (runSelected host run).Gives 2

/-! The exceptions that end a run. -/

section escapes

variable (c : Check F)

/-- The executable of the command is there. -/
def Available : Prop := ∃ command, c.command host run = .ok command ∧ c.found command.program = true

/-- The scanner is run. -/
def Started : Prop := Available host run c ∧ c.patternsConfigured = .ok true

/-- The ways to an exception that `run_check` does not catch. -/
inductive CheckEscapes : Prop
  | command (h : Escapes Exn.caught (c.command host run))
  | patterns (havailable : Available host run c) (htool : c.tool = .gitSecrets)
      (h : Escapes Exn.caught c.patterns)
  | scan (hstarted : Started host run c) (h : Escapes Exn.caught c.scan)
  | kept {completed : Completed} (hstarted : Started host run c) (hscan : c.scan = .ok completed)
      (h : Escapes Exn.caught c.kept)
  | output {completed : Completed} (hstarted : Started host run c) (hscan : c.scan = .ok completed)
      (hkept : c.kept = .ok ()) (h : OutputEscapes host.decoder host.decimal (some c.after)
        completed.returncode completed.stdout c.report c.tool)

/-- The report of Bandit cannot be looked up or read again, or it is nested too deep. -/
def RereadEscapes : Prop :=
  (∃ exn, c.isFile = .error exn) ∨ c.isFile = .ok true ∧
    (Escapes Exn.malformed c.reread ∨
      ∃ content, c.reread = .ok content ∧ host.decoder.tooDeep content = true)

end escapes

/-- The ways to an exception that ends the run. -/
inductive RunEscapes : Prop
  | created {exn : Exn} (h : run.created = .error exn) (hexn : exn ≠ .osError)
  | check {c : Check F} (hcreated : run.created = .ok ()) (hc : c ∈ run.checks)
      (h : CheckEscapes host run c)
  | summary {exn : Exn} (hcreated : run.created = .ok ()) (h : run.summary = .error exn)
  | reread {c : Check F} (hcreated : run.created = .ok ()) (hephemeral : run.args.ephemeral = true)
      (hc : c ∈ run.checks) (htool : c.tool = .bandit) (h : RereadEscapes host c)

end run

section checks

variable {host : Host F} {run : Run F} {c : Check F}

theorem escapes_patternsConfigured : Escapes Exn.caught c.patternsConfigured ↔
    c.tool = .gitSecrets ∧ Escapes Exn.caught c.patterns := by
  rw [Check.patternsConfigured]
  split
  case isTrue htool => simp [escapes_bind, htool]
  case isFalse htool => simp [htool]

theorem escapes_attempt :
    Escapes Exn.caught (c.attempt host run) ↔ CheckEscapes host run c := by
  simp only [Check.attempt, escapes_bind, escapes_unless, escapes_patternsConfigured,
    escapes_classify, escapes_ok, and_false, exists_false, or_false]
  constructor
  · rintro (h | ⟨command, hcommand, hfound, h⟩)
    · exact .command h
    · have havailable : Available host run c := ⟨command, hcommand, hfound⟩
      obtain ⟨htool, h⟩ | ⟨_, hconfigured, rfl, h⟩ := h
      · exact .patterns havailable htool h
      · have hstarted : Started host run c := ⟨havailable, hconfigured⟩
        obtain h | ⟨completed, hscan, h | ⟨_, hkept, h⟩⟩ := h
        · exact .scan hstarted h
        · exact .kept hstarted hscan h
        · exact .output hstarted hscan hkept h
  · intro h
    cases h with
    | command h => exact .inl h
    | patterns havailable htool h =>
      obtain ⟨command, hcommand, hfound⟩ := havailable
      exact .inr ⟨command, hcommand, hfound, .inl ⟨htool, h⟩⟩
    | scan hstarted h =>
      obtain ⟨⟨command, hcommand, hfound⟩, hconfigured⟩ := hstarted
      exact .inr ⟨command, hcommand, hfound, .inr ⟨true, hconfigured, rfl, .inl h⟩⟩
    | kept hstarted hscan h =>
      obtain ⟨⟨command, hcommand, hfound⟩, hconfigured⟩ := hstarted
      exact .inr ⟨command, hcommand, hfound, .inr ⟨true, hconfigured, rfl,
        .inr ⟨_, hscan, .inl h⟩⟩⟩
    | output hstarted hscan hkept h =>
      obtain ⟨⟨command, hcommand, hfound⟩, hconfigured⟩ := hstarted
      exact .inr ⟨command, hcommand, hfound, .inr ⟨true, hconfigured, rfl,
        .inr ⟨_, hscan, .inr ⟨(), hkept, h⟩⟩⟩⟩

theorem escapes_runCheck : (∃ exn, runCheck host run c = .error exn) ↔ CheckEscapes host run c :=
  handle_escapes.trans escapes_attempt

theorem not_escapes_printReport {data : Value F} : ¬ Escapes Exn.malformed (printReport data) := by
  refine not_escapes_bind (not_escapes_bind not_escapes_get fun _ => not_escapes_iterate)
    fun findings => not_escapes_bind (not_escapes_forM fun finding _ => ?_) fun _ =>
      not_escapes_bind (not_escapes_bind not_escapes_get fun _ => not_escapes_iterate)
        fun errors => not_escapes_forM fun error _ => ?_
  · refine not_escapes_bind not_escapes_item fun _ => not_escapes_bind not_escapes_item fun _ => ?_
    refine not_escapes_bind not_escapes_item fun _ => not_escapes_bind not_escapes_get fun _ => ?_
    exact escapes_ok ()
  · refine not_escapes_bind not_escapes_item fun _ => not_escapes_bind not_escapes_item fun _ => ?_
    exact escapes_ok ()

theorem escapes_rereadReport : (∃ exn, rereadReport host run c = .error exn) ↔
    run.args.ephemeral = true ∧ c.tool = .bandit ∧ RereadEscapes host c := by
  have hhandle : Escapes (fun _ => false) (handle Exn.malformed (fun _ => ())
      (c.reread >>= host.decoder.loads >>= printReport)) ↔
      Escapes Exn.malformed c.reread ∨
        ∃ content, c.reread = .ok content ∧ host.decoder.tooDeep content = true := by
    have hloads : ∀ s, Escapes Exn.malformed (host.decoder.loads s) ↔
        host.decoder.tooDeep s = true := fun _ => escapes_loads_of rfl rfl
    rw [escapes_false, handle_escapes]
    simp only [escapes_bind, hloads, not_escapes_printReport, and_false, exists_false, or_false]
  simp only [← escapes_false, rereadReport, escapes_when, escapes_bind, hhandle, Bool.and_eq_true,
    decide_eq_true_eq, and_assoc, RereadEscapes]
  refine and_congr_right fun _ => and_congr_right fun _ => or_congr_right ?_
  constructor
  · rintro ⟨_, hfile, rfl, h⟩
    exact ⟨hfile, h⟩
  · rintro ⟨hfile, h⟩
    exact ⟨true, hfile, rfl, h⟩

end checks

section gate

variable {host : Host F} {run : Run F}

theorem runChecks_eq_ok {code : Nat} : runChecks host run = .ok code ↔
    ∃ results, run.checks.mapM (runCheck host run) = .ok results ∧ run.summary = .ok () ∧
      (∀ c ∈ run.checks, rereadReport host run c = .ok ()) ∧
      exitCode (withCompliance run results) = code := by
  simp only [runChecks, bind_eq_ok, Except.ok.injEq]
  refine exists_congr fun results => and_congr_right fun _ => ?_
  constructor
  · rintro ⟨_, hsummary, _, hreread, hcode⟩
    exact ⟨hsummary, forM_eq_ok.mp hreread, hcode⟩
  · rintro ⟨hsummary, hreread, hcode⟩
    exact ⟨(), hsummary, (), forM_eq_ok.mpr hreread, hcode⟩

theorem escapes_runChecks : (∃ exn, runChecks host run = .error exn) ↔
    (∃ c ∈ run.checks, CheckEscapes host run c) ∨ (∃ exn, run.summary = .error exn) ∨
      ∃ c ∈ run.checks, run.args.ephemeral = true ∧ c.tool = .bandit ∧ RereadEscapes host c := by
  rw [exists_error]
  constructor
  · intro h
    by_contra hnot
    obtain ⟨hchecks, hsummary, hreread⟩ := by simpa only [not_or] using hnot
    have hresults : ∃ results, run.checks.mapM (runCheck host run) = .ok results := by
      refine exists_mapM_eq_ok.mpr fun c hc => ?_
      by_contra hresult
      exact hchecks ⟨c, hc, escapes_runCheck.mp (exists_error.mpr hresult)⟩
    obtain ⟨results, hresults⟩ := hresults
    obtain ⟨_, hsummary⟩ := not_not.mp (mt exists_error.mpr hsummary)
    refine h ⟨_, runChecks_eq_ok.mpr ⟨results, hresults, hsummary, fun c hc => ?_, rfl⟩⟩
    obtain ⟨_, hc'⟩ := not_not.mp (mt exists_error.mpr (mt escapes_rereadReport.mp
      fun hescapes => hreread ⟨c, hc, hescapes⟩))
    exact hc'
  · rintro h ⟨code, hcode⟩
    obtain ⟨results, hresults, hsummary, hreread, -⟩ := runChecks_eq_ok.mp hcode
    obtain ⟨c, hc, hcheck⟩ | ⟨exn, hexn⟩ | ⟨c, hc, hescapes⟩ := h
    · exact exists_error.mp (escapes_runCheck.mpr hcheck) (exists_mapM_eq_ok.mp ⟨_, hresults⟩ c hc)
    · rw [hsummary] at hexn
      cases hexn
    · exact exists_error.mp (escapes_rereadReport.mpr hescapes) ⟨(), hreread c hc⟩

theorem raised_iff : (∃ exn, runSelected host run = .raised exn) ↔ RunEscapes host run := by
  rw [runSelected]
  split
  case h_1 hcreated =>
    refine iff_of_false (by simp) fun h => ?_
    cases h with
    | created h hexn => exact hexn (Except.error.inj (h.symm.trans hcreated))
    | check h | summary h | reread h => cases h.symm.trans hcreated
  case h_2 exn hexn hcreated =>
    exact iff_of_true ⟨exn, rfl⟩ (.created hcreated fun h => hexn h)
  case h_3 hcreated =>
    have hraised : (∃ exn, (match runChecks host run with
        | .ok code => Ending.returned code
        | .error exn => .raised exn) = .raised exn) ↔ ∃ exn, runChecks host run = .error exn := by
      cases runChecks host run <;> simp
    refine hraised.trans (escapes_runChecks.trans ?_)
    constructor
    · rintro (⟨c, hc, h⟩ | ⟨exn, h⟩ | ⟨c, hc, hephemeral, htool, h⟩)
      · exact .check hcreated hc h
      · exact .summary hcreated h
      · exact .reread hcreated hephemeral hc htool h
    · intro h
      cases h with
      | created h => cases h.symm.trans hcreated
      | check _ hc h => exact .inl ⟨_, hc, h⟩
      | summary _ h => exact .inr (.inl ⟨_, h⟩)
      | reread _ hephemeral hc htool h => exact .inr (.inr ⟨_, hc, hephemeral, htool, h⟩)

/-! The exit code. -/

theorem exitCode_cases (results : List Result) :
    exitCode results = 0 ∨ exitCode results = 1 ∨ exitCode results = 2 := by
  rw [exitCode]
  split
  · exact .inr (.inr rfl)
  · split
    · exact .inr (.inl rfl)
    · exact .inl rfl

theorem status_of_exitCode {results : List Result} (h : exitCode results ≠ 2) :
    ∀ r ∈ results, r.status = .passed ∨ r.status = .findings := by
  rw [exitCode] at h
  split at h
  case isTrue => contradiction
  case isFalse hall =>
    intro r hr
    by_contra hstatus
    exact hall (List.any_eq_true.mpr ⟨r, hr, by simpa using hstatus⟩)

theorem exitCode_eq_zero {results : List Result} (h : exitCode results = 0) :
    ∀ r ∈ results, r.status = .passed := by
  intro r hr
  obtain hpassed | hfindings := status_of_exitCode (by rw [h]; decide) r hr
  · exact hpassed
  · have hsome : results.any (·.status = .findings) = true :=
      List.any_eq_true.mpr ⟨r, hr, decide_eq_true hfindings⟩
    rw [exitCode, hsome] at h
    split at h <;> cases h

theorem exitCode_eq_one {results : List Result} (h : exitCode results = 1) :
    ∃ r ∈ results, r.status = .findings := by
  rw [exitCode] at h
  split at h
  case isTrue => cases h
  case isFalse =>
    split at h
    case isFalse => cases h
    case isTrue hsome =>
      obtain ⟨r, hr, hfindings⟩ := List.any_eq_true.mp hsome
      exact ⟨r, hr, of_decide_eq_true hfindings⟩

/-- Only a run whose checks all end gives a code other than 2. -/
theorem runChecks_of_gives {code : Nat} (h : (runSelected host run).Gives code) (hcode : code ≠ 2) :
    runChecks host run = .ok code := by
  rw [runSelected] at h
  split at h
  case h_1 =>
    rcases h with h | h
    · cases h
    · exact absurd (Ending.systemExit.inj h).symm hcode
  case h_2 => rcases h with h | h <;> cases h
  case h_3 =>
    cases hchecks : runChecks host run with
    | ok code' =>
      rw [hchecks] at h
      rcases h with h | h
      · rw [Ending.returned.inj h]
      · cases h
    | error exn =>
      rw [hchecks] at h
      rcases h with h | h <;> cases h

theorem action_ne_compliance {results : List Result}
    (h : exitCode (withCompliance run results) ≠ 2) : run.action ≠ .compliance := by
  intro haction
  have hmanual := status_of_exitCode h { status := .manual, reason := some .noEvidence }
    (by rw [withCompliance, if_pos haction]; exact List.mem_append_right _ List.mem_cons_self)
  simp at hmanual

/-- What a check with complete output has read. -/
theorem classify_of_attempt {c : Check F} {result : Result} (h : c.attempt host run = .ok result)
    (hstatus : result.status = .passed ∨ result.status = .findings) :
    ∃ completed, c.scan = .ok completed ∧
      classify host.decoder host.decimal c.tool completed.returncode completed.stdout c.report
        (some c.after) = .ok result.status := by
  obtain ⟨command, -, h⟩ := bind_eq_ok.mp h
  split at h
  case isTrue =>
    cases h
    simp at hstatus
  case isFalse =>
    obtain ⟨configured, -, h⟩ := bind_eq_ok.mp h
    split at h
    case isTrue =>
      cases h
      simp at hstatus
    case isFalse =>
      obtain ⟨completed, hscan, h⟩ := bind_eq_ok.mp h
      obtain ⟨_, -, h⟩ := bind_eq_ok.mp h
      obtain ⟨status, hclassify, h⟩ := bind_eq_ok.mp h
      cases h
      exact ⟨completed, hscan, hclassify⟩

theorem reportsFinding_of_status {c : Check F} (h : HasStatus host run c .findings) :
    ReportsFinding host c := by
  obtain ⟨result, hresult, hstatus⟩ := h
  have hattempt : c.attempt host run = .ok result := by
    refine (handle_eq_ok fun exn hexn => ?_).mp hresult
    rw [← hexn] at hstatus
    cases hstatus
  obtain ⟨completed, hscan, hclassify⟩ := classify_of_attempt hattempt (.inr hstatus)
  rw [hstatus] at hclassify
  obtain ⟨findings, hcomplete, hverdict⟩ := (classify_eq_ok (.inr rfl)).mp hclassify
  exact ⟨completed, findings, hscan, verdict_eq_findings.mp hverdict.symm, hcomplete⟩

/-- The results behind a code other than 2. -/
theorem results_of_gives {code : Nat} (h : (runSelected host run).Gives code) (hcode : code ≠ 2) :
    run.action ≠ .compliance ∧ ∃ results, run.checks.mapM (runCheck host run) = .ok results ∧
      exitCode results = code := by
  obtain ⟨results, hresults, -, -, hexit⟩ := runChecks_eq_ok.mp (runChecks_of_gives h hcode)
  have haction : run.action ≠ .compliance := action_ne_compliance (hexit.symm ▸ hcode)
  rw [withCompliance, if_neg haction] at hexit
  exact ⟨haction, results, hresults, hexit⟩

theorem passed_of_classify {tool : Tool} {returncode : Int} {stdout : String}
    {report : Except Exn String} {root : Option (Files F)}
    (h : classify host.decoder host.decimal tool returncode stdout report root = .ok .passed) :
    returncode = 0 ∧ Output host.decoder host.decimal root stdout report [] tool := by
  obtain ⟨findings, ⟨-, hcode, houtput⟩, hverdict⟩ := (classify_eq_ok (.inl rfl)).mp h
  obtain rfl := verdict_eq_passed.mp hverdict.symm
  exact ⟨hcode.resolve_right (not_not.mpr rfl), houtput⟩

theorem two_of_ended (h : ¬ ∃ exn, runSelected host run = .raised exn)
    (hzero : ¬ (runSelected host run).Gives 0) (hone : ¬ (runSelected host run).Gives 1) :
    (runSelected host run).Gives 2 := by
  rw [runSelected] at *
  split
  case h_1 => exact .inr rfl
  case h_2 exn _ hcreated =>
    simp only [hcreated] at h
    exact absurd ⟨exn, rfl⟩ h
  case h_3 hcreated =>
    simp only [hcreated] at h hzero hone
    cases hchecks : runChecks host run with
    | error exn =>
      rw [hchecks] at h
      exact absurd ⟨exn, rfl⟩ h
    | ok code =>
      rw [hchecks] at hzero hone
      obtain ⟨results, -, -, -, hexit⟩ := runChecks_eq_ok.mp hchecks
      obtain hcode | hcode | hcode := exitCode_cases (withCompliance run results)
      · exact absurd (.inl (congrArg _ (hexit.symm.trans hcode))) hzero
      · exact absurd (.inl (congrArg _ (hexit.symm.trans hcode))) hone
      · exact .inl (congrArg _ (hexit.symm.trans hcode))

/-- An exception gives no code. -/
theorem not_failsClosed_of_raised {exn : Exn} (h : runSelected host run = .raised exn) :
    ¬ FailsClosed host run := by
  intro hclosed
  have hnone : ∀ code, ¬ (runSelected host run).Gives code := by
    rintro code (hcode | hcode) <;> cases h.symm.trans hcode
  exact hnone 2 (hclosed.two (hnone 0) (hnone 1))

/-- The gate fails closed as long as no exception ends the run. -/
theorem fails_closed_iff : FailsClosed host run ↔ ¬ RunEscapes host run := by
  rw [← raised_iff]
  constructor
  · rintro h ⟨exn, hraised⟩
    exact not_failsClosed_of_raised hraised h
  · intro hraised
    refine ⟨fun _ _ _ _ _ => passed_of_classify, fun h => ?_, fun h => ?_, two_of_ended hraised⟩
    · obtain ⟨haction, results, hresults, hexit⟩ := results_of_gives h (by decide)
      refine ⟨haction, fun c hc => ?_⟩
      obtain ⟨result, hmem, hresult⟩ := exists_of_mem_left hresults hc
      exact ⟨result, hresult, exitCode_eq_zero hexit result hmem⟩
    · obtain ⟨haction, results, hresults, hexit⟩ := results_of_gives h (by decide)
      refine ⟨haction, fun c hc => ?_, ?_⟩
      · obtain ⟨result, hmem, hresult⟩ := exists_of_mem_left hresults hc
        have hstatus := status_of_exitCode (by rw [hexit]; decide) result hmem
        exact hstatus.imp (fun h => ⟨result, hresult, h⟩) fun h => ⟨result, hresult, h⟩
      · obtain ⟨result, hmem, hfindings⟩ := exitCode_eq_one hexit
        obtain ⟨c, hc, hresult⟩ := exists_of_mem_right hresults hmem
        have hstatus : HasStatus host run c .findings := ⟨result, hresult, hfindings⟩
        exact ⟨c, hc, hstatus, reportsFinding_of_status hstatus⟩

end gate

/-! A report that is nested too deep. -/

section nested

def noFiles : Files Written where
  root := ["repository"]
  workingDirectory := ["repository"]
  pyproject := .error .osError
  resolve := .ok
  isDir _ := .ok false
  isFile _ := .ok false
  rglob _ := []

/-- The interpreter decodes fewer than a thousand open brackets. -/
def interpreter : Host Written where
  decoder :=
    { floats := written
      tooDeep := fun s => 1000 ≤ (s.toList.takeWhile (· = '[')).length
      tooLong := fun _ => false }
  decimal := Char.isDigit
  executable := "/usr/bin/python3"
  installed _ := true

/-- A scan for secrets with this output. -/
def secretsCheck (stdout : String) : Check Written where
  tool := .detectSecrets
  before := noFiles
  found _ := true
  patterns := .error .osError
  scan := .ok ⟨0, stdout⟩
  kept := .ok ()
  report := .error .osError
  after := noFiles
  isFile := .ok false
  reread := .error .osError

def secretsRun (stdout : String) : Run Written where
  action := .secrets
  args := {}
  directory := ["repository", "reports"]
  checks := [secretsCheck stdout]
  created := .ok ()
  summary := .ok ()

theorem runCheck_tooDeep {stdout : String} {run : Run Written}
    (h : interpreter.decoder.tooDeep stdout = true) :
    runCheck interpreter run (secretsCheck stdout) = .error .recursionError := by
  have hloads : interpreter.decoder.loads stdout = .error .recursionError := by
    rw [Decoder.loads, if_pos h]
  rw [runCheck, handle_eq_error]
  refine ⟨?_, rfl⟩
  simp [Check.attempt, Check.command, commandFor, secretsCheck, Check.patternsConfigured, classify,
    reportText, hloads]

theorem runSelected_tooDeep {stdout : String} (h : interpreter.decoder.tooDeep stdout = true) :
    runSelected interpreter (secretsRun stdout) = .raised .recursionError := by
  have hchecks : runChecks interpreter (secretsRun stdout) = .error .recursionError := by
    rw [runChecks, secretsRun, List.mapM_cons, runCheck_tooDeep h]
    rfl
  have hcreated : (secretsRun stdout).created = .ok () := rfl
  rw [runSelected, hcreated, hchecks]

/-- Brackets that are never closed. -/
def nested (n : Nat) : String := String.ofList (List.replicate n '[')

theorem nested_tooDeep {n : Nat} (h : 1000 ≤ n) :
    interpreter.decoder.tooDeep (nested n) = true := by
  simpa [interpreter, nested, String.toList_ofList, List.takeWhile_replicate] using h

/-- `RecursionError` is not caught, so that the scan is no error. -/
theorem nested_report_raises :
    runSelected interpreter (secretsRun (nested 100000)) = .raised .recursionError ∧
      ¬ FailsClosed interpreter (secretsRun (nested 100000)) := by
  have hdeep : interpreter.decoder.tooDeep (nested 100000) = true := nested_tooDeep (by decide)
  have hraised := runSelected_tooDeep hdeep
  exact ⟨hraised, not_failsClosed_of_raised hraised⟩

end nested

end Marty.Scripts.SecurityScan
