import Mathlib.Data.List.Dedup
import Marty.Scripts.ScanReports

/-! The scans that are passed or have findings, by their return codes and reports. -/

namespace Marty.Scripts.SecurityScan

open Lib Lib.Exceptions Lib.JsonText

variable {F : Type} {value data : Value F} {key : String}

/-! Values that are read. -/

theorem item_eq_ok : item key data = .ok value ↔ data.get? key = some value := by
  cases data with
  | obj entries =>
    rw [item, Value.get?]
    cases entries.lookup key <;> simp
  | _ => simp [item, Value.get?]

theorem get_eq_ok {default : Value F} : get key default data = .ok value ↔
    ∃ entries, data = .obj entries ∧ (entries.lookup key).getD default = value := by
  cases data with
  | obj entries => simp [get]
  | _ => simp [get]

theorem get?_eq_some : data.get? key = some value ↔
    ∃ entries, data = .obj entries ∧ entries.lookup key = some value := by
  cases data with
  | obj entries => simp [Value.get?]
  | _ => simp [Value.get?]

section recognised

variable (decoder : Decoder F) (decimal : Char → Bool) (root : Option (Files F))

/-- Every in-scope file is named by the metrics of the report. -/
def Listed (files : Files F) (metrics : Value F) : Prop :=
  ∃ policy expected scanned, banditPolicy decimal files = .ok policy ∧
    banditInventory files policy = .ok expected ∧ scannedFiles files metrics = .ok scanned ∧
    ∀ path ∈ expected, path ∈ scanned

/-- The fields of a Bandit report that are read, with no errors. -/
def BanditReport (data metrics : Value F) (results : List (Value F)) : Prop :=
  ∃ totals loc, data.get? "metrics" = some metrics ∧ metrics.get? "_totals" = some totals ∧
    totals.get? "loc" = some (.int loc) ∧ 0 < loc ∧ data.get? "errors" = some (.arr []) ∧
    data.get? "results" = some (.arr results)

/-- A complete report of the tool, with these findings. -/
def Recognised (data : Value F) (findings : List (Value F)) : Tool → Prop
  | .bandit => ∃ metrics, BanditReport data metrics findings ∧
      ∀ files ∈ root, Listed decimal files metrics
  | .pipAudit => ∃ dependencies vulns, data.get? "dependencies" = some (.arr dependencies) ∧
      dependencies ≠ [] ∧
      (∀ d ∈ dependencies, ∃ entries, d = .obj entries ∧
        truthy decoder ((entries.lookup "skip_reason").getD .null) = false) ∧
      List.Forall₂ (fun d found => ∃ v, d.get? "vulns" = some v ∧ iterate v = .ok found)
        dependencies vulns ∧ findings = vulns.flatten
  | .detectSecrets => ∃ entries found, data.get? "results" = some (.obj entries) ∧
      List.Forall₂ (fun e values => iterate e.2 = .ok values) entries found ∧
      findings = found.flatten
  | .semgrep => ∃ errors paths scanned, data.get? "errors" = some errors ∧
      truthy decoder errors = false ∧ data.get? "paths" = some paths ∧
      paths.get? "scanned" = some scanned ∧ truthy decoder scanned = true ∧
      data.get? "results" = some (.arr findings)
  | .grype => ∃ source, data.get? "source" = some source ∧ truthy decoder source = true ∧
      data.get? "matches" = some (.arr findings)
  | .syft => ∃ version packages, data.get? "spdxVersion" = some version ∧
      truthy decoder version = true ∧ data.get? "packages" = some packages ∧ findings = []
  | .hadolint => data = .arr findings
  | .safety | .trufflehog | .gitSecrets => data.get? "vulnerabilities" = some (.arr findings)

/-- The return codes that a tool has for a scan that it completed. -/
def Tool.codes : Tool → List Int
  | .bandit | .pipAudit | .semgrep | .hadolint => [0, 1]
  | .safety => [0, 64]
  | .trufflehog => [0, 183]
  | .detectSecrets | .grype | .syft | .gitSecrets => [0]

variable (returncode : Int) (stdout : String) (report : Except Exn String)

/-- The output of a scan that was completed with these findings. -/
def Output (findings : List (Value F)) : Tool → Prop
  | .gitSecrets => findings = []
  | .trufflehog =>
      List.Forall₂ (fun row found => decoder.loads row = .ok found) (rows stdout) findings
  | .bandit => ∃ content data, report = .ok content ∧ decoder.loads content = .ok data ∧
      Recognised decoder decimal root data findings .bandit
  | tool => ∃ data, decoder.loads stdout = .ok data ∧
      Recognised decoder decimal root data findings tool

/-- A code other than 0 comes with a finding. -/
def Complete (tool : Tool) (findings : List (Value F)) : Prop :=
  returncode ∈ tool.codes ∧ (returncode = 0 ∨ findings ≠ []) ∧
    Output decoder decimal root stdout report findings tool

end recognised

section verdicts

variable {decoder : Decoder F} {decimal : Char → Bool} {root : Option (Files F)}
  {returncode : Int} {findings : List (Value F)}

theorem checkListing_eq_ok {files : Files F} {metrics : Value F} :
    checkListing decimal files metrics = .ok () ↔ Listed decimal files metrics := by
  have hmissing : ∀ expected scanned : List Path,
      (expected.filter (· ∉ scanned)).dedup.isEmpty = true ↔ ∀ path ∈ expected, path ∈ scanned := by
    intro expected scanned
    rw [List.isEmpty_iff, List.dedup_eq_nil, List.filter_eq_nil_iff]
    simp
  simp only [checkListing, bind_eq_ok, Listed]
  refine exists_congr fun policy => ?_
  constructor
  · rintro ⟨hpolicy, expected, hexpected, scanned, hscanned, h⟩
    refine ⟨expected, scanned, hpolicy, hexpected, hscanned, (hmissing expected scanned).mp ?_⟩
    by_contra hsome
    rw [if_neg hsome] at h
    cases h
  · rintro ⟨expected, scanned, hpolicy, hexpected, hscanned, h⟩
    exact ⟨hpolicy, expected, hexpected, scanned, hscanned, if_pos ((hmissing _ _).mpr h)⟩

theorem loc_eq_ok {metrics : Value F} {loc : Value F} (hloc : isPositiveInt loc = true) :
    (get "_totals" (.obj []) metrics >>= get "loc" .null) = .ok loc ↔
      ∃ totals, metrics.get? "_totals" = some totals ∧ totals.get? "loc" = some loc := by
  cases metrics with
  | obj entries =>
    rw [get, ok_bind, Value.get?]
    cases entries.lookup "_totals" with
    | none =>
      refine iff_of_false ?_ (by simp)
      intro h
      cases h
      cases hloc
    | some totals =>
      cases totals with
      | obj totals =>
        simp only [Option.getD_some, get, Except.ok.injEq, Option.some.injEq, exists_eq_left',
          Value.get?]
        cases totals.lookup "loc" with
        | none =>
          refine iff_of_false ?_ (by simp)
          rintro rfl
          cases hloc
        | some value => simp
      | _ => simp [get, Value.get?]
  | _ => simp [get, Value.get?]

@[simp] theorem errorIf_eq_ok {α : Type} {bad : Bool} {rest : Except Exn (Option α)} {a : α} :
    errorIf bad rest = .ok (some a) ↔ bad = false ∧ rest = .ok (some a) := by
  cases bad <;> simp [errorIf]

theorem isList_eq_true : isList value = true ↔ ∃ values, value = .arr values := by
  cases value <;> simp [isList]

theorem isPositiveInt_eq_true : isPositiveInt value = true ↔ ∃ n, value = .int n ∧ 0 < n := by
  cases value <;> simp [isPositiveInt]

theorem emptyList_iff :
    isList value = true ∧ truthy decoder value = false ↔ value = .arr [] := by
  cases value with
  | arr values => cases values <;> simp [isList, truthy, Value.truthy]
  | _ => simp [isList]

theorem checkRoot_eq_ok {metrics : Value F} :
    checkRoot decimal metrics root = .ok () ↔ ∀ files ∈ root, Listed decimal files metrics := by
  cases root with
  | none => simp [checkRoot]
  | some files => simp [checkRoot, checkListing_eq_ok]

/-- The checks of a Bandit report that come before the list of files. -/
theorem banditReport_iff {metrics results : Value F} :
    (data.get? "metrics" = some metrics ∧ ∃ loc,
      (get "_totals" (.obj []) metrics >>= get "loc" .null) = .ok loc ∧
      (∃ errors, data.get? "errors" = some errors ∧
        (isList errors = true ∧ truthy decoder errors = false)) ∧
      data.get? "results" = some results ∧ isList results = true ∧ isPositiveInt loc = true) ↔
      ∃ found, results = .arr found ∧ BanditReport data metrics found := by
  simp only [emptyList_iff, exists_eq_right]
  constructor
  · rintro ⟨hmetrics, loc, hloc, herrors, hresults, hlist, hpositive⟩
    obtain ⟨totals, htotals, hloc⟩ := (loc_eq_ok hpositive).mp hloc
    obtain ⟨n, rfl, hn⟩ := isPositiveInt_eq_true.mp hpositive
    obtain ⟨found, rfl⟩ := isList_eq_true.mp hlist
    exact ⟨found, rfl, totals, n, hmetrics, htotals, hloc, hn, herrors, hresults⟩
  · rintro ⟨found, rfl, totals, n, hmetrics, htotals, hloc, hn, herrors, hresults⟩
    have hpositive : isPositiveInt (F := F) (.int n) = true :=
      isPositiveInt_eq_true.mpr ⟨n, rfl, hn⟩
    exact ⟨hmetrics, .int n, (loc_eq_ok hpositive).mpr ⟨totals, htotals, hloc⟩, herrors, hresults,
      rfl, hpositive⟩

theorem banditFindings_eq_ok :
    banditFindings decoder decimal root returncode data = .ok (some (.arr findings)) ↔
      returncode ∈ Tool.codes .bandit ∧ Recognised decoder decimal root data findings .bandit := by
  simp only [banditFindings, bind_eq_ok (r := item _ data), bind_eq_ok (r := _ >>= _), item_eq_ok,
    errorIf_eq_ok, Tool.codes, Recognised, decide_eq_false_iff_not, not_not,
    Bool.or_eq_false_iff, Bool.not_eq_false']
  constructor
  · rintro ⟨metrics, hmetrics, loc, hloc, hcode, errors, herrors, hempty, results, hresults,
      ⟨hlist, hpositive⟩, h⟩
    obtain ⟨_, hroot, hfindings⟩ := bind_eq_ok.mp h
    cases hfindings
    obtain ⟨found, hfound, hreport⟩ := banditReport_iff.mp
      ⟨hmetrics, loc, hloc, ⟨errors, herrors, hempty⟩, hresults, hlist, hpositive⟩
    cases hfound
    exact ⟨hcode, metrics, hreport, checkRoot_eq_ok.mp hroot⟩
  · rintro ⟨hcode, metrics, hreport, hroot⟩
    obtain ⟨hmetrics, loc, hloc, ⟨errors, herrors, hempty⟩, hresults, hlist, hpositive⟩ :=
      banditReport_iff.mpr ⟨findings, rfl, hreport⟩
    exact ⟨metrics, hmetrics, loc, hloc, hcode, errors, herrors, hempty, _, hresults,
      ⟨hlist, hpositive⟩, bind_eq_ok.mpr ⟨(), checkRoot_eq_ok.mpr hroot, rfl⟩⟩

theorem unskipped_iff {dependencies : List (Value F)} :
    (dependencies.anyM fun d => do
      let reason ← get "skip_reason" .null d
      .ok (truthy decoder reason)) = .ok false ↔
      ∀ d ∈ dependencies, ∃ entries, d = .obj entries ∧
        truthy decoder ((entries.lookup "skip_reason").getD .null) = false := by
  rw [anyM_eq_false]
  refine forall₂_congr fun d _ => ?_
  simp only [bind_eq_ok, get_eq_ok, Except.ok.injEq]
  constructor
  · rintro ⟨_, ⟨entries, rfl, rfl⟩, h⟩
    exact ⟨entries, rfl, h⟩
  · rintro ⟨entries, rfl, h⟩
    exact ⟨_, ⟨entries, rfl, rfl⟩, h⟩

/-- Dictionaries are the items of a list only. -/
theorem dicts_of_iterate {items : List (Value F)} (htruthy : truthy decoder value = true)
    (h : iterate value = .ok items) (hdicts : ∀ d ∈ items, ∃ entries, d = .obj entries) :
    value = .arr items ∧ items ≠ [] := by
  cases value with
  | arr _ =>
    cases h
    cases items with
    | nil => simp [truthy, Value.truthy] at htruthy
    | cons d items => exact ⟨rfl, List.cons_ne_nil d items⟩
  | obj entries =>
    cases h
    cases entries with
    | nil => simp [truthy, Value.truthy] at htruthy
    | cons e entries =>
      obtain ⟨_, he⟩ := hdicts _ List.mem_cons_self
      cases he
  | str s =>
    have hs : s ≠ "" := by simpa [truthy, Value.truthy] using htruthy
    cases h
    obtain ⟨c, text, htext⟩ := List.exists_cons_of_ne_nil (mt String.toList_eq_nil_iff.mp hs)
    rw [htext] at hdicts
    obtain ⟨_, hc⟩ := hdicts _ List.mem_cons_self
    cases hc
  | _ => cases h

theorem pipAuditFindings_eq_ok :
    pipAuditFindings decoder returncode data = .ok (some (.arr findings)) ↔
      returncode ∈ Tool.codes .pipAudit ∧
        Recognised decoder decimal root data findings .pipAudit := by
  simp only [pipAuditFindings, bind_eq_ok, errorIf_eq_ok, item_eq_ok, mapM_eq_ok, Tool.codes,
    Recognised, decide_eq_false_iff_not, not_not, Except.ok.injEq, Option.some.injEq,
    Value.arr.injEq, Bool.not_eq_false']
  refine and_congr_right fun _ => ?_
  constructor
  · rintro ⟨value, hvalue, htruthy, dependencies, hdependencies, _, hskipped, rfl, vulns, hvulns,
      rfl⟩
    have hdicts := unskipped_iff.mp hskipped
    obtain ⟨rfl, hne⟩ := dicts_of_iterate htruthy hdependencies fun d hd =>
      (hdicts d hd).imp fun _ => And.left
    exact ⟨dependencies, vulns, hvalue, hne, hdicts, hvulns, rfl⟩
  · rintro ⟨dependencies, vulns, hvalue, hne, hdicts, hvulns, rfl⟩
    have htruthy : truthy decoder (.arr dependencies) = true := by
      simpa [truthy, Value.truthy] using hne
    exact ⟨_, hvalue, htruthy, dependencies, rfl, false, unskipped_iff.mpr hdicts, rfl, vulns,
      hvulns, rfl⟩

theorem detectSecretsFindings_eq_ok :
    detectSecretsFindings returncode data = .ok (some (.arr findings)) ↔
      returncode ∈ Tool.codes .detectSecrets ∧
        Recognised decoder decimal root data findings .detectSecrets := by
  simp only [detectSecretsFindings, bind_eq_ok, errorIf_eq_ok, item_eq_ok, mapM_eq_ok, Tool.codes,
    Recognised, decide_eq_false_iff_not, not_not, Except.ok.injEq, Option.some.injEq,
    Value.arr.injEq, List.mem_singleton]
  refine and_congr_right fun _ => ?_
  constructor
  · rintro ⟨results, ⟨value, hvalue, hvalues⟩, found, hfound, rfl⟩
    cases value with
    | obj entries =>
      cases hvalues
      exact ⟨entries, found, hvalue, List.forall₂_map_left_iff.mp hfound, rfl⟩
    | _ => cases hvalues
  · rintro ⟨entries, found, hvalue, hfound, rfl⟩
    exact ⟨_, ⟨_, hvalue, rfl⟩, found, List.forall₂_map_left_iff.mpr hfound, rfl⟩

theorem semgrepFindings_eq_ok :
    semgrepFindings decoder returncode data = .ok (some (.arr findings)) ↔
      returncode ∈ Tool.codes .semgrep ∧
        Recognised decoder decimal root data findings .semgrep := by
  simp only [semgrepFindings, bind_eq_ok, errorIf_eq_ok, item_eq_ok, Tool.codes, Recognised,
    decide_eq_false_iff_not, not_not, Except.ok.injEq, Option.some.injEq, Bool.not_eq_false']
  refine and_congr_right fun _ => ?_
  constructor
  · rintro ⟨errors, herrors, hfalsy, scanned, ⟨paths, hpaths, hscanned⟩, htruthy, _, hresults, rfl⟩
    exact ⟨errors, paths, scanned, herrors, hfalsy, hpaths, hscanned, htruthy, hresults⟩
  · rintro ⟨errors, paths, scanned, herrors, hfalsy, hpaths, hscanned, htruthy, hresults⟩
    exact ⟨errors, herrors, hfalsy, scanned, ⟨paths, hpaths, hscanned⟩, htruthy, _, hresults, rfl⟩

theorem getD_of_truthy {entries : List (String × Value F)}
    (h : (entries.lookup key).getD .null = value) (htruthy : truthy decoder value = true) :
    Value.get? key (.obj entries) = some value := by
  rw [Value.get?]
  cases hlookup : entries.lookup key with
  | none =>
    rw [hlookup] at h
    subst h
    cases htruthy
  | some value' =>
    rw [hlookup] at h
    rw [← h, Option.getD_some]

theorem grypeFindings_eq_ok :
    grypeFindings decoder returncode data = .ok (some (.arr findings)) ↔
      returncode ∈ Tool.codes .grype ∧ Recognised decoder decimal root data findings .grype := by
  simp only [grypeFindings, bind_eq_ok, errorIf_eq_ok, item_eq_ok, get_eq_ok, Tool.codes,
    Recognised, decide_eq_false_iff_not, not_not, Except.ok.injEq, Option.some.injEq,
    Bool.not_eq_false', List.mem_singleton]
  refine and_congr_right fun _ => ?_
  constructor
  · rintro ⟨source, ⟨entries, rfl, hsource⟩, htruthy, _, hfound, rfl⟩
    refine ⟨source, ?_, htruthy, hfound⟩
    exact getD_of_truthy hsource htruthy
  · rintro ⟨source, hsource, htruthy, hfound⟩
    obtain ⟨entries, rfl, hlookup⟩ := get?_eq_some.mp hsource
    refine ⟨source, ⟨entries, rfl, ?_⟩, htruthy, _, hfound, rfl⟩
    rw [hlookup, Option.getD_some]

theorem syftFindings_eq_ok :
    syftFindings decoder returncode data = .ok (some (.arr findings)) ↔
      returncode ∈ Tool.codes .syft ∧ Recognised decoder decimal root data findings .syft := by
  simp only [syftFindings, bind_eq_ok, errorIf_eq_ok, get_eq_ok, Tool.codes, Recognised,
    decide_eq_false_iff_not, not_not, Except.ok.injEq, Option.some.injEq, Bool.or_eq_false_iff,
    Bool.not_eq_false', List.mem_singleton, Value.arr.injEq, Option.isNone_eq_false_iff,
    Option.isSome_iff_exists]
  refine and_congr_right fun _ => ?_
  constructor
  · rintro ⟨version, ⟨entries, rfl, hversion⟩, ⟨htruthy, packages, hpackages⟩, rfl⟩
    exact ⟨version, packages, getD_of_truthy hversion htruthy, htruthy, hpackages, rfl⟩
  · rintro ⟨version, packages, hversion, htruthy, hpackages, rfl⟩
    obtain ⟨entries, rfl, hlookup⟩ := get?_eq_some.mp hversion
    refine ⟨version, ⟨entries, rfl, ?_⟩, ⟨htruthy, packages, hpackages⟩, rfl⟩
    rw [hlookup, Option.getD_some]

theorem hadolintFindings_eq_ok :
    hadolintFindings returncode data = .ok (some (.arr findings)) ↔
      returncode ∈ Tool.codes .hadolint ∧
        Recognised decoder decimal root data findings .hadolint := by
  simp only [hadolintFindings, errorIf_eq_ok, Tool.codes, Recognised, Bool.or_eq_false_iff,
    decide_eq_false_iff_not, not_not, Except.ok.injEq, Option.some.injEq, Bool.not_eq_false',
    and_assoc]
  refine and_congr_right fun _ => ?_
  constructor
  · exact And.right
  · rintro rfl
    exact ⟨rfl, rfl⟩

theorem safetyFindings_eq_ok :
    safetyFindings returncode data = .ok (some (.arr findings)) ↔
      returncode ∈ Tool.codes .safety ∧ Recognised decoder decimal root data findings .safety := by
  simp only [safetyFindings, errorIf_eq_ok, bind_eq_ok, item_eq_ok, Tool.codes, Recognised,
    Bool.or_eq_false_iff, decide_eq_false_iff_not, not_not, Except.ok.injEq, Option.some.injEq,
    Bool.not_eq_false', and_assoc]
  refine and_congr_right fun _ => ?_
  constructor
  · rintro ⟨-, _, h, rfl⟩
    exact h
  · intro h
    obtain ⟨entries, rfl, hlookup⟩ := get?_eq_some.mp h
    exact ⟨rfl, _, h, rfl⟩

theorem reportFindings_eq_ok {tool : Tool} (htrufflehog : tool ≠ .trufflehog)
    (hsecrets : tool ≠ .gitSecrets) :
    reportFindings decoder decimal root returncode data tool = .ok (some (.arr findings)) ↔
      returncode ∈ tool.codes ∧ Recognised decoder decimal root data findings tool := by
  cases tool with
  | bandit => exact banditFindings_eq_ok
  | pipAudit => exact pipAuditFindings_eq_ok
  | safety => exact safetyFindings_eq_ok
  | semgrep => exact semgrepFindings_eq_ok
  | detectSecrets => exact detectSecretsFindings_eq_ok
  | trufflehog => contradiction
  | gitSecrets => contradiction
  | hadolint => exact hadolintFindings_eq_ok
  | syft => exact syftFindings_eq_ok
  | grype => exact grypeFindings_eq_ok

/-- The status of a complete scan. -/
def verdict (findings : List (Value F)) : Status :=
  if findings.isEmpty then .passed else .findings

theorem verdict_eq_passed : verdict findings = .passed ↔ findings = [] := by
  cases findings <;> simp [verdict]

theorem verdict_eq_findings : verdict findings = .findings ↔ findings ≠ [] := by
  cases findings <;> simp [verdict]

theorem judge_eq_iff {status : Status} (hstatus : status = .passed ∨ status = .findings)
    {value : Option (Value F)} : judge returncode value = status ↔
      ∃ findings, value = some (.arr findings) ∧ (returncode = 0 ∨ findings ≠ []) ∧
        status = verdict findings := by
  have herror : .error ≠ status := by rintro rfl; simp at hstatus
  cases value with
  | none => exact iff_of_false herror (by simp)
  | some value =>
    cases value with
    | arr findings =>
      simp only [Option.some.injEq, Value.arr.injEq, exists_eq_left']
      cases findings with
      | nil =>
        by_cases hcode : returncode = 0
        · simp [judge, verdict, hcode, eq_comm]
        · simp [judge, hcode, herror]
      | cons v findings => simp [judge, verdict, eq_comm]
    | _ => exact iff_of_false herror (by simp)

section output

variable {tool : Tool} {stdout : String} {report : Except Exn String}

theorem output_iff (htrufflehog : tool ≠ .trufflehog) (hsecrets : tool ≠ .gitSecrets) :
    Output decoder decimal root stdout report findings tool ↔
      ∃ data, (reportText tool stdout report >>= decoder.loads) = .ok data ∧
        Recognised decoder decimal root data findings tool := by
  cases tool with
  | trufflehog => contradiction
  | gitSecrets => contradiction
  | bandit =>
    simp only [Output, reportText, if_true, bind_eq_ok]
    constructor
    · rintro ⟨content, data, hcontent, hdata, h⟩
      exact ⟨data, ⟨content, hcontent, hdata⟩, h⟩
    · rintro ⟨data, ⟨content, hcontent, hdata⟩, h⟩
      exact ⟨content, data, hcontent, hdata, h⟩
  | _ => rfl

theorem classify_report (htrufflehog : tool ≠ .trufflehog) (hsecrets : tool ≠ .gitSecrets) :
    classify decoder decimal tool returncode stdout report root = (do
      let data ← reportText tool stdout report >>= decoder.loads
      let findings ← reportFindings decoder decimal root returncode data tool
      .ok (judge returncode findings)) := by
  cases tool with
  | trufflehog => contradiction
  | gitSecrets => contradiction
  | _ => rfl

section statuses

variable {status : Status} (hstatus : status = .passed ∨ status = .findings)

include hstatus

theorem error_ne : .error ≠ status := by
  rintro rfl
  simp at hstatus

theorem classify_gitSecrets_eq_ok :
    classify decoder decimal .gitSecrets returncode stdout report root = .ok status ↔
      ∃ findings, Complete decoder decimal root returncode stdout report .gitSecrets findings ∧
        status = verdict findings := by
  rw [classify, Except.ok.injEq]
  simp only [Complete, Output, Tool.codes, List.mem_singleton]
  by_cases hcode : returncode = 0
  · rw [if_pos hcode]
    constructor
    · rintro rfl
      exact ⟨[], ⟨hcode, .inl hcode, rfl⟩, rfl⟩
    · rintro ⟨findings, ⟨-, -, rfl⟩, rfl⟩
      rfl
  · rw [if_neg hcode]
    refine iff_of_false (error_ne hstatus) ?_
    rintro ⟨findings, ⟨h, -⟩, -⟩
    exact hcode h

theorem classify_trufflehog_eq_ok :
    classify decoder decimal .trufflehog returncode stdout report root = .ok status ↔
      ∃ findings, Complete decoder decimal root returncode stdout report .trufflehog findings ∧
        status = verdict findings := by
  rw [classify]
  simp only [Complete, Output, Tool.codes]
  by_cases hcode : returncode ∈ [0, 183]
  · rw [if_neg (not_not.mpr hcode)]
    simp only [bind_eq_ok, mapM_eq_ok, Except.ok.injEq, judge_eq_iff hstatus, Option.some.injEq,
      Value.arr.injEq]
    constructor
    · rintro ⟨_, hfound, findings, rfl, hfindings, hverdict⟩
      exact ⟨_, ⟨hcode, hfindings, hfound⟩, hverdict⟩
    · rintro ⟨findings, ⟨-, hfindings, hfound⟩, hverdict⟩
      exact ⟨findings, hfound, findings, rfl, hfindings, hverdict⟩
  · rw [if_pos hcode]
    refine iff_of_false (fun h => error_ne hstatus (Except.ok.inj h)) ?_
    rintro ⟨findings, ⟨h, -⟩, -⟩
    exact hcode h

/-- A scan is passed or has findings exactly when its output is complete. -/
theorem classify_eq_ok :
    classify decoder decimal tool returncode stdout report root = .ok status ↔
      ∃ findings, Complete decoder decimal root returncode stdout report tool findings ∧
        status = verdict findings := by
  by_cases hsecrets : tool = .gitSecrets
  · subst hsecrets
    exact classify_gitSecrets_eq_ok hstatus
  by_cases htrufflehog : tool = .trufflehog
  · subst htrufflehog
    exact classify_trufflehog_eq_ok hstatus
  rw [classify_report htrufflehog hsecrets, bind_eq_ok]
  simp only [Complete, output_iff htrufflehog hsecrets]
  constructor
  · rintro ⟨data, hdata, h⟩
    obtain ⟨_, hfound, h⟩ := bind_eq_ok.mp h
    obtain ⟨findings, rfl, hfindings, hverdict⟩ := (judge_eq_iff hstatus).mp (Except.ok.inj h)
    obtain ⟨hcode, hrecognised⟩ := (reportFindings_eq_ok htrufflehog hsecrets).mp hfound
    exact ⟨findings, ⟨hcode, hfindings, data, hdata, hrecognised⟩, hverdict⟩
  · rintro ⟨findings, ⟨hcode, hfindings, data, hdata, hrecognised⟩, hverdict⟩
    refine ⟨data, hdata, bind_eq_ok.mpr ⟨_,
      (reportFindings_eq_ok htrufflehog hsecrets).mpr ⟨hcode, hrecognised⟩, ?_⟩⟩
    exact congrArg _ ((judge_eq_iff hstatus).mpr ⟨findings, rfl, hfindings, hverdict⟩)

end statuses

end output

end verdicts

end Marty.Scripts.SecurityScan
