import Marty.Scripts.ScanVerdicts

/-! The exceptions that `classify` raises and `run_check` does not catch. -/

namespace Marty.Scripts.SecurityScan

open Lib Lib.Exceptions Lib.JsonText

variable {F : Type} {value data : Value F} {key : String}

/-! Reading a value raises nothing else than what malformed data raise. -/

theorem Exn.caught_of_malformed (exn : Exn) (h : exn.malformed = true) : exn.caught = true := by
  cases exn with
  | recursionError => cases h
  | other name => cases h
  | _ => rfl

theorem not_escapes_item : ¬ Escapes Exn.malformed (item key data) := by
  cases data with
  | obj entries =>
    rw [item]
    cases entries.lookup key with
    | none => simp [Exn.malformed]
    | some value => exact escapes_ok value
  | _ => simp [item, Exn.malformed]

theorem not_escapes_get {default : Value F} : ¬ Escapes Exn.malformed (get key default data) := by
  cases data with
  | obj entries => exact escapes_ok _
  | _ => simp [get, Exn.malformed]

theorem not_escapes_iterate : ¬ Escapes Exn.malformed (iterate data) := by
  cases data with
  | arr items => exact escapes_ok _
  | obj entries => exact escapes_ok _
  | str s => exact escapes_ok _
  | _ => simp [iterate, Exn.malformed]

theorem not_escapes_values : ¬ Escapes Exn.malformed (values data) := by
  cases data with
  | obj entries => exact escapes_ok _
  | _ => simp [values, Exn.malformed]

theorem not_escapes_bind {α β : Type} {r : Except Exn α} {f : α → Except Exn β}
    (hr : ¬ Escapes Exn.malformed r) (hf : ∀ a, ¬ Escapes Exn.malformed (f a)) :
    ¬ Escapes Exn.malformed (r >>= f) := by
  rw [escapes_bind, not_or]
  exact ⟨hr, fun ⟨a, _, h⟩ => hf a h⟩

theorem escapes_errorIf {α : Type} {caught : Exn → Bool} {bad : Bool}
    {rest : Except Exn (Option α)} :
    Escapes caught (errorIf bad rest) ↔ bad = false ∧ Escapes caught rest := by
  cases bad <;> simp [errorIf]

theorem not_escapes_errorIf {α : Type} {bad : Bool} {rest : Except Exn (Option α)}
    (h : ¬ Escapes Exn.malformed rest) : ¬ Escapes Exn.malformed (errorIf bad rest) :=
  fun hrest => h (escapes_errorIf.mp hrest).2

section reports

variable {decoder : Decoder F} {decimal : Char → Bool} {root : Option (Files F)}
  {returncode : Int}

theorem not_escapes_reportFindings {tool : Tool} (htool : tool ≠ .bandit) :
    ¬ Escapes Exn.malformed (reportFindings decoder decimal root returncode data tool) := by
  cases tool with
  | bandit => contradiction
  | pipAudit =>
    refine not_escapes_errorIf (not_escapes_bind not_escapes_item fun dependencies => ?_)
    refine not_escapes_errorIf (not_escapes_bind not_escapes_iterate fun dependencies => ?_)
    refine not_escapes_bind (not_escapes_anyM fun d _ => ?_) fun skipped => not_escapes_errorIf ?_
    · exact not_escapes_bind not_escapes_get fun _ => escapes_ok _
    · refine not_escapes_bind (not_escapes_mapM fun d _ => ?_) fun _ => escapes_ok _
      exact not_escapes_bind not_escapes_item fun _ => not_escapes_iterate
  | detectSecrets =>
    refine not_escapes_errorIf (not_escapes_bind ?_ fun results => ?_)
    · exact not_escapes_bind not_escapes_item fun _ => not_escapes_values
    · exact not_escapes_bind (not_escapes_mapM fun _ _ => not_escapes_iterate) fun _ => escapes_ok _
  | semgrep =>
    refine not_escapes_errorIf (not_escapes_bind not_escapes_item fun errors => ?_)
    refine not_escapes_errorIf (not_escapes_bind ?_ fun scanned => not_escapes_errorIf ?_)
    · exact not_escapes_bind not_escapes_item fun _ => not_escapes_item
    · exact not_escapes_bind not_escapes_item fun _ => escapes_ok _
  | grype =>
    refine not_escapes_errorIf (not_escapes_bind not_escapes_get fun source => ?_)
    exact not_escapes_errorIf (not_escapes_bind not_escapes_item fun _ => escapes_ok _)
  | syft =>
    refine not_escapes_errorIf (not_escapes_bind not_escapes_get fun version => ?_)
    exact not_escapes_errorIf (escapes_ok _)
  | hadolint => exact not_escapes_errorIf (escapes_ok _)
  | _ => exact not_escapes_errorIf (not_escapes_bind not_escapes_item fun _ => escapes_ok _)

variable (decimal) in
/-- Reading the scope of the scan, or a path of the report, raises an exception that is not
caught. -/
def ListingEscapes (files : Files F) (metrics : Value F) : Prop :=
  Escapes Exn.caught (banditPolicy decimal files) ∨
    ∃ policy, banditPolicy decimal files = .ok policy ∧
      (Escapes Exn.caught (banditInventory files policy) ∨
        ∃ expected, banditInventory files policy = .ok expected ∧
          ∃ entries, metrics = .obj entries ∧
            FirstEscapes Exn.caught (fun name => files.resolve (Path.join files.root name))
              ((entries.map (·.1)).filter (· ≠ "_totals")))

variable (decoder decimal root returncode) in
/-- The output of a scan at which `classify` raises an exception that is not caught. -/
def OutputEscapes (stdout : String) (report : Except Exn String) : Tool → Prop
  | .gitSecrets => False
  | .trufflehog => returncode ∈ Tool.codes .trufflehog ∧
      FirstEscapes Exn.caught decoder.loads (rows stdout)
  | .bandit => Escapes Exn.caught report ∨ ∃ content, report = .ok content ∧
      (decoder.tooDeep content = true ∨ ∃ data metrics results,
        decoder.loads content = .ok data ∧ returncode ∈ Tool.codes .bandit ∧
          BanditReport data metrics results ∧ ∃ files ∈ root, ListingEscapes decimal files metrics)
  | _ => decoder.tooDeep stdout = true

theorem escapes_loads_of {caught : Exn → Bool} (hvalue : caught .valueError = true)
    (hdeep : caught .recursionError = false) {s : String} :
    Escapes caught (decoder.loads s) ↔ decoder.tooDeep s = true := by
  rw [Decoder.loads]
  cases decoder.tooDeep s with
  | true => simp [hdeep]
  | false =>
    cases decoder.tooLong s with
    | true => simp [hvalue]
    | false => cases JsonText.loads decoder.floats s <;> simp [hvalue]

theorem escapes_loads {s : String} :
    Escapes Exn.caught (decoder.loads s) ↔ decoder.tooDeep s = true := escapes_loads_of rfl rfl

theorem escapes_checkListing {files : Files F} {metrics : Value F} :
    Escapes Exn.caught (checkListing decimal files metrics) ↔
      ListingEscapes decimal files metrics := by
  have hmissing : ∀ missing : List Path, ¬ Escapes Exn.caught
      (if missing.isEmpty then .ok () else .error (.refused ("Bandit report omitted " ++
        toString missing.length ++ " in-scope Python files")) : Except Exn Unit) := by
    intro missing
    split <;> simp [Exn.caught]
  have hscanned : Escapes Exn.caught (scannedFiles files metrics) ↔
      ∃ entries, metrics = .obj entries ∧
        FirstEscapes Exn.caught (fun name => files.resolve (Path.join files.root name))
          ((entries.map (·.1)).filter (· ≠ "_totals")) := by
    cases metrics with
    | obj entries => simp [scannedFiles, escapes_mapM]
    | _ => simp [scannedFiles, Exn.caught]
  simp only [checkListing, escapes_bind, hmissing, and_false, exists_false, or_false, hscanned,
    ListingEscapes]

theorem escapes_checkRoot {metrics : Value F} :
    Escapes Exn.caught (checkRoot decimal metrics root) ↔
      ∃ files ∈ root, ListingEscapes decimal files metrics := by
  cases root with
  | none => simp [checkRoot]
  | some files => simp [checkRoot, escapes_checkListing]

theorem escapes_banditFindings :
    Escapes Exn.caught (banditFindings decoder decimal root returncode data) ↔
      returncode ∈ Tool.codes .bandit ∧ ∃ metrics results, BanditReport data metrics results ∧
        ∃ files ∈ root, ListingEscapes decimal files metrics := by
  have hitem : ∀ key (data : Value F), ¬ Escapes Exn.caught (item key data) :=
    fun _ _ h => not_escapes_item (h.mono Exn.caught_of_malformed)
  have hget : ∀ key (default data : Value F), ¬ Escapes Exn.caught (get key default data) :=
    fun _ _ _ h => not_escapes_get (h.mono Exn.caught_of_malformed)
  simp only [banditFindings, escapes_bind, hitem, hget, escapes_ok, escapes_errorIf,
    escapes_checkRoot, item_eq_ok, and_false, exists_false, false_or, or_false,
    decide_eq_false_iff_not, not_not, Bool.or_eq_false_iff, Bool.not_eq_false', Tool.codes]
  constructor
  · rintro ⟨metrics, hmetrics, loc, hloc, hcode, errors, herrors, hempty, results, hresults,
      ⟨hlist, hpositive⟩, h⟩
    obtain ⟨found, -, hreport⟩ := banditReport_iff.mp
      ⟨hmetrics, loc, hloc, ⟨errors, herrors, hempty⟩, hresults, hlist, hpositive⟩
    exact ⟨hcode, metrics, found, hreport, h⟩
  · rintro ⟨hcode, metrics, found, hreport, h⟩
    obtain ⟨hmetrics, loc, hloc, ⟨errors, herrors, hempty⟩, hresults, hlist, hpositive⟩ :=
      banditReport_iff.mpr ⟨found, rfl, hreport⟩
    exact ⟨metrics, hmetrics, loc, hloc, hcode, errors, herrors, hempty, _, hresults,
      ⟨hlist, hpositive⟩, h⟩

section output

variable {tool : Tool} {stdout : String} {report : Except Exn String}

theorem escapes_reportText (htool : tool ≠ .bandit) :
    Escapes Exn.caught (reportText tool stdout report >>= decoder.loads) ↔
      decoder.tooDeep stdout = true := by
  rw [reportText, if_neg htool, ok_bind, escapes_loads]

theorem escapes_classify_bandit :
    Escapes Exn.caught (classify decoder decimal .bandit returncode stdout report root) ↔
      OutputEscapes decoder decimal root returncode stdout report .bandit := by
  simp only [classify, reportText, if_true, escapes_bind, escapes_loads, escapes_ok, and_false,
    exists_false, or_false, escapes_banditFindings, reportFindings, bind_eq_ok, OutputEscapes]
  constructor
  · rintro ((hreport | ⟨content, hcontent, hdeep⟩) | ⟨data, ⟨content, hcontent, hdata⟩, hcode,
      metrics, results, h⟩)
    · exact .inl hreport
    · exact .inr ⟨content, hcontent, .inl hdeep⟩
    · exact .inr ⟨content, hcontent, .inr ⟨data, metrics, results, hdata, hcode, h⟩⟩
  · rintro (hreport | ⟨content, hcontent, hdeep | ⟨data, metrics, results, hdata, hcode, h⟩⟩)
    · exact .inl (.inl hreport)
    · exact .inl (.inr ⟨content, hcontent, hdeep⟩)
    · exact .inr ⟨data, ⟨content, hcontent, hdata⟩, hcode, metrics, results, h⟩

theorem escapes_classify_trufflehog :
    Escapes Exn.caught (classify decoder decimal .trufflehog returncode stdout report root) ↔
      OutputEscapes decoder decimal root returncode stdout report .trufflehog := by
  rw [classify, OutputEscapes, Tool.codes]
  by_cases hcode : returncode ∈ [0, 183]
  · rw [if_neg (not_not.mpr hcode), escapes_bind, escapes_mapM, and_iff_right hcode]
    simp only [escapes_ok, and_false, exists_false, or_false]
  · rw [if_pos hcode]
    exact iff_of_false (escapes_ok _) fun h => hcode h.1

/-- The exceptions that leave `classify` for good. -/
theorem escapes_classify :
    Escapes Exn.caught (classify decoder decimal tool returncode stdout report root) ↔
      OutputEscapes decoder decimal root returncode stdout report tool := by
  by_cases hbandit : tool = .bandit
  · subst hbandit
    exact escapes_classify_bandit
  by_cases htrufflehog : tool = .trufflehog
  · subst htrufflehog
    exact escapes_classify_trufflehog
  by_cases hsecrets : tool = .gitSecrets
  · subst hsecrets
    exact iff_of_false (escapes_ok _) id
  have hfindings : ∀ data : Value F, ¬ Escapes Exn.caught
      (reportFindings decoder decimal root returncode data tool) :=
    fun _ h => not_escapes_reportFindings hbandit (h.mono Exn.caught_of_malformed)
  rw [classify_report htrufflehog hsecrets, escapes_bind, escapes_reportText hbandit]
  simp only [escapes_bind, hfindings, escapes_ok, and_false, exists_false, or_false]
  cases tool with
  | bandit | trufflehog | gitSecrets => contradiction
  | _ => rfl

end output

end reports

end Marty.Scripts.SecurityScan
