import Marty.Scripts.ScanCommands

/-! `classify` of `security_scan`: the status of a scan by its return code and its output. -/

namespace Marty.Scripts.SecurityScan

open Lib Lib.Exceptions Lib.JsonText

variable {F : Type}

/-- `json.loads`: at which texts the nesting is deeper than the interpreter's recursion limit, and
which have an integer of more digits than it converts. -/
structure Decoder (F : Type) where
  floats : FloatText F
  tooDeep : String → Bool
  tooLong : String → Bool

def Decoder.loads (decoder : Decoder F) (s : String) : Except Exn (Value F) :=
  if decoder.tooDeep s then .error .recursionError
  else if decoder.tooLong s then .error .valueError
  else
    match JsonText.loads decoder.floats s with
    | some data => .ok data
    | none => .error .valueError

inductive Status
  | passed | findings | error | unavailable | manual
  deriving DecidableEq

section classify

variable (decoder : Decoder F)

def truthy (value : Value F) : Bool := value.truthy decoder.floats

def isLineBreak (c : Char) : Bool :=
  c.toNat ∈ [0x0a, 0x0b, 0x0c, 0x0d, 0x1c, 0x1d, 0x1e, 0x85, 0x2028, 0x2029]

/-- The lines of `stdout.splitlines()` that are not blank. -/
def rows (stdout : String) : List String :=
  ((stdout.toList.splitOnP isLineBreak).map String.ofList).filter fun line => Text.strip line ≠ ""

def isList : Value F → Bool
  | .arr _ => true
  | _ => false

def isDict : Value F → Bool
  | .obj _ => true
  | _ => false

def isPositiveInt : Value F → Bool
  | .int n => 0 < n
  | _ => false

/-- The files that the metrics of a Bandit report name. -/
def scannedFiles (files : Files F) : Value F → Except Exn (List Path)
  | .obj entries => ((entries.map (·.1)).filter (· ≠ "_totals")).mapM fun name =>
      files.resolve (Path.join files.root name)
  | _ => .error .typeError

/-- Every in-scope file is in the report. -/
def checkListing (decimal : Char → Bool) (files : Files F) (metrics : Value F) :
    Except Exn Unit := do
  let policy ← banditPolicy decimal files
  let expected ← banditInventory files policy
  let scanned ← scannedFiles files metrics
  let missing := (expected.filter (· ∉ scanned)).dedup
  if missing.isEmpty then .ok ()
  else .error (.refused
    ("Bandit report omitted " ++ toString missing.length ++ " in-scope Python files"))

def checkRoot (decimal : Char → Bool) (metrics : Value F) : Option (Files F) → Except Exn Unit
  | some files => checkListing decimal files metrics
  | none => .ok ()

/-! The findings of a report, or none where the scan is an error at once. -/

/-- `if bad: return "error"` -/
def errorIf {α : Type} (bad : Bool) (rest : Except Exn (Option α)) : Except Exn (Option α) :=
  if bad then .ok none else rest

section reports

variable (decimal : Char → Bool) (root : Option (Files F)) (returncode : Int) (data : Value F)

def banditFindings : Except Exn (Option (Value F)) := do
  let metrics ← item "metrics" data
  let loc ← get "_totals" (.obj []) metrics >>= get "loc" .null
  errorIf (returncode ∉ [0, 1]) do
    let errors ← item "errors" data
    errorIf (!isList errors || truthy decoder errors) do
      let results ← item "results" data
      errorIf (!isList results || !isPositiveInt loc) do
        checkRoot decimal metrics root
        .ok (some results)

def pipAuditFindings : Except Exn (Option (Value F)) :=
  errorIf (returncode ∉ [0, 1]) do
    let dependencies ← item "dependencies" data
    errorIf (!truthy decoder dependencies) do
      let dependencies ← iterate dependencies
      let skipped ← dependencies.anyM fun d => do
        let reason ← get "skip_reason" .null d
        .ok (truthy decoder reason)
      errorIf skipped do
        let vulns ← dependencies.mapM fun d => item "vulns" d >>= iterate
        .ok (some (.arr vulns.flatten))

/-- `data.values()` -/
def values : Value F → Except Exn (List (Value F))
  | .obj entries => .ok (entries.map (·.2))
  | _ => .error .attributeError

def detectSecretsFindings : Except Exn (Option (Value F)) :=
  errorIf (returncode ≠ 0) do
    let results ← item "results" data >>= values
    let found ← results.mapM iterate
    .ok (some (.arr found.flatten))

def semgrepFindings : Except Exn (Option (Value F)) :=
  errorIf (returncode ∉ [0, 1]) do
    let errors ← item "errors" data
    errorIf (truthy decoder errors) do
      let scanned ← item "paths" data >>= item "scanned"
      errorIf (!truthy decoder scanned) do
        let results ← item "results" data
        .ok (some results)

def grypeFindings : Except Exn (Option (Value F)) :=
  errorIf (returncode ≠ 0) do
    let source ← get "source" .null data
    errorIf (!truthy decoder source) do
      let found ← item "matches" data
      .ok (some found)

def hadolintFindings : Except Exn (Option (Value F)) :=
  errorIf (returncode ∉ [0, 1] || !isList data) (.ok (some data))

def safetyFindings : Except Exn (Option (Value F)) :=
  errorIf (returncode ∉ [0, 64] || !isDict data) do
    let found ← item "vulnerabilities" data
    .ok (some found)

/-- A list of packages has no findings. -/
def syftFindings : Except Exn (Option (Value F)) :=
  errorIf (returncode ≠ 0) do
    let version ← get "spdxVersion" .null data
    errorIf (!truthy decoder version || (data.get? "packages").isNone) (.ok (some (.arr [])))

def reportFindings : Tool → Except Exn (Option (Value F))
  | .bandit => banditFindings decoder decimal root returncode data
  | .pipAudit => pipAuditFindings decoder returncode data
  | .detectSecrets => detectSecretsFindings returncode data
  | .semgrep => semgrepFindings decoder returncode data
  | .grype => grypeFindings decoder returncode data
  | .syft => syftFindings decoder returncode data
  | .hadolint => hadolintFindings returncode data
  | .safety | .trufflehog | .gitSecrets => safetyFindings returncode data

end reports

/-- The status by the return code and the findings. -/
def judge (returncode : Int) : Option (Value F) → Status
  | some (.arr []) => if returncode = 0 then .passed else .error
  | some (.arr (_ :: _)) => .findings
  | _ => .error

/-- `report.read_text(encoding="utf-8") if tool == "bandit" else stdout` -/
def reportText (tool : Tool) (stdout : String) (report : Except Exn String) : Except Exn String :=
  if tool = .bandit then report else .ok stdout

/-- `root` is given when the files of the repository are to be in the report. -/
def classify (decimal : Char → Bool) (tool : Tool) (returncode : Int) (stdout : String)
    (report : Except Exn String) (root : Option (Files F)) : Except Exn Status :=
  match tool with
  | .gitSecrets => .ok (if returncode = 0 then .passed else .error)
  | .trufflehog =>
    if returncode ∉ [0, 183] then .ok .error
    else do
      let found ← (rows stdout).mapM decoder.loads
      .ok (judge returncode (some (.arr found)))
  | tool => do
    let data ← reportText tool stdout report >>= decoder.loads
    let findings ← reportFindings decoder decimal root returncode data tool
    .ok (judge returncode findings)

end classify

end Marty.Scripts.SecurityScan
