import Marty.Lib.Exceptions
import Marty.Lib.JsonText
import Marty.Lib.Text

/-! `command_for` of `security_scan`: the commands of the scanners, and the source files that Bandit
has to list.  `pyproject.toml` is given as the value that `tomllib` makes of it, dates left out. -/

namespace Marty.Scripts.SecurityScan

open Lib Lib.Exceptions Lib.JsonText

/-- The exceptions, by the classes that are told apart.  `refused` is a `ValueError` that the source
raises with the text. -/
inductive Exn
  | osError
  | valueError
  | refused (text : String)
  | keyError
  | typeError
  | attributeError
  | stopIteration
  | importError
  | timeoutExpired
  | recursionError
  | other (name : String)
  deriving DecidableEq

/-- The exceptions that `run_check` catches. -/
def Exn.caught : Exn → Bool
  | .recursionError | .other _ => false
  | _ => true

/-- The exceptions of data that are not as they should be. -/
def Exn.malformed : Exn → Bool
  | .valueError | .refused _ | .keyError | .typeError | .attributeError => true
  | _ => false

inductive Tool
  | bandit | pipAudit | safety | semgrep | detectSecrets | trufflehog | gitSecrets | hadolint
  | syft | grype
  deriving DecidableEq

def Tool.name : Tool → String
  | .bandit => "bandit"
  | .pipAudit => "pip-audit"
  | .safety => "safety"
  | .semgrep => "semgrep"
  | .detectSecrets => "detect-secrets"
  | .trufflehog => "trufflehog"
  | .gitSecrets => "git-secrets"
  | .hadolint => "hadolint"
  | .syft => "syft"
  | .grype => "grype"

variable {F : Type}

/-! Values. -/

/-- `data[key]` -/
def item (key : String) : Value F → Except Exn (Value F)
  | .obj entries =>
    match entries.lookup key with
    | some value => .ok value
    | none => .error .keyError
  | _ => .error .typeError

/-- `data.get(key, default)` -/
def get (key : String) (default : Value F) : Value F → Except Exn (Value F)
  | .obj entries => .ok ((entries.lookup key).getD default)
  | _ => .error .attributeError

/-- What an iteration over the value gives. -/
def iterate : Value F → Except Exn (List (Value F))
  | .arr values => .ok values
  | .obj entries => .ok (entries.map fun e => .str e.1)
  | .str s => .ok (s.toList.map fun c => .str (String.singleton c))
  | _ => .error .typeError

/-- A text where only a text will do. -/
def text : Value F → Except Exn String
  | .str s => .ok s
  | _ => .error .typeError

/-! Paths. -/

/-- The components of an absolute path. -/
abbrev Path := List String

namespace Path

/-- `str(path)` -/
def text (path : Path) : String := "/" ++ "/".intercalate path

def components (name : String) : Path :=
  ((name.toList.splitOn '/').map String.ofList).filter (· ∉ ["", "."])

/-- `root / name` -/
def join (root : Path) (name : String) : Path :=
  if name.toList.head? = some '/' then components name else root ++ components name

/-- `path.relative_to(root).as_posix()` -/
def relativeTo (root path : Path) : Except Exn String :=
  if root.isPrefixOf path then .ok ("/".intercalate (path.drop root.length))
  else .error .valueError

end Path

/-- What the file system answers while one function runs. -/
structure Files (F : Type) where
  root : Path
  workingDirectory : Path
  pyproject : Except Exn (Value F)
  resolve : Path → Except Exn Path
  isDir : Path → Except Exn Bool
  isFile : Path → Except Exn Bool
  rglob : Path → List (Except Exn Path)

/-! `fnmatch.fnmatch` -/

inductive Token
  | star
  | any
  | char (c : Char)
  | set (negated : Bool) (ranges : List (Char × Char))

namespace Token

def ranges : List Char → List (Char × Char)
  | c :: '-' :: d :: text => (c, d) :: ranges text
  | c :: text => (c, c) :: ranges text
  | [] => []

/-- The set after a bracket, and what follows its end.  A bracket that comes first does not end
it. -/
def scanSet (text : List Char) : Option (Token × List Char) :=
  let negated := text.head? = some '!'
  match if negated then text.tail else text with
  | [] => none
  | c :: text =>
    match text.dropWhile (· ≠ ']') with
    | [] => none
    | _ :: rest => some (.set negated (ranges (c :: text.takeWhile (· ≠ ']'))), rest)

/-- The recursion is bounded by its first argument. -/
def scan : Nat → List Char → List Token
  | 0, _ | _, [] => []
  | fuel + 1, '*' :: text => .star :: scan fuel text
  | fuel + 1, '?' :: text => .any :: scan fuel text
  | fuel + 1, '[' :: text =>
    match scanSet text with
    | some (token, rest) => token :: scan fuel rest
    | none => .char '[' :: scan fuel text
  | fuel + 1, c :: text => .char c :: scan fuel text

def accepts (c : Char) : Token → Bool
  | .star | .any => true
  | .char c' => c = c'
  | .set negated ranges => negated != ranges.any fun range => range.1 ≤ c && c ≤ range.2

def run : List Token → List Char → Bool
  | [], text => text.isEmpty
  | .star :: tokens, text => text.tails.any (run tokens)
  | token :: tokens, c :: text => accepts c token && run tokens text
  | _ :: _, [] => false

end Token

def fnmatch (name pattern : String) : Bool :=
  Token.run (Token.scan pattern.length pattern.toList) name.toList

example : fnmatch "packages/tests/unit.py" "*/tests/*" = true := by decide +kernel

/-- `command[0]`, and the rest of the command. -/
structure Command where
  program : String
  arguments : List String

/-! Bandit. -/

section bandit

variable (decimal : Char → Bool) (files : Files F)

/-- `re.fullmatch(r"\d+\.\d+\.\d+", version)`; `decimal` is the class of `\d`. -/
def exactRelease (version : String) : Bool :=
  let parts := version.toList.splitOn '.'
  parts.length = 3 && parts.all fun part => !part.isEmpty && part.all decimal

def banditPolicy : Except Exn (Value F) := do
  let config ← files.pyproject
  let policy ← item "tool" config >>= item "security_scan" >>= item "bandit"
  let version ← item "version" policy >>= text
  if !exactRelease decimal version then
    .error (.refused "Bandit requires an exact release version")
  else do
    let excludeDirs ← item "tool" config >>= item "bandit" >>= get "exclude_dirs" (.arr [])
    match policy with
    | .obj entries => .ok (.obj (Dict.set "exclude_dirs" excludeDirs entries))
    | _ => .error .typeError

/-- `any(pattern in name or fnmatch.fnmatch(name, pattern) for pattern in exclude_dirs)` -/
def excluded (policy : Value F) (name : String) : Except Exn Bool := do
  let patterns ← item "exclude_dirs" policy >>= iterate
  patterns.anyM fun pattern => do
    let pattern ← text pattern
    .ok (Text.contains pattern name || fnmatch name pattern)

/-- The files below a source directory that are not excluded. -/
def targetFiles (policy : Value F) (root directory : Path) : Except Exn (List Path) := do
  let found ← (files.rglob directory).mapM fun path => do
    let path ← path
    let name ← Path.relativeTo root path
    if ← excluded policy name then .ok none else (files.resolve path).map some
  .ok found.reduceOption

def targetInventory (policy : Value F) (root : Path) (target : Value F) :
    Except Exn (List Path) := do
  let name ← text target
  let directory ← files.resolve (Path.join root name)
  let isDir ← if root.isPrefixOf directory then files.isDir directory else .ok false
  if !isDir then
    .error (.refused
      ("Bandit source directory is missing or outside the repository: " ++ name))
  else do
    let inventory ← targetFiles files policy root directory
    if inventory.isEmpty then
      .error (.refused
        ("Bandit source directory contains no in-scope Python files: " ++ name))
    else .ok inventory

def banditInventory (policy : Value F) : Except Exn (List Path) := do
  let root ← files.resolve files.root
  let targets ← item "targets" policy
  match targets with
  | .arr (target :: targets) =>
    do
      let inventory ← (target :: targets).mapM (targetInventory files policy root)
      .ok inventory.flatten
  | _ => .error (.refused "Bandit requires nonempty source targets")

def banditCommand (output : Path) : Except Exn Command := do
  let policy ← banditPolicy decimal files
  let _ ← banditInventory files policy
  let version ← item "version" policy >>= text
  let targets ← item "targets" policy >>= iterate >>= List.mapM text
  .ok ⟨"uv", ["run", "--no-project", "--with", "bandit[toml]==" ++ version, "bandit", "-c",
    "pyproject.toml", "-r"] ++ targets ++ ["-f", "json", "-o", output.text]⟩

end bandit

/-- The arguments of the script that a check reads. -/
structure Args where
  image : Option String := none
  filesystem : Option String := none
  dockerfile : Option (List String) := none
  ephemeral : Bool := false

/-- `re.fullmatch(r"(?:[^\s@-][^\s@]*@)?sha256:[0-9a-fA-F]{64}", target)` -/
def digestPinned (target : String) : Bool :=
  let isDigest (text : List Char) : Bool :=
    text.take 7 = "sha256:".toList && (text.drop 7).length = 64 &&
      (text.drop 7).all fun c => (JsonLexeme.hexValue c).isSome
  let named (name : List Char) : Bool :=
    name.all (fun c => !Text.isSpace c) && name.head? ≠ none && name.head? ≠ some '-'
  match target.toList.splitOn '@' with
  | [digest] => isDigest digest
  | [name, digest] => named name && isDigest digest
  | _ => false

/-- What a container check scans. -/
def containerTarget (files : Files F) (args : Args) : Except Exn String :=
  match Text.truthy args.image, Text.truthy args.filesystem with
  | some image, _ =>
    if digestPinned image then .ok image
    else .error (.refused "Supply a digest-pinned --image, or use --filesystem explicitly")
  | none, some filesystem => do
    let directory ← files.resolve (Path.join files.workingDirectory filesystem)
    if ← files.isDir directory then .ok ("dir:" ++ directory.text)
    else .error (.refused "Filesystem scan directory does not exist")
  | none, none =>
    .error (.refused
      "Container checks require --image or --filesystem; no local images are auto-selected")

section commands

variable (decimal : Char → Bool) (executable : String) (installed : String → Bool)
  (files : Files F) (output : Path) (args : Args)

/-- `executable` is `sys.executable`, and `installed` is `_installed`. -/
def commandFor : Tool → Except Exn Command
  | .bandit => banditCommand decimal files output
  | .pipAudit =>
    if installed "marty-common" then .ok ⟨executable, ["-m", "pip_audit", "--format=json"]⟩
    else .error (.refused "Install marty-common in this interpreter before dependency auditing")
  | .safety => .ok ⟨"safety", ["check", "--json"]⟩
  | .semgrep => .ok ⟨"semgrep", ["scan", "--config=auto", "--json", "--error", "src",
      "packages/marty-common/marty_common"]⟩
  | .detectSecrets => .ok ⟨"detect-secrets", ["scan", "--no-verify"]⟩
  | .trufflehog => .ok ⟨"trufflehog", ["filesystem", files.root.text, "--json", "--fail",
      "--no-update", "--no-verification"]⟩
  | .gitSecrets => .ok ⟨"git", ["secrets", "--scan"]⟩
  | .hadolint =>
    match args.dockerfile.getD [] with
    | [] => .error (.refused "hadolint requires explicit --dockerfile paths")
    | dockerfile => do
      let paths ← dockerfile.mapM fun path => files.resolve (Path.join files.root path)
      if ← paths.allM files.isFile then
        .ok ⟨"hadolint", ["--format", "json"] ++ paths.map Path.text⟩
      else .error (.refused "Every --dockerfile path must identify an existing file")
  | .syft => do
    let target ← containerTarget files args
    .ok ⟨"syft", [target, "-o", "spdx-json"]⟩
  | .grype => do
    let target ← containerTarget files args
    .ok ⟨"grype", [target, "-o", "json"]⟩

end commands

end Marty.Scripts.SecurityScan
