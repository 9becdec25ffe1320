import Synthetos.Lib.Json
import Synthetos.Lib.Text
import Mathlib.Algebra.GroupWithZero.Nat

/-!
# Remediation strategies

Each failure class maps to a focused strategy.  When a focused strategy was already tried for the
class, the selection escalates to broad debug.
-/

namespace Synthetos.Remediation

open Lib

structure StrategyResult where
  strategy : String
  strategyTier : String
  remediable : Bool  -- `false` skips to the postmortem
  reasoning : String
  overrides : Dict := []

structure StrategyInputs where
  failureClass : String
  stderrTail : String
  limits : Dict
  priorStrategies : List String
  priorFailureClasses : List String
  expectedArtifacts : List Dict
  artifactManifest : List Dict
  codePlan : Dict
  host : Text.Host := Text.asciiHost

def timeoutCapSeconds : Int := 14400

def skipResult (reasoning : String) : StrategyResult := ⟨"skip", "focused", false, reasoning, []⟩

def broadDebugResult (reasoning : String) : StrategyResult :=
  ⟨"debug_broad", "broad", true, reasoning, []⟩

def needsEscalation (inputs : StrategyInputs) : Bool :=
  (inputs.priorStrategies.zip inputs.priorFailureClasses).any fun prior =>
    prior.2 == inputs.failureClass && prior.1 != "debug_broad"

def isQuote (c : Char) : Bool := c == '\'' || c == '"'

/-- The first quoted word on the line, with the text behind it. -/
def quotedWord : List Char → Option (List Char × List Char)
  | [] => none
  | c :: rest =>
    let word := rest.takeWhile fun d => !isQuote d
    match isQuote c && !word.isEmpty, rest.drop word.length with
    | true, _ :: behind => some (word, behind)
    | _, _ => if c == '\n' then none else quotedWord rest

/-- A letter of the pattern, matched in any case; two letters beyond ASCII are cases of `i`. -/
def sameLetter (letter c : Char) : Bool :=
  letter.toLower == c.toLower || letter.toLower == 'i' && (c == '\u0130' || c == '\u0131')

def behindKeyword : List Char → List Char → Option (List Char)
  | [], text => some text
  | letter :: keyword, c :: text => if sameLetter letter c then behindKeyword keyword text else none
  | _ :: _, [] => none

/-- A match of the pattern at the start of the text: the quoted word, with the text behind it. -/
def importError (text : List Char) : Option (List Char × List Char) :=
  ((behindKeyword "ModuleNotFoundError".toList text).bind quotedWord).or
    ((behindKeyword "ImportError".toList text).bind quotedWord)

/-- Quoted words after `ModuleNotFoundError` or `ImportError`; `fuel` bounds the scan. -/
def importErrors : Nat → List Char → List (List Char)
  | 0, _ => []
  | _ + 1, [] => []
  | fuel + 1, c :: rest =>
    match importError (c :: rest) with
    | some (word, behind) => word :: importErrors fuel behind
    | none => importErrors fuel rest

/-- `_extract_missing_modules`: top-level package names, in order and at most ten. -/
def extractMissingModules (stderrTail : String) : List String :=
  let matched := importErrors stderrTail.length stderrTail.toList
  ((matched.map fun name => String.ofList (Text.beforeFirst '.' name)).eraseDups).take 10

/-- `_parse_memory`, in gigabytes; lower case beyond ASCII has no `g`, `m` or digit. -/
def parseMemory (memory : Json) : Except String Int :=
  let text := Text.lower (Text.strip memory.strChars)
  let parsed (digits : List Char) : Except String Int :=
    match Text.int? digits with
    | some n => .ok n
    | none => .error "ValueError: invalid literal for int()"
  match text.getLast? with
  | some 'g' => parsed text.dropLast
  | some 'm' => (parsed text.dropLast).map fun n => max 1 (n / 1024)
  | _ => .ok ((Text.int? text).getD 16)

def jsonInt (v : Json) : Except String Int :=
  match v with
  | .int n => .ok n
  | .bool b => .ok (if b then 1 else 0)
  | .float q => .ok (if q < 0 then -(-q).floor else q.floor)
  | .str s => match Text.int? s.toList with
    | some n => .ok n
    | none => .error "ValueError: invalid literal for int()"
  | _ => .error "TypeError: int() argument must be a string or a number"

/-- The largest integer whose product with 1.5 is a finite float. -/
@[irreducible] def timesThreeHalvesLimit : Nat := (2 ^ 55 - 5) / 3 * 2 ^ 970

/-- `int(n * 1.5)`.  Floats round from 2 ^ 53 on, where the product is past every cap. -/
def timesThreeHalves (n : Int) : Except String Int :=
  if n.natAbs ≤ timesThreeHalvesLimit then .ok ((n * 3).tdiv 2)
  else .error "OverflowError: int too large to convert to float"

def dependencyStrategy (inputs : StrategyInputs) : StrategyResult :=
  if needsEscalation inputs then
    broadDebugResult "Focused dep-install already tried; escalating to broad debug."
  else
    let missing := extractMissingModules inputs.stderrTail
    if missing.isEmpty then
      broadDebugResult "Dependency failure but could not parse missing module names."
    else
      let names := ", ".intercalate missing
      ⟨"install_deps", "focused", true, s!"Missing modules detected: {names}.",
        [("build_recipe", .obj [("extra_pip_packages", .arr (missing.map .str))])]⟩

def oomStrategy (inputs : StrategyInputs) : Except String StrategyResult :=
  if needsEscalation inputs then
    .ok (broadDebugResult "OOM after memory increase; escalating to broad debug.")
  else do
    let currentMem ← parseMemory (inputs.limits.getD "memory" (.str "16g"))
    let newMem := min (currentMem * 2) 64
    if newMem ≤ currentMem then return skipResult "Memory already at cap (64g)."
    return ⟨"increase_memory", "focused", true,
      s!"Doubling memory from {currentMem}GB to {newMem}GB.",
      [("run_resource_limits", .obj [("memory", .str s!"{newMem}g")])]⟩

def timeoutStrategy (inputs : StrategyInputs) : Except String StrategyResult :=
  if needsEscalation inputs then
    .ok (broadDebugResult "Timeout after increase; escalating to broad debug.")
  else do
    let currentTimeout ← jsonInt (inputs.limits.getD "timeout" (.int 3600))
    let newTimeout := min (← timesThreeHalves currentTimeout) timeoutCapSeconds
    if newTimeout ≤ currentTimeout then
      return skipResult s!"Timeout already at cap ({timeoutCapSeconds}s)."
    return ⟨"extend_timeout", "focused", true,
      s!"Increasing timeout from {currentTimeout}s to {newTimeout}s.",
      [("run_resource_limits", .obj [("timeout", .int newTimeout)])]⟩

/-- `str(entry.get(key, "")).strip()` -/
def entryText (entry : Dict) (key : String) : List Char :=
  Text.strip (entry.getD key (.str "")).strChars

/-- `str(entry.get("path") or entry.get("name") or "")` -/
def entryPath (entry : Dict) : List Char :=
  match (entry.get? "path").filter Json.truthy, (entry.get? "name").filter Json.truthy with
  | some path, _ => path.strChars
  | none, some name => name.strChars
  | none, none => []

def artifactExtension (host : Text.Host) (path : List Char) : List Char :=
  if path.contains '.' then host.lower (Text.afterLast '.' path) else []

def patchedFiles (producedPath expectedPath : List Char) (files : Dict) : Dict :=
  let producedBasename := Text.afterLast '/' producedPath
  let expectedBasename := Text.afterLast '/' expectedPath
  files.filterMap fun (path, content) =>
    match content with
    | .str text =>
      let moved := Text.replace producedPath expectedPath text.toList
      let updated :=
        if producedBasename ≠ [] ∧ producedBasename ≠ expectedBasename then
          Text.replace producedBasename expectedBasename moved
        else moved
      if updated = text.toList then none else some (path, .str (String.ofList updated))
    | _ => none

/-- `_select_invalid_artifact_fix`: a deterministic path repair when one is obvious. -/
def selectInvalidArtifactFix (inputs : StrategyInputs) : Option StrategyResult := do
  let manifestNames := (inputs.artifactManifest.filter fun entry =>
    (entry.getD "name" .null).truthy).map (entryText · "name")
  let missingRequired := inputs.expectedArtifacts.filter fun artifact =>
    let name := entryText artifact "name"
    (artifact.getD "required" (.bool true)).truthy && !name.isEmpty && !manifestNames.contains name
  let [expected] := missingRequired | none
  let expectedName := entryText expected "name"
  let expectedPath := match (expected.get? "path").filter Json.truthy with
    | some path => Text.strip path.strChars
    | none => expectedName
  if expectedPath.isEmpty then none else
  let candidates := inputs.artifactManifest.filter fun entry =>
    artifactExtension inputs.host (entryPath entry) == artifactExtension inputs.host expectedPath &&
      entryText entry "name" != expectedName
  let [produced] := candidates | none
  let producedPath := Text.strip (entryPath produced)
  if producedPath.isEmpty then none else
  let .obj files := inputs.codePlan.getD "files" (.obj []) | none
  let patched := patchedFiles producedPath expectedPath files
  if patched.isEmpty then none else
  let producedName := match (produced.get? "name").filter Json.truthy with
    | some name => Text.strip name.strChars
    | none => []
  let shown := String.ofList (if producedName.isEmpty then producedPath else producedName)
  let wanted := String.ofList expectedName
  some ⟨"repair_artifact_path", "focused", true,
    s!"Expected artifact '{wanted}' was missing, but produced artifact '{shown}' matched the extension. Rewriting file references to the expected artifact path.",
    [("code_plan", .obj [("patched_files", .obj patched)]),
      ("artifact_rewrite", .obj [("from", .str (String.ofList producedPath)),
        ("to", .str (String.ofList expectedPath))])]⟩

def artifactStrategy (inputs : StrategyInputs) : StrategyResult :=
  if needsEscalation inputs then
    broadDebugResult "Artifact fix already tried; escalating to broad debug."
  else match selectInvalidArtifactFix inputs with
  | some fix => fix
  | none => broadDebugResult "Invalid artifact output was ambiguous; escalating to broad debug."

def selectStrategy (inputs : StrategyInputs) : Except String StrategyResult :=
  if inputs.failureClass = "metric_parse" then
    .ok (skipResult "Metric parse failures are not auto-remediable.")
  else if inputs.failureClass = "dependency" then .ok (dependencyStrategy inputs)
  else if inputs.failureClass = "oom" then oomStrategy inputs
  else if inputs.failureClass = "timeout" then timeoutStrategy inputs
  else if inputs.failureClass = "invalid_artifact" then .ok (artifactStrategy inputs)
  else if inputs.failureClass = "runtime" then
    .ok (broadDebugResult "Runtime exception; LLM analysis needed for code fix.")
  else .ok (skipResult
    s!"Unknown failure class '{inputs.failureClass}'; cannot auto-remediate.")

example : extractMissingModules
    "ModuleNotFoundError: No module named 'torch.nn'\nimporterror: \"numpy\"" =
      ["torch", "numpy"] := by decide +kernel

end Synthetos.Remediation
