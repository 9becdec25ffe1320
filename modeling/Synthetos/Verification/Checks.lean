import Synthetos.Core.Types
import Synthetos.Lib.Fields
import Synthetos.Lib.Floating

/-!
# Verification checks

The four checks of a completed run and the verdict drawn from them.  Specs are JSON objects as the
language model wrote them, so every reading of a field may raise.
-/

namespace Synthetos.Verification

open Synthetos.Core Lib

/-- What the host language decides by tables: texts that are numbers, and lower case. -/
structure Host where
  numeral : String → Option Floating
  lower : List Char → List Char

/-- `run.metrics_output`: finite numbers under different names. -/
structure Metrics where
  entries : List (String × Rat)
  nodup : (entries.map Prod.fst).Nodup

def Metrics.get? (metrics : Metrics) (name : String) : Option Rat := metrics.entries.lookup name

/-- One entry of `run.artifact_manifest`. -/
structure ManifestEntry where
  name : String
  path : Option String := none
  sizeBytes : Option Int := none
  hash : Option String := none

/-- `d.get(key)` or `key in d`, for a dictionary whose keys are texts. -/
def lookupJson {α : Type} (find : String → Option α) (key : Json) : Except String (Option α) :=
  match key with
  | .str s => .ok (find s)
  | _ => if hashable key then .ok none else .error "TypeError: unhashable type"

/-- `float(v)` where `v` may be absent or `None`. -/
def optionalFloat (host : Host) (fields : Dict) (key : String) : Except String (Option Floating) :=
  match fields.getD key .null with
  | .null => .ok none
  | v => some <$> float host.numeral v

/-! ### Baseline comparison -/

inductive MetricDetail where
  | notFound
  | threshold (bound : Floating)
  | baseline (bound : Floating)
  | informational
  deriving DecidableEq

structure MetricVerdict where
  name : Json
  value : Rat
  baselineValue : Option Floating := none
  delta : Option Floating := none
  direction : Json := .str "maximize"
  passed : Bool
  detail : MetricDetail

/-- `float(baseline_metrics[name])` under `if baseline_metrics and name in baseline_metrics`. -/
def baselineEntry (host : Host) (name : String) (baselineMetrics : Json) :
    Except String (Option Floating) :=
  if !baselineMetrics.truthy then .ok none
  else match baselineMetrics with
    | .obj fields => match Dict.get? fields name with
      | some v => some <$> float host.numeral v
      | none => .ok none
    | .arr items =>
      if items.any fun item => item.same (.str name) then
        .error "TypeError: list indices must be integers or slices, not str"
      else .ok none
    | .str s =>
      if containsText name.toList s.toList then
        .error "TypeError: string indices must be integers, not 'str'"
      else .ok none
    | _ => .error "TypeError: argument is not iterable"

def maximizes (specMetric : Dict) : Bool :=
  (specMetric.getD "direction" (.str "maximize")).same (.str "maximize")

def classifyMetric (host : Host) (name : String) (value : Rat) (specMetric : Dict)
    (baselineMetrics : Json) : Except String MetricVerdict := do
  let baselineValue ← baselineEntry host name baselineMetrics
  let threshold ← optionalFloat host specMetric "threshold"
  let passed := match threshold with
    | some bound =>
      if maximizes specMetric then bound.le (.finite value) else (Floating.finite value).le bound
    | none => true
  let detail := match threshold, baselineValue with
    | some bound, _ => .threshold bound
    | none, some bound => .baseline bound
    | none, none => .informational
  return { name := .str name, value, baselineValue
           delta := baselineValue.map (Floating.deltaFrom value)
           direction := specMetric.getD "direction" (.str "maximize"), passed, detail }

/-- `spec_metric.get("name", "")` -/
def metricName (specMetric : Dict) : Json := specMetric.getD "name" (.str "")

def compareMetric (host : Host) (metrics : Metrics) (baseline specMetric : Dict) :
    Except String MetricVerdict := do
  match metricName specMetric with
  | .str name => match metrics.get? name with
    | some value =>
      classifyMetric host name value specMetric (baseline.getD "expected_metrics" (.obj []))
    | none => return { name := .str name, value := 0, passed := false, detail := .notFound }
  | name =>
    let _ ← lookupJson metrics.get? name
    return { name, value := 0, passed := false, detail := .notFound }

def compareToBaseline (host : Host) (metrics : Metrics) (specMetrics : List Dict)
    (baseline : Dict) : Except String (List MetricVerdict) :=
  specMetrics.mapM (compareMetric host metrics baseline)

/-! ### Artifacts -/

structure ArtifactCheck where
  name : Json
  found : Bool
  required : Json
  passed : Bool

def artifactName (expected : Dict) : Json := expected.getD "name" (.str "")

/-- `expected.get("required", True)` -/
def required (expected : Dict) : Json := expected.getD "required" (.bool true)

def checkArtifact (manifest : List ManifestEntry) (expected : Dict) :
    Except String ArtifactCheck := do
  let entry ← lookupJson (fun name => manifest.find? fun entry => entry.name == name)
    (artifactName expected)
  return { name := artifactName expected, found := entry.isSome, required := required expected
           passed := entry.isSome || !(required expected).truthy }

def checkArtifactContract (manifest : List ManifestEntry) (expectedArtifacts : List Dict) :
    Except String (List ArtifactCheck) :=
  expectedArtifacts.mapM (checkArtifact manifest)

structure OutputCheck where
  name : Json
  present : Bool  -- the detail tells a found file from a missing one
  passed : Bool

/-- `Path(path).name`: the last component that is not `.` -/
def pathName (path : List Char) : List Char :=
  ((path.splitOn '/').filter fun part => !part.isEmpty && part != ['.']).getLast?.getD []

/-- `Path(path).suffix.lower().lstrip(".")` -/
def inferredSuffix (host : Host) (path : List Char) : List Char :=
  let name := pathName path
  let stem := name.reverse.dropWhile (· != '.')  -- up to and with the last dot, reversed
  if stem.length ≤ 1 ∨ stem.length = name.length then []
  else host.lower (name.drop stem.length)

/-- `str(expected.get("type", "") or "").lower()` -/
def artifactType (host : Host) (expected : Dict) : List Char :=
  let type := expected.getD "type" (.str "")
  host.lower (if type.truthy then type.strChars else [])

/-- `str(found.get("path") or name)` -/
def entryPath (entry : ManifestEntry) : List Char :=
  match entry.path.filter (· != "") with
  | some path => path.toList
  | none => entry.name.toList

/-- The declared type is left open, says `file` or is the extension of the file. -/
def typeOk (host : Host) (expected : Dict) (entry : ManifestEntry) : Bool :=
  let type := artifactType host expected
  type.isEmpty || type == inferredSuffix host (entryPath entry) || type == "file".toList

/-- `manifest_by_name.get(name)`: the last entry of the name. -/
def manifestByName (manifest : List ManifestEntry) (name : String) : Option ManifestEntry :=
  manifest.reverse.find? fun entry => entry.name == name

def outputCheck (host : Host) (manifest : List ManifestEntry) (expected : Dict) :
    Except String OutputCheck := do
  let name := artifactName expected
  match ← lookupJson (manifestByName manifest) name with
  | none => return { name, present := false, passed := !(required expected).truthy }
  | some entry => return { name, present := true, passed := typeOk host expected entry }

def buildOutputContract (host : Host) (manifest : List ManifestEntry)
    (expectedArtifacts : List Dict) : Except String (List OutputCheck) :=
  expectedArtifacts.mapM (outputCheck host manifest)

/-! ### Metric sanity -/

inductive SanityDetail where
  | measured
  | missing
  | extra
  deriving DecidableEq

structure SanityCheck where
  name : String
  passed : Bool
  detail : SanityDetail

/-- `spec_by_name`, the last spec of a name first. -/
def specByName (specMetrics : List Dict) : List (String × Dict) :=
  (specMetrics.reverse.filter fun specMetric => (specMetric.getD "name" .null).truthy).map
    fun specMetric => (String.ofList (specMetric.getD "name" .null).strChars, specMetric)

def rangeCheck (host : Host) (specs : List (String × Dict)) (entry : String × Rat) :
    Except String SanityCheck := do
  let metricSpec := (specs.lookup entry.1).getD []
  let rangeMin ← optionalFloat host metricSpec "min"
  let rangeMax ← optionalFloat host metricSpec "max"
  let inRange := (rangeMin.all fun bound => bound.le (.finite entry.2)) &&
    rangeMax.all fun bound => (Floating.finite entry.2).le bound
  return { name := entry.1, passed := inRange, detail := .measured }

/-- `sorted(set(names) - set(known))` -/
def sortedDifference (names known : List String) : List String :=
  (names.eraseDups.filter fun name => !known.contains name).insertionSort fun a b => a ≤ b

/-- `_build_metric_sanity`; the prior run's values only appear in its texts. -/
def buildMetricSanity (host : Host) (metrics : Metrics) (specMetrics : List Dict) :
    Except String (List SanityCheck) := do
  let specs := specByName specMetrics
  let measured ← metrics.entries.mapM (rangeCheck host specs)
  let declared := specs.map Prod.fst
  let reported := metrics.entries.map Prod.fst
  return measured ++
    (sortedDifference declared reported).map (fun name => ⟨name, false, .missing⟩) ++
    (sortedDifference reported declared).map (fun name => ⟨name, true, .extra⟩)

/-! ### The verdict -/

def joinNames (names : List Json) : Except String Unit :=
  if names.all fun name => match name with
    | .str _ => true
    | _ => false
  then .ok () else .error "TypeError: sequence item: expected str instance"

structure Checks where
  metricVerdicts : List MetricVerdict
  artifactChecks : List ArtifactCheck
  outputContract : List OutputCheck
  metricSanity : List SanityCheck

/-- What the report of a run is made from. -/
structure Evidence where
  metrics : Metrics
  specMetrics : List Dict
  baseline : Dict
  expectedArtifacts : List Dict
  manifest : List ManifestEntry

/-- Steps 1 and 2 of the operator. -/
def runChecks (host : Host) (evidence : Evidence) : Except String Checks := do
  let metricVerdicts ← compareToBaseline host evidence.metrics evidence.specMetrics evidence.baseline
  let artifactChecks ← checkArtifactContract evidence.manifest evidence.expectedArtifacts
  let outputContract ← buildOutputContract host evidence.manifest evidence.expectedArtifacts
  let metricSanity ← buildMetricSanity host evidence.metrics evidence.specMetrics
  return { metricVerdicts, artifactChecks, outputContract, metricSanity }

def Checks.allPass (checks : Checks) : Bool :=
  checks.metricVerdicts.all (·.passed) && checks.artifactChecks.all (·.passed) &&
    checks.outputContract.all (·.passed) && checks.metricSanity.all (·.passed)

/-- `any(m.get("threshold") is not None for m in spec_metrics)` -/
def hasThresholds (specMetrics : List Dict) : Bool :=
  specMetrics.any fun specMetric => !(specMetric.getD "threshold" .null).same .null

/-- Step 3: the verdict, with the warnings that name what failed. -/
def determineVerdict (specMetrics : List Dict) (checks : Checks) : Except String Verdict := do
  if checks.allPass then return if hasThresholds specMetrics then .passed else .inconclusive
  joinNames ((checks.metricVerdicts.filter (!·.passed)).map (·.name))
  joinNames ((checks.artifactChecks.filter (!·.passed)).map (·.name))
  joinNames ((checks.outputContract.filter (!·.passed)).map (·.name))
  return .failed

/-- The verdict of `verification_check_operator` on a run that completed. -/
def checkVerdict (host : Host) (evidence : Evidence) : Except String Verdict := do
  determineVerdict evidence.specMetrics (← runChecks host evidence)

end Synthetos.Verification
