import Synthetos.Storage.Session

/-!
# Hypothesis lifecycle and repetition

Status transitions of hypothesis cards made by the loop, and the detection of specs that repeat
an earlier spec of the same cycle.
-/

namespace Synthetos.Autonomy

open Synthetos.Core Storage Lib

/-- Runs without improvement before a hypothesis is considered stalled. -/
def stallThreshold : Nat := 5

def validTransitions : CardStatus → List CardStatus
  | .compiled => [.active]
  | .active => [.promising, .stalled, .deprioritized]
  | .promising => [.stalled, .validated]
  | .stalled => [.deprioritized]
  | .deferred => [.active]
  | _ => []

/-- `best >= threshold`, raising when the threshold is not a number. -/
def meets (threshold : Json) (compare : Rat → Bool) : Except String Bool :=
  match threshold.number? with
  | some t => .ok (compare t)
  | none => .error "TypeError: '>=' not supported between instances"

def checkStopConditions (spec : ExperimentSpec) (frontier : MetricFrontier) : Except String Bool :=
  match spec.stopConditions with
  | .obj first :: _ =>
    match Dict.get? first "threshold" with
    | none | some .null => .ok false
    | some threshold =>
      if frontier.primaryMetricDirection = "maximize" then
        meets threshold fun t => decide (t ≤ frontier.bestMetricValue)
      else if frontier.primaryMetricDirection = "minimize" then
        meets threshold fun t => decide (frontier.bestMetricValue ≤ t)
      else .ok false
  | _ => .ok false

/-- The target lifecycle status, or `none` if no transition should occur. -/
def computeLifecycleStatus (current : CardStatus) (signal : Option Signal)
    (frontier : Option MetricFrontier) (recommendationType : RecommendationType)
    (spec : Option ExperimentSpec) : Except String (Option CardStatus) := do
  let allowed := validTransitions current
  if allowed.isEmpty then return none
  if (current = .compiled ∨ current = .deferred) ∧ .active ∈ allowed then return some .active
  if recommendationType = .hypothesisPivot ∧ .deprioritized ∈ allowed then
    return some .deprioritized
  if current = .promising ∧ .validated ∈ allowed then
    if let some spec := spec then
      if let some frontier := frontier then
        if ← checkStopConditions spec frontier then return some .validated
  if (signal = some .advancing ∨ signal = some .breakthrough) ∧ .promising ∈ allowed then
    return some .promising
  if frontier.any (fun row => stallThreshold ≤ row.runsSinceImprovement) ∧ .stalled ∈ allowed then
    return some .stalled
  return none

/-- The fields a spec is identified by, in canonical form.  The source compares SHA-256 digests
of the `sort_keys` dump of this document; the digest is represented by the document itself. -/
def fingerprintSpec (spec : ExperimentSpec) : Json :=
  Json.canonical (.obj [
    ("code_plan", (spec.codePlan.map Json.obj).getD .null),
    ("controls", (spec.controls.map Json.arr).getD .null),
    ("metrics", .arr (spec.metrics.map Json.obj)),
    ("baseline", .obj spec.baseline)])

def priorSpecs (db : Db) (cycle : CycleId) (current : SpecId) : List ExperimentSpec :=
  (db.specs.zipIdx.filter fun row =>
    row.1.cycleId == cycle && row.2 != current && row.1.status == .validated).map Prod.fst

/-- The `is_duplicate` part of `detect_repetition`, the only one the loop reads. -/
def isDuplicate (db : Db) (cycle : CycleId) (currentId : SpecId) (current : ExperimentSpec) :
    Bool :=
  (priorSpecs db cycle currentId).any fun prior =>
    (fingerprintSpec prior).same (fingerprintSpec current)

end Synthetos.Autonomy
