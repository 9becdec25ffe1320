import Synthetos.Remediation.Remediate
import Synthetos.Remediation.Signal

/-!
# Recommendations

Deterministic rules map the signal, the frontier and the remediation history of a run to a
recommendation; `recommend` stores it and routes the cycle to the loop or to reporting.
-/

namespace Synthetos.Remediation

open Synthetos.Core Storage Lib Autonomy

structure RecommendationResult where
  recommendationType : RecommendationType
  action : String
  reasoning : String

/-- Inputs to the recommendation decision logic; `signal` is absent for failed runs. -/
structure RecommendationInputs where
  signal : Option Signal
  runsSinceImprovement : Nat
  totalRuns : Nat
  successfulRuns : Nat
  remediationAttempts : Nat
  remediationExhausted : Bool
  hasUnresolvedFailures : Bool
  failed : Bool

/-- Staleness threshold: pivot after this many runs without improvement. -/
def pivotThreshold : Nat := 5

/-- The rules for a run that arrived through a postmortem. -/
def recommendFailed (inputs : RecommendationInputs) : RecommendationResult :=
  if inputs.remediationExhausted then
    if inputs.successfulRuns = 0 then
      ⟨.hypothesisPivot,
        "All runs failed and remediation is exhausted. Consider a fundamentally different approach or hypothesis.",
        s!"No successful runs out of {inputs.totalRuns} total; {inputs.remediationAttempts} remediation attempts exhausted. Mechanical issues appear intractable for this approach."⟩
    else
      ⟨.parameterVariation,
        "Recent run failed after remediation. Try adjusting experiment parameters to avoid this failure mode.",
        s!"{inputs.successfulRuns} prior successes exist but latest run failed after {inputs.remediationAttempts} remediation attempts. The approach has worked before; parameter adjustments may help."⟩
  else
    ⟨.continueCurrent,
      "Remediation resolved the failure. Continue with current approach.",
      "Failure was mechanical and has been resolved through remediation."⟩

def computeRecommendation (inputs : RecommendationInputs) : RecommendationResult :=
  if inputs.failed then recommendFailed inputs
  else match inputs.signal with
  | some .breakthrough =>
    ⟨.continueCurrent,
      "Significant improvement detected. Continue with current approach.",
      "Metric showed breakthrough-level improvement. This approach is producing strong results."⟩
  | some .advancing =>
    if inputs.hasUnresolvedFailures then
      ⟨.parameterVariation,
        "Progress is being made but recurring failures suggest parameter adjustments to improve reliability.",
        "Metric is advancing but there are unresolved failure patterns. Tweaking parameters may reduce failure rate while maintaining progress."⟩
    else
      ⟨.continueCurrent,
        "Metric is improving. Continue with current approach.",
        "Directional signal is advancing with no unresolved failures."⟩
  | some .stalled =>
    if pivotThreshold ≤ inputs.runsSinceImprovement then
      ⟨.hypothesisPivot,
        s!"No improvement in {inputs.runsSinceImprovement} runs. Consider a new hypothesis or fundamentally different approach.",
        s!"Metric stalled for {inputs.runsSinceImprovement} runs (threshold: {pivotThreshold}). Diminishing returns suggest the current hypothesis has been exhausted."⟩
    else
      ⟨.parameterVariation,
        "Metric has plateaued. Try different hyperparameters, controls, or training configurations.",
        s!"Metric stalled for {inputs.runsSinceImprovement} runs (below pivot threshold of {pivotThreshold}). Parameter variation may break through the plateau."⟩
  | some .regressing =>
    ⟨.parameterVariation,
      "Metric is moving in the wrong direction. Revert recent changes or adjust parameters.",
      "Directional signal shows regression. Recent modifications are hurting performance; parameter adjustments needed."⟩
  | some .noisy =>
    ⟨.parameterVariation,
      "Metric is oscillating. Consider increasing sample size, fixing random seeds, or reducing learning rate.",
      "Directional signal shows noise. High variance in metric suggests instability in the experimental setup."⟩
  | none =>
    ⟨.parameterVariation,
      "Signal is ambiguous. Try parameter adjustments to clarify direction.",
      "Unrecognized signal 'None'; defaulting to parameter variation."⟩

def signalOf (db : Db) (run : RunId) : Option DirectionalSignal :=
  db.signals.find? fun row => row.runRecordId == run

def lineagePostmortems (db : Db) (lineage : List RunId) : List FailurePostmortem :=
  db.postmortems.filter fun row => lineage.contains row.runRecordId

def recommendationInputs (db : Db) (run : RunRecord) (runId : RunId) (spec : ExperimentSpec)
    (isFailedPath : Bool) : RecommendationInputs :=
  let frontier := loadFrontier db run.charterId spec.hypothesisCardId
  let actions := loadLineageActions db runId
  let exhausted := actions.any fun action => action.outcome == .exhausted
  let postmortems := lineagePostmortems db (loadLineageRunIds db runId)
  { signal := (signalOf db runId).map DirectionalSignal.signal
    runsSinceImprovement := (frontier.map MetricFrontier.runsSinceImprovement).getD 0
    totalRuns := (frontier.map MetricFrontier.totalRuns).getD 1
    successfulRuns :=
      (frontier.map MetricFrontier.successfulRuns).getD (if isFailedPath then 0 else 1)
    remediationAttempts := actions.length
    remediationExhausted := exhausted
    hasUnresolvedFailures := isFailedPath || exhausted || !postmortems.isEmpty
    failed := isFailedPath }

def decisionsOf (db : Db) (cycle : CycleId) : List LoopDecision :=
  db.decisions.filter fun row => row.cycleId == cycle

def isAutonomous (db : Db) (cycle : CycleId) : Bool :=
  (db.cycles[cycle]?.map fun row => row.autonomy.mode) == some .autonomous

/-- The event of the first recommendation of an autonomous cycle. -/
def loopStartedEvents (db : Db) (cycle : CycleId) (run : RunId) : List DomainEvent :=
  if (decisionsOf db cycle).isEmpty then [.loopStarted run] else []

def recommendOperator (db : Db) (input : OperatorInput) : Except String (Txn × Next) := do
  let some runId := input.payload.runRecordId
    | return rejectWith s!"job {input.jobId} payload is missing required 'run_record_id'"
  let run ← loadRunRecord db runId
  let spec ← loadExperimentSpec db run.experimentSpecId
  let result := computeRecommendation (recommendationInputs db run runId spec input.payload.failed)
  let row : RunRecommendation :=
    { runRecordId := runId, charterId := run.charterId, cycleId := run.cycleId
      experimentSpecId := run.experimentSpecId, recommendationType := result.recommendationType
      action := result.action, reasoning := result.reasoning }
  let recId := Table.upsertId db.recommendations fun old => old.runRecordId == runId
  let report ← Db.scalarOneOrNone (Verification.reportsOf db runId)
  let stored : Txn :=
    { recommendation := some row
      reportUpdate := report.map fun _ =>
        (runId, fun old => { old with recommendationId := some recId })
      events := [.recommendationProduced runId result.recommendationType] }
  if isAutonomous db run.cycleId then
    return succeedWith
      { stored with
        newJobs := [createJob db (some run.cycleId) .loopDecide
          { runRecordId := some runId, recommendationId := some recId } 5]
        events := stored.events ++ loopStartedEvents db run.cycleId runId }
      (some .loopDeciding)
  else
    return succeedWith stored (some .reporting)

end Synthetos.Remediation
