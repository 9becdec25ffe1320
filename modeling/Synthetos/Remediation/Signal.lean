import Synthetos.Verification.Operators
import Mathlib.Algebra.Order.Field.Rat

/-!
# Directional signals and metric frontiers

`signal_classify` compares the primary metric of a run with the history of its hypothesis line,
upserts the signal of the run and the frontier of the line, and enqueues `recommend`.
-/

namespace Synthetos.Remediation

open Synthetos.Core Storage Lib

structure SignalResult where
  signal : Signal
  delta : Option Rat

def mean (values : List Rat) : Rat := values.sum / values.length

/-- `statistics.variance`, the square of `statistics.stdev`. -/
def variance (values : List Rat) : Rat :=
  (values.map fun v => (v - mean values) ^ 2).sum / (values.length - 1)

def deltas (values : List Rat) : List Rat := values.zipWith (fun a b => b - a) values.tail

def signChanges (values : List Rat) : Nat :=
  ((deltas values).zipWith (fun a b => decide (b * a < 0)) (deltas values).tail).count true

def relativeChange (a b : Rat) : Rat := |b - a| / max |a| (1 / 100000000)

def withinBand (noiseBand : Rat) (values : List Rat) : Bool :=
  (values.zipWith (fun a b => decide (relativeChange a b ≤ noiseBand)) values.tail).all id

def lastValues (n : Nat) (values : List Rat) : List Rat := values.drop (values.length - n)

/-- Classify the directional signal for a metric against its history (oldest first).  The
z-score test is made on squares. -/
def classifySignal (current : Rat) (history : List Rat) (direction : String)
    (noiseBand : Rat) : SignalResult :=
  match history.getLast? with
  | none => ⟨.advancing, none⟩
  | some prev =>
    let delta := current - prev
    let deltaPct := relativeChange prev current
    let improving := if direction = "maximize" then decide (0 < delta) else decide (delta < 0)
    let spread := variance history
    if decide (3 ≤ history.length) && improving && decide (0 < spread) &&
        decide (4 * spread < (current - mean history) ^ 2) then ⟨.breakthrough, some delta⟩
    else if 3 ≤ history.length ∧ 2 ≤ signChanges (lastValues 3 history ++ [current]) then
      ⟨.noisy, some delta⟩
    else if 2 ≤ history.length ∧ deltaPct ≤ noiseBand ∧
        withinBand noiseBand (lastValues 2 history ++ [current]) then ⟨.stalled, some delta⟩
    else if deltaPct ≤ noiseBand then ⟨.stalled, some delta⟩
    else if improving then ⟨.advancing, some delta⟩
    else ⟨.regressing, some delta⟩

def isImprovement (current best : Rat) (direction : String) : Bool :=
  if direction = "maximize" then decide (best < current) else decide (current < best)

def loadFrontier (db : Db) (charter : CharterId) (card : CardId) : Option MetricFrontier :=
  db.frontiers.find? fun row => row.charterId == charter && row.hypothesisCardId == card

/-- Create or update the frontier row of a hypothesis line; the flag tells whether it improved. -/
def upsertFrontier (db : Db) (charter : CharterId) (card : CardId) (spec : SpecId) (run : RunId)
    (metricName metricDirection : String) (value : Rat) (isSuccessful : Bool) :
    MetricFrontier × Bool :=
  match loadFrontier db charter card with
  | none =>
    ({ charterId := charter, hypothesisCardId := card, primaryMetricName := metricName
       primaryMetricDirection := metricDirection, bestRunId := run, bestExperimentSpecId := spec
       bestMetricValue := value, totalRuns := 1, successfulRuns := if isSuccessful then 1 else 0
       runsSinceImprovement := 0 }, true)
  | some row =>
    let counted : MetricFrontier :=
      { row with
        totalRuns := row.totalRuns + 1
        successfulRuns := row.successfulRuns + if isSuccessful then 1 else 0 }
    let isBetter := isImprovement value row.bestMetricValue metricDirection
    if isBetter && isSuccessful then
      ({ counted with
         bestRunId := run, bestExperimentSpecId := spec, bestMetricValue := value
         runsSinceImprovement := 0 }, true)
    else
      ({ counted with runsSinceImprovement := row.runsSinceImprovement + 1 }, false)

def primaryMetric (spec : ExperimentSpec) : Option Dict :=
  let idx := spec.primaryMetricIndex.getD 0
  spec.metrics[if spec.metrics.length ≤ idx then 0 else idx]?

def metricText (metric : Dict) (key default : String) : String :=
  String.ofList (metric.getD key (.str default)).strChars

/-- Values of the metric in the other completed runs of the hypothesis line, oldest first. -/
def lineHistory (db : Db) (card : CardId) (run : RunId) (metricName : String) : List Rat :=
  let prior := db.runs.zipIdx.filter fun row =>
    row.2 != run && row.1.status == .completed &&
      (db.specs[row.1.experimentSpecId]?.any fun spec => spec.hypothesisCardId == card)
  let byCompletion := prior.insertionSort fun a b =>
    a.1.completedAt.getD 0 ≤ b.1.completedAt.getD 0
  byCompletion.filterMap fun row => row.1.metricsOutput.lookup metricName

/-- Skip straight to `recommend`. -/
def skipClassification (db : Db) (run : RunRecord) (runId : RunId) : Txn × Next :=
  succeedWith { newJobs := [enqueueNext db run.cycleId .recommend runId] } none

def signalClassifyOperator (db : Db) (input : OperatorInput) : Except String (Txn × Next) := do
  let some runId := input.payload.runRecordId
    | return rejectWith s!"job {input.jobId} payload is missing required 'run_record_id'"
  let run ← loadRunRecord db runId
  let spec ← loadExperimentSpec db run.experimentSpecId
  let some primary := primaryMetric spec | return skipClassification db run runId
  let metricName := metricText primary "name" ""
  let metricDirection := metricText primary "direction" "maximize"
  let some value := run.metricsOutput.lookup metricName | return skipClassification db run runId
  let some _ := db.cards[spec.hypothesisCardId]? | return skipClassification db run runId
  let result := classifySignal value (lineHistory db spec.hypothesisCardId runId metricName)
    metricDirection (1 / 100)
  let signal : DirectionalSignal :=
    { runRecordId := runId, charterId := run.charterId, cycleId := run.cycleId
      experimentSpecId := run.experimentSpecId, signal := result.signal
      primaryMetricName := metricName, primaryMetricValue := value
      primaryMetricDelta := result.delta, primaryMetricDirection := metricDirection }
  let signalId := Table.upsertId db.signals fun old => old.runRecordId == runId
  let report ← Db.scalarOneOrNone (Verification.reportsOf db runId)
  let (frontier, improved) := upsertFrontier db run.charterId spec.hypothesisCardId
    run.experimentSpecId runId metricName metricDirection value true
  return succeedWith
    { signal := some signal
      reportUpdate := report.map fun _ =>
        (runId, fun row => { row with directionalSignalId := some signalId })
      frontier := some frontier
      newJobs := [enqueueNext db run.cycleId .recommend runId]
      events := [.signalClassified runId result.signal,
        if improved && frontier.totalRuns == 1 then .frontierCreated spec.hypothesisCardId
        else .frontierUpdated spec.hypothesisCardId improved] }
    none

end Synthetos.Remediation
