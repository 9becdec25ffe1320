import Synthetos.Core.Operators
import Synthetos.Remediation.Strategies

/-!
# Automatic remediation

`auto_remediate` retries a failed run with a fix, at most `defaultMaxAttempts` times along a
retry lineage, and otherwise forwards the run to the postmortem.
-/

namespace Synthetos.Remediation

open Synthetos.Core Storage Lib

def defaultMaxAttempts : Nat := 3

/-- Walk the `parent_run_id` links upwards; `fuel` bounds the walk by the number of runs. -/
def lineageUp (runs : List RunRecord) : Nat → Option RunId → List RunId
  | _, none => []
  | 0, some run => [run]
  | fuel + 1, some run => run :: lineageUp runs fuel (runs[run]?.bind RunRecord.parentRunId)

/-- The current retry lineage from root to `run`. -/
def loadLineageRunIds (db : Db) (run : RunId) : List RunId :=
  (lineageUp db.runs db.runs.length (some run)).reverse

def loadLineageActions (db : Db) (run : RunId) : List RemediationAction :=
  let lineage := loadLineageRunIds db run
  db.actions.filter fun action => lineage.contains action.runRecordId

def countLineageAttempts (db : Db) (run : RunId) : Nat := (loadLineageActions db run).length

/-- Record an action without a retry and enqueue the postmortem. -/
def declineRetry (db : Db) (run : RunRecord) (runId : RunId) (strategy strategyTier reasoning : String)
    (outcome : RemediationOutcome) (attempt : Nat) (events : List DomainEvent) : Txn × Next :=
  succeedWith
    { newActions := [{
        runRecordId := runId, retryRunId := none, charterId := run.charterId
        cycleId := run.cycleId, experimentSpecId := run.experimentSpecId
        failureClass := run.failureClass.getD "unknown", strategy, strategyTier, outcome
        attemptNumber := attempt, reasoning }]
      newJobs := [enqueueNext db run.cycleId .verificationPostmortem runId]
      events := .remediationStarted runId :: events }
    none

def retryRun (run : RunRecord) (runId : RunId) : RunRecord :=
  { experimentSpecId := run.experimentSpecId, parentRunId := some runId
    charterId := run.charterId, cycleId := run.cycleId, runNumber := run.runNumber + 1 }

/-- The arguments `select_strategy` is called with; the logs, the resource limits of the run and
the artifact lists are read from outside the modelled columns. -/
def strategyInputs (db : Db) (run : RunRecord) (runId : RunId) (spec : ExperimentSpec)
    (world : External) : StrategyInputs :=
  let priorActions := loadLineageActions db runId
  { failureClass := run.failureClass.getD "unknown"
    stderrTail := world.stderrTail
    limits := world.resourceLimits.getD []
    priorStrategies := priorActions.map RemediationAction.strategy
    priorFailureClasses := priorActions.map RemediationAction.failureClass
    expectedArtifacts := world.expectedArtifacts.getD []
    artifactManifest := world.artifactManifest.getD []
    codePlan := spec.codePlan.getD []
    host := world.host }

def autoRemediateOperator (db : Db) (input : OperatorInput) (world : External) :
    Except String (Txn × Next) := do
  let some runId := input.payload.runRecordId
    | return rejectWith s!"job {input.jobId} payload is missing required 'run_record_id'"
  let run ← loadRunRecord db runId
  let spec ← loadExperimentSpec db run.experimentSpecId
  let attemptCount := countLineageAttempts db runId
  let attempt := attemptCount + 1
  if defaultMaxAttempts ≤ attemptCount then
    return declineRetry db run runId "skip" "focused"
      s!"Max remediation attempts ({defaultMaxAttempts}) reached." .exhausted attempt
      [.remediationExhausted runId attempt]
  let strat ← selectStrategy (strategyInputs db run runId spec world)
  if !strat.remediable then
    return declineRetry db run runId strat.strategy strat.strategyTier strat.reasoning .skipped
      attempt [.remediationSkipped runId strat.reasoning]
  if strat.strategy = "debug_broad" ∧ !world.debugProducedFix then
    return declineRetry db run runId "debug_broad" "broad"
      "Broad debug LLM could not produce a code fix." .skipped attempt [.strategyEscalated runId]
  let retryId := db.runs.length
  return succeedWith
    { newRuns := [retryRun run runId]
      newActions := [{
        runRecordId := runId, retryRunId := some retryId, charterId := run.charterId
        cycleId := run.cycleId, experimentSpecId := run.experimentSpecId
        failureClass := run.failureClass.getD "unknown", strategy := strat.strategy
        strategyTier := strat.strategyTier, outcome := .retryCreated, attemptNumber := attempt
        reasoning := strat.reasoning }]
      newJobs := [enqueueNext db run.cycleId .executionSetup retryId]
      events := .remediationStarted runId ::
        ((if strat.strategy = "debug_broad" then [.strategyEscalated runId] else []) ++
          [.retryCreated runId retryId attempt]) }
    (some .running)

end Synthetos.Remediation
