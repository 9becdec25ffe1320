import Synthetos.Autonomy.Policy
import Synthetos.Lib.Json
import Synthetos.Lib.Table

/-!
# Tables

Every table is a list of rows and a row's id is its position, so ids grow in creation order as
the time-sortable UUIDs of the store do.  Rows are never deleted.
-/

namespace Synthetos.Storage

open Synthetos.Core Autonomy Lib

abbrev Timestamp := Nat
abbrev CharterId := Nat
abbrev CycleId := Nat
abbrev JobId := Nat
abbrev RunId := Nat
abbrev SpecId := Nat
abbrev CardId := Nat
abbrev SessionId := Nat
abbrev RecommendationId := Nat
abbrev SignalId := Nat
abbrev WorkerId := Nat
abbrev ContainerId := Nat

structure ResearchCycle where
  charterId : CharterId
  status : CycleStatus := .created
  autonomy : AutonomyPolicy := {}
  startedAt : Option Timestamp := none
  completedAt : Option Timestamp := none
  updatedAt : Timestamp := 0

/-- `loop_context` of a compile job enqueued by the loop. -/
structure LoopContext where
  runRecordId : RunId
  recommendationId : RecommendationId
  hypothesisCardId : Option CardId
  contextSummaryPath : Option String
  currentHardwareProfile : Option Dict

/-- The payload keys the modelled operators read. -/
structure Payload where
  runRecordId : Option RunId := none
  preparedRunRecordId : Option RunId := none
  recommendationId : Option RecommendationId := none
  resume : Bool := false
  failed : Bool := false
  hypothesisSessionId : Option SessionId := none
  hypothesisCardIds : List CardId := []
  hardwareProfile : Option Dict := none
  baseImage : Option String := none
  fromLoop : Bool := false
  loopContext : Option LoopContext := none
  cycleId : Option CycleId := none

structure Job where
  cycleId : Option CycleId
  jobType : JobType
  status : JobStatus := .pending
  payload : Payload := {}
  priority : Int := 0
  claimedBy : Option WorkerId := none
  claimedAt : Option Timestamp := none
  heartbeatAt : Option Timestamp := none
  reclaimCount : Nat := 0
  error : Option String := none
  createdAt : Timestamp
  completedAt : Option Timestamp := none

structure HypothesisSession where
  charterId : CharterId
  cycleId : CycleId

structure HypothesisCard where
  hypothesisSessionId : SessionId
  charterId : CharterId
  cycleId : CycleId
  title : String := ""
  rank : Option Int := none
  status : CardStatus := .candidate

structure ExperimentSpec where
  hypothesisCardId : CardId
  charterId : CharterId
  cycleId : CycleId
  title : String := ""
  status : SpecStatus := .draft
  rejectionReason : Option String := none
  baseline : Dict := []
  controls : Option (List Json) := none
  metrics : List Dict := []
  primaryMetricIndex : Option Nat := some 0
  stopConditions : List Json := []
  codePlan : Option Dict := none
  hardwareProfile : Option Dict := none
  baseImage : Option String := none
  buildRecipe : Option Dict := none

structure RunRecord where
  experimentSpecId : SpecId
  charterId : CharterId
  cycleId : CycleId
  runNumber : Nat
  parentRunId : Option RunId := none
  status : RunStatus := .pending
  workspacePath : Option String := none
  containerId : Option ContainerId := none
  exitCode : Option Int := none
  failureClass : Option String := none
  error : Option String := none
  metricsOutput : List (String × Rat) := []
  startedAt : Option Timestamp := none
  completedAt : Option Timestamp := none

structure VerificationReport where
  runRecordId : RunId
  charterId : CharterId
  cycleId : CycleId
  verdict : Verdict
  directionalSignalId : Option SignalId := none
  recommendationId : Option RecommendationId := none

structure FailurePostmortem where
  runRecordId : RunId
  verificationReportId : Option Nat
  charterId : CharterId
  cycleId : CycleId
  failureClass : String
  rootCause : String

inductive RemediationOutcome where
  | retryCreated
  | skipped
  | exhausted
  deriving DecidableEq, Repr

structure RemediationAction where
  runRecordId : RunId
  retryRunId : Option RunId
  charterId : CharterId
  cycleId : CycleId
  experimentSpecId : SpecId
  failureClass : String
  strategy : String
  strategyTier : String
  outcome : RemediationOutcome
  attemptNumber : Nat
  reasoning : String

structure DirectionalSignal where
  runRecordId : RunId
  charterId : CharterId
  cycleId : CycleId
  experimentSpecId : SpecId
  signal : Signal
  primaryMetricName : String
  primaryMetricValue : Rat
  primaryMetricDelta : Option Rat
  primaryMetricDirection : String

structure MetricFrontier where
  charterId : CharterId
  hypothesisCardId : CardId
  primaryMetricName : String
  primaryMetricDirection : String
  bestRunId : RunId
  bestExperimentSpecId : SpecId
  bestMetricValue : Rat
  totalRuns : Nat
  successfulRuns : Nat
  runsSinceImprovement : Nat

structure RunRecommendation where
  runRecordId : RunId
  charterId : CharterId
  cycleId : CycleId
  experimentSpecId : SpecId
  recommendationType : RecommendationType
  action : String
  reasoning : String

structure AutonomyBudget where
  cycleId : CycleId
  totalRuns : Nat := 0
  wallClockElapsedS : Rat := 0
  runsPerHypothesis : List (CardId × Nat) := []
  startedAt : Timestamp
  lastRunCompletedAt : Option Timestamp := none

structure LoopDecision where
  cycleId : CycleId
  charterId : CharterId
  runRecordId : RunId
  recommendationId : RecommendationId
  iterationNumber : Nat
  decision : Decision
  gateTriggered : Option GateName := none
  snapshotTotalRuns : Nat
  snapshotWallClockElapsedS : Rat := 0
  snapshotRunsPerHypothesis : List (CardId × Nat) := []
  hypothesisCardId : Option CardId := none
  nextHypothesisCardId : Option CardId := none
  nextAction : Option String := none
  contextSummaryPath : Option String := none
  reasoning : String

end Synthetos.Storage
