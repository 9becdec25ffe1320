/-!
# Enumerations of the domain

The status columns of the store, the job types the worker dispatches on and the small
vocabularies of the autonomous loop.
-/

namespace Synthetos.Core

inductive CycleStatus where
  | created
  | discoveryReady
  | discoveryScreened
  | analysisReady
  | evidenceReady
  | portfolioReady
  | protocolReady
  | running
  | verifying
  | loopDeciding
  | reporting
  | closed
  deriving DecidableEq, Repr

def CycleStatus.value : CycleStatus → String
  | .created => "created"
  | .discoveryReady => "discovery_ready"
  | .discoveryScreened => "discovery_screened"
  | .analysisReady => "analysis_ready"
  | .evidenceReady => "evidence_ready"
  | .portfolioReady => "portfolio_ready"
  | .protocolReady => "protocol_ready"
  | .running => "running"
  | .verifying => "verifying"
  | .loopDeciding => "loop_deciding"
  | .reporting => "reporting"
  | .closed => "closed"

inductive JobStatus where
  | pending
  | claimed
  | paused
  | running
  | completed
  | failed
  | cancelled
  deriving DecidableEq, Repr

def JobStatus.value : JobStatus → String
  | .pending => "pending"
  | .claimed => "claimed"
  | .paused => "paused"
  | .running => "running"
  | .completed => "completed"
  | .failed => "failed"
  | .cancelled => "cancelled"

/-- The statuses `cancel` endpoints act on. -/
def JobStatus.cancellable : JobStatus → Bool
  | .pending | .claimed | .running | .paused => true
  | .completed | .failed | .cancelled => false

/-- Completed, failed and cancelled jobs are finished. -/
def JobStatus.terminal (s : JobStatus) : Bool := !s.cancellable

inductive RunStatus where
  | pending
  | workspaceSetup
  | building
  | running
  | paused
  | capturing
  | completed
  | failed
  | cancelled
  deriving DecidableEq, Repr

def RunStatus.value : RunStatus → String
  | .pending => "pending"
  | .workspaceSetup => "workspace_setup"
  | .building => "building"
  | .running => "running"
  | .paused => "paused"
  | .capturing => "capturing"
  | .completed => "completed"
  | .failed => "failed"
  | .cancelled => "cancelled"

inductive CardStatus where
  | candidate
  | selected
  | compiled
  | rejected
  | deferred
  | active
  | promising
  | stalled
  | deprioritized
  | validated
  deriving DecidableEq, Repr

inductive SpecStatus where
  | draft
  | validated
  | rejected
  | executing
  deriving DecidableEq, Repr

def SpecStatus.value : SpecStatus → String
  | .draft => "draft"
  | .validated => "validated"
  | .rejected => "rejected"
  | .executing => "executing"

/-- The job types registered with the worker's dispatcher. -/
inductive JobType where
  | echo
  | discoveryIntake
  | discoverySearch
  | discoveryRerank
  | discoveryAnalyze
  | discoveryFinalize
  | analysisIngest
  | analysisChunk
  | analysisGraphExtract
  | analysisCoverage
  | analysisReview
  | analysisEvidence
  | hypothesisGenerate
  | hypothesisCritique
  | hypothesisRank
  | protocolCompile
  | executionSetup
  | executionRun
  | executionCapture
  | verificationCheck
  | verificationPostmortem
  | autoRemediate
  | signalClassify
  | recommend
  | loopDecide
  | loopReport
  | consolidatePatterns
  | decayPatterns
  deriving DecidableEq, Repr

def JobType.value : JobType → String
  | .echo => "echo"
  | .discoveryIntake => "discovery_intake"
  | .discoverySearch => "discovery_search"
  | .discoveryRerank => "discovery_rerank"
  | .discoveryAnalyze => "discovery_analyze"
  | .discoveryFinalize => "discovery_finalize"
  | .analysisIngest => "analysis_ingest"
  | .analysisChunk => "analysis_chunk"
  | .analysisGraphExtract => "analysis_graph_extract"
  | .analysisCoverage => "analysis_coverage"
  | .analysisReview => "analysis_review"
  | .analysisEvidence => "analysis_evidence"
  | .hypothesisGenerate => "hypothesis_generate"
  | .hypothesisCritique => "hypothesis_critique"
  | .hypothesisRank => "hypothesis_rank"
  | .protocolCompile => "protocol_compile"
  | .executionSetup => "execution_setup"
  | .executionRun => "execution_run"
  | .executionCapture => "execution_capture"
  | .verificationCheck => "verification_check"
  | .verificationPostmortem => "verification_postmortem"
  | .autoRemediate => "auto_remediate"
  | .signalClassify => "signal_classify"
  | .recommend => "recommend"
  | .loopDecide => "loop_decide"
  | .loopReport => "loop_report"
  | .consolidatePatterns => "consolidate_patterns"
  | .decayPatterns => "decay_patterns"

inductive Verdict where
  | passed
  | inconclusive
  | failed
  deriving DecidableEq, Repr

inductive Signal where
  | advancing
  | stalled
  | regressing
  | noisy
  | breakthrough
  deriving DecidableEq, Repr

inductive RecommendationType where
  | continueCurrent
  | parameterVariation
  | hypothesisPivot
  | halt
  deriving DecidableEq, Repr

/-- The `decision` column of a LoopDecision. -/
inductive Decision where
  | continueCurrent
  | varyParameters
  | pivotHypothesis
  | stopBudget
  | stopGate
  | stopHalt
  | stopExhausted
  | stopManual
  deriving DecidableEq, Repr

inductive GateName where
  | afterEveryRun
  | afterEveryNRuns
  | beforeHardwareEscalation
  | beforeResultPromotion
  | beforeNetworkExecution
  deriving DecidableEq, Repr

inductive AutonomyMode where
  | supervised
  | autonomous
  deriving DecidableEq, Repr

/-- The actions of `control_run`. -/
inductive RunAction where
  | pause
  | resume
  | cancel
  | retry
  deriving DecidableEq, Repr

def RunAction.value : RunAction → String
  | .pause => "pause"
  | .resume => "resume"
  | .cancel => "cancel"
  | .retry => "retry"

end Synthetos.Core
