import Synthetos.Storage.Models

/-!
# The database and its transactions

An operator reads the committed database and collects what it adds and changes in a session;
`commit` makes the collected writes visible at once.  A transaction that is rolled back leaves
the database as it was.
-/

namespace Synthetos.Storage

open Synthetos.Core Lib

/-- Rows of the append-only event log, one constructor per event type. -/
inductive DomainEvent where
  | cycleCreated (cycle : CycleId) (status : CycleStatus)
  | cycleTransitioned (cycle : CycleId) (fromStatus toStatus : CycleStatus)
  | jobStarted (job : JobId)
  | jobCompleted (job : JobId)
  | jobFailed (job : JobId) (error : String)
  | jobPausedAtCheckpoint (job : JobId)
  | jobCancelledAcknowledged (job : JobId)
  | jobCancelled (job : JobId)
  | jobPaused (job : JobId)
  | jobResumed (job : JobId)
  | jobReclaimed (job : JobId) (reclaimCount : Nat)
  | jobReclaimExhausted (job : JobId) (reclaimCount : Nat)
  | sessionStarted (cycle : CycleId) (jobType : JobType)
  | compilationStarted (job : JobId)
  | specCompiled (spec : SpecId) (card : CardId)
  | specRejected (spec : SpecId) (card : CardId) (errors : List String)
  | compilationCompleted (compiled rejected : Nat)
  | workspaceCreated (run : RunId)
  | imageBuilt (run : RunId)
  | containerStarted (run : RunId) (resume : Bool)
  | runCompleted (run : RunId)
  | runFailed (run : RunId)
  | runCancelled (run : RunId)
  | runPaused (run : RunId)
  | artifactsCaptured (run : RunId)
  | checkCompleted (run : RunId) (verdict : Verdict)
  | postmortemGenerated (run : RunId)
  | remediationStarted (run : RunId)
  | remediationExhausted (run : RunId) (attempt : Nat)
  | remediationSkipped (run : RunId) (reason : String)
  | strategyEscalated (run : RunId)
  | retryCreated (run retry : RunId) (attempt : Nat)
  | signalClassified (run : RunId) (signal : Signal)
  | frontierCreated (card : CardId)
  | frontierUpdated (card : CardId) (improved : Bool)
  | recommendationProduced (run : RunId) (type : RecommendationType)
  | loopStarted (run : RunId)
  | budgetUpdated (run : RunId) (totalRuns : Nat)
  | budgetExceeded (run : RunId) (reason : String)
  | gateTriggered (cycle : CycleId) (gate : GateName) (prepared : Option RunId)
  | gateResumed (cycle : CycleId) (run : Option RunId)
  | contextSummarized (cycle : CycleId) (path : String)
  | hypothesisStatusChanged (card : CardId) (fromStatus toStatus : CardStatus)
  | hypothesisSelected (card : CardId)
  | repetitionDetected (spec : SpecId)
  | loopDecisionMade (cycle : CycleId) (iteration : Nat) (decision : Decision)
  | loopCompleted (cycle : CycleId) (iteration : Nat) (decision : Decision)
  | loopStoppedManual (cycle : CycleId)
  | completionReportGenerated (cycle : CycleId) (iterations : Nat)

structure Db where
  now : Timestamp := 0
  cycles : List ResearchCycle := []
  /-- The cycles that have a problem profile. -/
  profiles : List CycleId := []
  jobs : List Job := []
  sessions : List HypothesisSession := []
  cards : List HypothesisCard := []
  specs : List ExperimentSpec := []
  runs : List RunRecord := []
  reports : List VerificationReport := []
  postmortems : List FailurePostmortem := []
  actions : List RemediationAction := []
  signals : List DirectionalSignal := []
  frontiers : List MetricFrontier := []
  recommendations : List RunRecommendation := []
  budgets : List AutonomyBudget := []
  decisions : List LoopDecision := []
  events : List DomainEvent := []

/-- What one operator transaction writes. -/
structure Txn where
  pausedJob : Option JobId := none
  newJobs : List Job := []
  newRuns : List RunRecord := []
  runUpdate : Option (RunId × (RunRecord → RunRecord)) := none
  newSpecs : List ExperimentSpec := []
  cardStatuses : List (CardId × CardStatus) := []
  newReports : List VerificationReport := []
  reportUpdate : Option (RunId × (VerificationReport → VerificationReport)) := none
  newPostmortems : List FailurePostmortem := []
  newActions : List RemediationAction := []
  signal : Option DirectionalSignal := none
  frontier : Option MetricFrontier := none
  recommendation : Option RunRecommendation := none
  budget : Option AutonomyBudget := none
  newDecisions : List LoopDecision := []
  events : List DomainEvent := []

namespace Db

def pauseJobRow (jobs : List Job) : Option JobId → List Job
  | some j => Table.update jobs j fun job => { job with status := .paused }
  | none => jobs

def updateRun (runs : List RunRecord) : Option (RunId × (RunRecord → RunRecord)) → List RunRecord
  | some (r, f) => Table.update runs r f
  | none => runs

def setCardStatuses (cards : List HypothesisCard) (changes : List (CardId × CardStatus)) :
    List HypothesisCard :=
  changes.foldl (fun cards change =>
    Table.update cards change.1 fun card => { card with status := change.2 }) cards

def updateReport (reports : List VerificationReport) :
    Option (RunId × (VerificationReport → VerificationReport)) → List VerificationReport
  | some (r, f) => Table.updateWhere reports (fun report => report.runRecordId == r) f
  | none => reports

/-- `UNIQUE (run_record_id)` -/
def upsertSignal (signals : List DirectionalSignal) : Option DirectionalSignal →
    List DirectionalSignal
  | some row => Table.upsert signals (fun old => old.runRecordId == row.runRecordId) row
  | none => signals

/-- `UNIQUE (charter_id, hypothesis_card_id)` -/
def upsertFrontier (frontiers : List MetricFrontier) : Option MetricFrontier → List MetricFrontier
  | some row => Table.upsert frontiers (fun old =>
      old.charterId == row.charterId && old.hypothesisCardId == row.hypothesisCardId) row
  | none => frontiers

/-- `UNIQUE (run_record_id)` -/
def upsertRecommendation (recommendations : List RunRecommendation) :
    Option RunRecommendation → List RunRecommendation
  | some row => Table.upsert recommendations (fun old => old.runRecordId == row.runRecordId) row
  | none => recommendations

/-- `UNIQUE (cycle_id)` -/
def upsertBudget (budgets : List AutonomyBudget) : Option AutonomyBudget → List AutonomyBudget
  | some row => Table.upsert budgets (fun old => old.cycleId == row.cycleId) row
  | none => budgets

def commit (db : Db) (txn : Txn) : Db :=
  { db with
    jobs := pauseJobRow db.jobs txn.pausedJob ++ txn.newJobs
    runs := updateRun db.runs txn.runUpdate ++ txn.newRuns
    specs := db.specs ++ txn.newSpecs
    cards := setCardStatuses db.cards txn.cardStatuses
    reports := updateReport db.reports txn.reportUpdate ++ txn.newReports
    postmortems := db.postmortems ++ txn.newPostmortems
    actions := db.actions ++ txn.newActions
    signals := upsertSignal db.signals txn.signal
    frontiers := upsertFrontier db.frontiers txn.frontier
    recommendations := upsertRecommendation db.recommendations txn.recommendation
    budgets := upsertBudget db.budgets txn.budget
    decisions := db.decisions ++ txn.newDecisions
    events := db.events ++ txn.events }

variable (db : Db) (txn : Txn)

@[simp] theorem commit_now : (db.commit txn).now = db.now := rfl
@[simp] theorem commit_cycles : (db.commit txn).cycles = db.cycles := rfl
@[simp] theorem commit_sessions : (db.commit txn).sessions = db.sessions := rfl
@[simp] theorem commit_jobs :
    (db.commit txn).jobs = pauseJobRow db.jobs txn.pausedJob ++ txn.newJobs := rfl
@[simp] theorem commit_runs :
    (db.commit txn).runs = updateRun db.runs txn.runUpdate ++ txn.newRuns := rfl
@[simp] theorem commit_specs : (db.commit txn).specs = db.specs ++ txn.newSpecs := rfl
@[simp] theorem commit_decisions :
    (db.commit txn).decisions = db.decisions ++ txn.newDecisions := rfl
@[simp] theorem commit_events : (db.commit txn).events = db.events ++ txn.events := rfl

def job? (db : Db) (j : JobId) : Option Job := db.jobs[j]?

def jobStatus? (db : Db) (j : JobId) : Option JobStatus := db.jobs[j]?.map Job.status
def cycleStatus? (db : Db) (c : CycleId) : Option CycleStatus :=
  db.cycles[c]?.map ResearchCycle.status
def runStatus? (db : Db) (r : RunId) : Option RunStatus := db.runs[r]?.map RunRecord.status

/-- `scalar_one_or_none()`: raises when more than one row matches. -/
def scalarOneOrNone {Row : Type} (rows : List Row) : Except String (Option Row) :=
  match rows with
  | [] => .ok none
  | [row] => .ok (some row)
  | _ => .error "MultipleResultsFound"

end Db

end Synthetos.Storage
