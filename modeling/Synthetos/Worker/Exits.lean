import Synthetos.Lib.Except
import Synthetos.Worker.Executor

/-!
# What an operator step can do

`Exit` lists, for each operator and phase, what its transaction does to jobs and runs and how the
operator goes on.  It is the only place where the operators are unfolded for the job queue.
-/

namespace Synthetos.Worker

open Synthetos.Core Storage Lib Autonomy Execution Protocols Remediation Verification

/-- The transaction adds no job and no run and pauses no job. -/
structure Quiet (txn : Txn) : Prop where
  jobs : txn.newJobs = []
  runs : txn.newRuns = []
  pause : txn.pausedJob = none

/-- The transaction adds one job and nothing else to jobs and runs. -/
structure Enqueues (txn : Txn) (job : Job) : Prop where
  jobs : txn.newJobs = [job]
  runs : txn.newRuns = []
  pause : txn.pausedJob = none

structure Prepares (txn : Txn) (run : RunRecord) (job : Job) : Prop where
  jobs : txn.newJobs = [job]
  runs : txn.newRuns = [run]
  pause : txn.pausedJob = none

/-- The columns of a run that never change. -/
structure SameRun (old new : RunRecord) : Prop where
  spec : new.experimentSpecId = old.experimentSpecId
  charter : new.charterId = old.charterId
  cycle : new.cycleId = old.cycleId
  number : new.runNumber = old.runNumber
  parent : new.parentRunId = old.parentRunId

theorem SameRun.refl (run : RunRecord) : SameRun run run := ⟨rfl, rfl, rfl, rfl, rfl⟩

theorem SameRun.trans {a b c : RunRecord} (hab : SameRun a b) (hbc : SameRun b c) :
    SameRun a c :=
  ⟨hbc.spec.trans hab.spec, hbc.charter.trans hab.charter, hbc.cycle.trans hab.cycle,
    hbc.number.trans hab.number, hbc.parent.trans hab.parent⟩

/-- The transaction rewrites run `r`, leaving it in status `s`. -/
def WritesRun (txn : Txn) (r : RunId) (s : RunStatus) : Prop :=
  ∃ f, txn.runUpdate = some (r, f) ∧ ∀ run, SameRun run (f run) ∧ (f run).status = s

/-- A run that has not been started, of a given cycle, numbered after the runs of its spec. -/
structure FreshRun (db : Db) (run : RunRecord) (c : CycleId) : Prop where
  cycle : run.cycleId = c
  status : run.status = .pending
  number : run.runNumber = nextRunNumber db run.experimentSpecId
  root : run.parentRunId = none

structure FreshJob (job : Job) (c : CycleId) (jobType : JobType) : Prop where
  cycle : job.cycleId = some c
  type : job.jobType = jobType
  status : job.status = .pending
  unclaimed : job.claimedBy = none

def done (patch : Option CycleStatus) : Next := .finish { success := true, statePatch := patch }

def failed (error : String) : Next := .finish (.failure error)

/-- The job types `relayOperator` handles. -/
def isRelay : JobType → Bool
  | .protocolCompile | .executionSetup | .executionRun | .executionCapture | .verificationCheck
  | .verificationPostmortem | .autoRemediate | .signalClassify | .recommend | .loopDecide
  | .loopReport => false
  | _ => true

/-- How an operator step can end. -/
inductive Exit (db : Db) (input : OperatorInput) : Phase → Txn → Next → Prop where
  | rejected (phase : Phase) (error : String) : Exit db input phase {} (failed error)
  | runFailed (phase : Phase) (txn : Txn) (r : RunId) (error : String)
      (htype : input.jobType = .executionSetup ∨ input.jobType = .executionRun)
      (hphase : input.jobType = .executionRun →
        ∀ container terminal, phase ≠ .left container terminal)
      (hr : input.payload.runRecordId = some r) (hquiet : Quiet txn)
      (hwrite : WritesRun txn r .failed) :
      Exit db input phase txn (failed error)
  | setupReady (phase : Phase) (txn : Txn) (r : RunId) (run : RunRecord)
      (htype : input.jobType = .executionSetup) (hr : input.payload.runRecordId = some r)
      (hrun : db.runs[r]? = some run)
      (hjob : Enqueues txn (enqueueNext db run.cycleId .executionRun r))
      (hwrite : WritesRun txn r .building) :
      Exit db input phase txn (done none)
  | runStarted (phase : Phase) (txn : Txn) (r : RunId) (container : Option ContainerId)
      (htype : input.jobType = .executionRun) (hphase : Phase.inContainer phase = false)
      (hr : input.payload.runRecordId = some r)
      (hquiet : Quiet txn) (hwrite : WritesRun txn r .running) :
      Exit db input phase txn (.suspend (.launching container))
  | launched (resume : Option ContainerId) (container : ContainerId)
      (htype : input.jobType = .executionRun) :
      Exit db input (.launching resume) {} (.suspend (.polling container))
  | polled (container : ContainerId) (r : RunId) (run : RunRecord)
      (htype : input.jobType = .executionRun) (hr : input.payload.runRecordId = some r)
      (hrun : db.runs[r]? = some run)
      (hstatus : run.status ≠ .cancelled ∧ run.status ≠ .paused) :
      Exit db input (.polling container) {} (.suspend (.checking container))
  | halted (container : ContainerId) (r : RunId) (run : RunRecord) (terminal : TerminalState)
      (htype : input.jobType = .executionRun) (hr : input.payload.runRecordId = some r)
      (hrun : db.runs[r]? = some run)
      (hstatus : (terminal = .cancelled ∧ run.status = .cancelled) ∨
        (terminal = .paused ∧ run.status = .paused)) :
      Exit db input (.polling container) {} (.suspend (.left container terminal))
  | observedRunning (container : ContainerId) (htype : input.jobType = .executionRun) :
      Exit db input (.checking container) {} (.suspend (.polling container))
  | observedExit (container : ContainerId) (code : Int) (htype : input.jobType = .executionRun) :
      Exit db input (.checking container) {} (.suspend (.left container (.exited code)))
  | recordedHalt (container : ContainerId) (terminal : TerminalState) (txn : Txn) (r : RunId)
      (status : RunStatus) (htype : input.jobType = .executionRun)
      (hr : input.payload.runRecordId = some r)
      (hstatus : (terminal = .cancelled ∧ status = .cancelled) ∨
        (terminal = .paused ∧ status = .paused))
      (hquiet : Quiet txn) (hwrite : WritesRun txn r status) :
      Exit db input (.left container terminal) txn (done none)
  | recordedFailure (container : ContainerId) (code : Int) (txn : Txn) (r : RunId)
      (run : RunRecord) (htype : input.jobType = .executionRun)
      (hr : input.payload.runRecordId = some r) (hrun : db.runs[r]? = some run) (hcode : code ≠ 0)
      (hjob : Enqueues txn (enqueueNext db run.cycleId .verificationCheck r))
      (hwrite : WritesRun txn r .failed) :
      Exit db input (.left container (.exited code)) txn (done (some .verifying))
  | recordedSuccess (container : ContainerId) (txn : Txn) (r : RunId)
      (run : RunRecord) (htype : input.jobType = .executionRun)
      (hr : input.payload.runRecordId = some r) (hrun : db.runs[r]? = some run)
      (hjob : Enqueues txn (enqueueNext db run.cycleId .executionCapture r))
      (hwrite : WritesRun txn r .capturing) :
      Exit db input (.left container (.exited 0)) txn (done none)
  | captured (phase : Phase) (txn : Txn) (r : RunId) (run : RunRecord) (status : RunStatus)
      (htype : input.jobType = .executionCapture) (hr : input.payload.runRecordId = some r)
      (hrun : db.runs[r]? = some run) (hstatus : status = .completed ∨ status = .failed)
      (hjob : Enqueues txn (enqueueNext db run.cycleId .verificationCheck r))
      (hwrite : WritesRun txn r status) :
      Exit db input phase txn (done (some .verifying))
  | checked (phase : Phase) (txn : Txn) (r : RunId) (run : RunRecord) (next : JobType)
      (htype : input.jobType = .verificationCheck) (hr : input.payload.runRecordId = some r)
      (hrun : db.runs[r]? = some run) (hnext : next = .autoRemediate ∨ next = .signalClassify)
      (hjob : Enqueues txn (enqueueNext db run.cycleId next r)) (hwrite : txn.runUpdate = none) :
      Exit db input phase txn (done none)
  | postmortem (phase : Phase) (txn : Txn) (r : RunId) (run : RunRecord) (job : Job)
      (htype : input.jobType = .verificationPostmortem) (hr : input.payload.runRecordId = some r)
      (hrun : db.runs[r]? = some run) (hfresh : FreshJob job run.cycleId .recommend)
      (hpayload : job.payload = { runRecordId := some r, failed := true })
      (hjob : Enqueues txn job) (hwrite : txn.runUpdate = none) :
      Exit db input phase txn (done none)
  | declined (phase : Phase) (txn : Txn) (r : RunId) (run : RunRecord)
      (htype : input.jobType = .autoRemediate) (hr : input.payload.runRecordId = some r)
      (hrun : db.runs[r]? = some run)
      (hjob : Enqueues txn (enqueueNext db run.cycleId .verificationPostmortem r))
      (hwrite : txn.runUpdate = none) :
      Exit db input phase txn (done none)
  | retried (phase : Phase) (txn : Txn) (r : RunId) (run : RunRecord)
      (htype : input.jobType = .autoRemediate) (hr : input.payload.runRecordId = some r)
      (hrun : db.runs[r]? = some run)
      (hjob : Prepares txn (Remediation.retryRun run r)
        (enqueueNext db run.cycleId .executionSetup db.runs.length))
      (hwrite : txn.runUpdate = none) :
      Exit db input phase txn (done (some .running))
  | classified (phase : Phase) (txn : Txn) (r : RunId) (run : RunRecord)
      (htype : input.jobType = .signalClassify) (hr : input.payload.runRecordId = some r)
      (hrun : db.runs[r]? = some run)
      (hjob : Enqueues txn (enqueueNext db run.cycleId .recommend r))
      (hwrite : txn.runUpdate = none) :
      Exit db input phase txn (done none)
  | recommendedLoop (phase : Phase) (txn : Txn) (r : RunId) (run : RunRecord) (job : Job)
      (recId : RecommendationId) (htype : input.jobType = .recommend)
      (hr : input.payload.runRecordId = some r) (hrun : db.runs[r]? = some run)
      (hmode : isAutonomous db run.cycleId = true)
      (hfresh : FreshJob job run.cycleId .loopDecide)
      (hpayload : job.payload = { runRecordId := some r, recommendationId := some recId })
      (hjob : Enqueues txn job) (hwrite : txn.runUpdate = none) :
      Exit db input phase txn (done (some .loopDeciding))
  | recommendedReport (phase : Phase) (txn : Txn) (r : RunId) (run : RunRecord)
      (htype : input.jobType = .recommend) (hr : input.payload.runRecordId = some r)
      (hrun : db.runs[r]? = some run)
      (hmode : isAutonomous db run.cycleId = false)
      (hquiet : Quiet txn) (hwrite : txn.runUpdate = none) :
      Exit db input phase txn (done (some .reporting))
  | preparedLaunch (phase : Phase) (txn : Txn) (prepared : RunId) (run : RunRecord)
      (htype : input.jobType = .loopDecide)
      (hprepared : input.payload.preparedRunRecordId = some prepared)
      (hrun : db.runs[prepared]? = some run)
      (hjob : Enqueues txn (enqueueNext db run.cycleId .executionSetup prepared))
      (hwrite : txn.runUpdate = none) :
      Exit db input phase txn (done (some .running))
  | loopStopped (phase : Phase) (txn : Txn) (r : RunId) (run : RunRecord) (job : Job)
      (htype : input.jobType = .loopDecide) (hprepared : input.payload.preparedRunRecordId = none)
      (hr : input.payload.runRecordId = some r) (hrun : db.runs[r]? = some run)
      (hfresh : FreshJob job run.cycleId .loopReport)
      (hpayload : job.payload = { cycleId := some run.cycleId })
      (hjob : Enqueues txn job) (hwrite : txn.runUpdate = none) :
      Exit db input phase txn (done (some .reporting))
  | loopPaused (phase : Phase) (txn : Txn) (r : RunId) (run : RunRecord)
      (htype : input.jobType = .loopDecide) (hprepared : input.payload.preparedRunRecordId = none)
      (hr : input.payload.runRecordId = some r) (hrun : db.runs[r]? = some run)
      (hjobs : txn.newJobs = []) (hruns : txn.newRuns = [])
      (hpause : txn.pausedJob = some input.jobId) (hwrite : txn.runUpdate = none)
      (hdecision : ∃ row, txn.newDecisions = [row] ∧ row.decision = .stopGate ∧
        row.runRecordId = r) :
      Exit db input phase txn (done none)
  | loopLaunched (phase : Phase) (txn : Txn) (r : RunId) (run new : RunRecord)
      (htype : input.jobType = .loopDecide) (hprepared : input.payload.preparedRunRecordId = none)
      (hr : input.payload.runRecordId = some r) (hrun : db.runs[r]? = some run)
      (hnew : FreshRun db new run.cycleId)
      (hjob : Prepares txn new (enqueueNext db run.cycleId .executionSetup db.runs.length))
      (hwrite : txn.runUpdate = none) :
      Exit db input phase txn (done (some .running))
  | loopRecompiles (phase : Phase) (txn : Txn) (r : RunId) (run : RunRecord) (job : Job)
      (session : SessionId) (htype : input.jobType = .loopDecide)
      (hprepared : input.payload.preparedRunRecordId = none)
      (hr : input.payload.runRecordId = some r) (hrun : db.runs[r]? = some run)
      (hsession : sessionOf db run.cycleId = some session)
      (hfresh : FreshJob job run.cycleId .protocolCompile)
      (hloop : job.payload.fromLoop = true)
      (hpayload : job.payload.hypothesisSessionId = some session ∧
        job.payload.runRecordId = none ∧ job.payload.preparedRunRecordId = none ∧
        job.payload.cycleId = none)
      (hjob : Enqueues txn job) (hwrite : txn.runUpdate = none) :
      Exit db input phase txn (done (some .running))
  | reportWritten (phase : Phase) (txn : Txn) (htype : input.jobType = .loopReport)
      (hquiet : Quiet txn) (hwrite : txn.runUpdate = none) :
      Exit db input phase txn (.suspend .reported)
  | loopClosed (phase : Phase) (txn : Txn) (htype : input.jobType = .loopReport)
      (hjobs : txn.newJobs = [] ∨ txn.newJobs = [createJob db input.payload.cycleId
        .consolidatePatterns { cycleId := input.payload.cycleId } 0])
      (hruns : txn.newRuns = []) (hpause : txn.pausedJob = none) (hwrite : txn.runUpdate = none) :
      Exit db input phase txn (done (some .closed))
  | specsRejected (phase : Phase) (txn : Txn) (error : String)
      (htype : input.jobType = .protocolCompile) (hquiet : Quiet txn)
      (hwrite : txn.runUpdate = none) :
      Exit db input phase txn (failed error)
  | specsCompiled (phase : Phase) (txn : Txn) (session : SessionId) (row : HypothesisSession)
      (specId : SpecId) (spec : ExperimentSpec) (htype : input.jobType = .protocolCompile)
      (hloop : input.payload.fromLoop = true)
      (hsession : input.payload.hypothesisSessionId = some session)
      (hrow : db.sessions[session]? = some row)
      (hspec : (db.specs ++ txn.newSpecs)[specId]? = some spec)
      (hcycle : spec.cycleId = row.cycleId) (hquiet : Quiet txn) (hwrite : txn.runUpdate = none) :
      Exit db input phase txn (.suspend (.compiled specId))
  | protocolReady (phase : Phase) (txn : Txn) (htype : input.jobType = .protocolCompile)
      (hloop : input.payload.fromLoop = false) (hquiet : Quiet txn)
      (hwrite : txn.runUpdate = none) :
      Exit db input phase txn (done (some .protocolReady))
  | runPrepared (specId : SpecId) (txn : Txn) (spec : ExperimentSpec) (new : RunRecord)
      (htype : input.jobType = .protocolCompile) (hspec : db.specs[specId]? = some spec)
      (hgate : launchGate (policyOf db spec.cycleId) (currentProfile input.payload) spec = .ok none)
      (hnew : FreshRun db new spec.cycleId)
      (hjob : Prepares txn new (enqueueNext db spec.cycleId .executionSetup db.runs.length))
      (hwrite : txn.runUpdate = none) :
      Exit db input (.compiled specId) txn (done none)
  | runGated (specId : SpecId) (txn : Txn) (spec : ExperimentSpec) (new : RunRecord)
      (gate : GateResult) (htype : input.jobType = .protocolCompile)
      (hspec : db.specs[specId]? = some spec)
      (hgate : launchGate (policyOf db spec.cycleId) (currentProfile input.payload) spec
        = .ok (some gate))
      (hnew : FreshRun db new spec.cycleId)
      (hjob : Prepares txn new (preparedJob db spec.cycleId db.runs.length))
      (hwrite : txn.runUpdate = none) :
      Exit db input (.compiled specId) txn (done (some .loopDeciding))
  | relayed (phase : Phase) (txn : Txn) (htype : isRelay input.jobType = true)
      (hjobs : txn.newJobs = (relayOf input.jobType).1.toList.map fun jobType =>
        createJob db input.cycleId jobType input.payload 10)
      (hruns : txn.newRuns = []) (hpause : txn.pausedJob = none) (hwrite : txn.runUpdate = none) :
      Exit db input phase txn (done (relayOf input.jobType).2)

end Synthetos.Worker
