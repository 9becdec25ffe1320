import Synthetos.Core.StateMachine
import Synthetos.Core.Operators

/-!
# API requests

A request reads the rows it checks and later commits its writes; `seen` is the database at the
read, `db` the database at the commit.  A request that fails its checks writes nothing.
-/

namespace Synthetos.Api

open Synthetos.Core Storage Lib

inductive Request where
  | createCycle (charter : CharterId) (policy : Autonomy.AutonomyPolicy)
  | transitionCycle (cycle : CycleId) (target : CycleStatus)
  | startDiscovery (cycle : CycleId)
  | startAnalysis (cycle : CycleId)
  | startHypothesisSession (cycle : CycleId) (charter : CharterId)
  | compileProtocols (cycle : CycleId) (session : SessionId) (cards : List CardId)
      (hardwareProfile : Option Dict) (baseImage : Option String)
  | startRun (spec : SpecId)
  | controlRun (run : RunId) (action : RunAction)
  | cancelJob (job : JobId)
  | pauseJob (job : JobId)
  | resumeJob (job : JobId)
  | resumeGate (cycle : CycleId)
  | stopLoop (cycle : CycleId)

def addJob (db : Db) (job : Job) : Db := { db with jobs := db.jobs ++ [job] }

/-! ### Cycles and pipeline starts -/

def createCycle (db : Db) (charter : CharterId) (policy : Autonomy.AutonomyPolicy) : Db :=
  emit { db with cycles := db.cycles ++
      [{ charterId := charter, autonomy := policy, updatedAt := db.now }] }
    [.cycleCreated db.cycles.length .created]

def transitionCycle (seen db : Db) (c : CycleId) (target : CycleStatus) : Except String Db :=
  match seen.cycles[c]? with
  | none => .error "NoResultFound"
  | some cycle =>
    if validTransition cycle.status target then .ok (setCycleStatus db c cycle.status target)
    else .error (invalidTransitionError cycle.status target)

/-- `start_discovery_session` on the cycle it chose; only cycles before screening are reused, and a
cycle has one problem profile. -/
def startDiscovery (seen db : Db) (c : CycleId) : Except String Db :=
  match seen.cycles[c]? with
  | none => .error s!"cycle {c} not found"
  | some cycle =>
    if cycle.status = .created ∨ cycle.status = .discoveryReady then
      if seen.profiles.contains c then
        .error (s!"cycle {c} already has a problem profile; " ++
          "Phase 1 supports only one discovery session per cycle")
      else if db.profiles.contains c then .error "IntegrityError"
      else
        let withProfile := { db with profiles := db.profiles ++ [c] }
        .ok (emit (addJob withProfile (createJob db (some c) .discoveryIntake {} 10))
          [.sessionStarted c .discoveryIntake])
    else .error s!"cycle {c} is past discovery"

def startAnalysis (seen db : Db) (c : CycleId) : Except String Db :=
  match seen.cycles[c]? with
  | none => .error s!"cycle {c} not found"
  | some cycle =>
    let moved :=
      if cycle.status = .discoveryScreened ∨ cycle.status = .analysisReady then
        assignCycleStatus db c cycle.status .analysisReady
      else db
    .ok (emit (addJob moved (createJob db (some c) .analysisIngest {} 10))
      [.sessionStarted c .analysisIngest])

/-- `start_hypothesis_session`, for the charter that the request names. -/
def startHypothesisSession (seen db : Db) (c : CycleId) (charter : CharterId) : Except String Db :=
  match seen.cycles[c]? with
  | none => .error s!"cycle {c} not found"
  | some cycle =>
    if cycle.status = .evidenceReady then
      let withSession := { db with sessions := db.sessions ++
        [{ charterId := charter, cycleId := c }] }
      .ok (emit (addJob withSession (createJob db (some c) .hypothesisGenerate
          { hypothesisSessionId := some db.sessions.length } 10))
        [.sessionStarted c .hypothesisGenerate])
    else .error s!"cycle {c} status is '{cycle.status.value}'; expected 'evidence_ready'"

/-- `compile_protocols`, for the completed hypothesis session it found. -/
def compileProtocols (seen db : Db) (c : CycleId) (session : SessionId) (cards : List CardId)
    (hardwareProfile : Option Dict) (baseImage : Option String) : Except String Db :=
  match seen.cycles[c]? with
  | none => .error s!"cycle {c} not found"
  | some cycle =>
    if cycle.status ≠ .portfolioReady then
      .error s!"cycle {c} status is '{cycle.status.value}'; expected 'portfolio_ready'"
    else
      match seen.sessions[session]? with
      | none => .error "no completed hypothesis session found for cycle"
      | some row =>
        if row.cycleId = c then
          .ok (emit (addJob db (createJob db (some c) .protocolCompile
              { hypothesisSessionId := some session, hypothesisCardIds := cards
                hardwareProfile, baseImage } 10))
            [.compilationStarted db.jobs.length])
        else .error "no completed hypothesis session found for cycle"

/-! ### Runs -/

def runsOfSpec (db : Db) (spec : SpecId) : Nat :=
  (db.runs.filter fun run => run.experimentSpecId == spec).length

/-- A new run of `spec`, numbered after the runs counted at the read, and its setup job. -/
def addRun (seen db : Db) (spec : SpecId) (charter : CharterId) (c : CycleId) : Db :=
  addJob
    { db with runs := db.runs ++
      [{ experimentSpecId := spec, charterId := charter, cycleId := c
         runNumber := runsOfSpec seen spec + 1 }] }
    (enqueueNext db c .executionSetup db.runs.length)

def startRun (seen db : Db) (spec : SpecId) : Except String Db :=
  match seen.specs[spec]? with
  | none => .error s!"experiment spec {spec} not found"
  | some row =>
    if row.status ≠ .validated then
      .error s!"spec {spec} status is '{row.status.value}'; expected 'validated'"
    else
      match seen.cycles[row.cycleId]? with
      | none => .error s!"cycle {row.cycleId} not found"
      | some cycle =>
        let moved :=
          if cycle.status = .protocolReady then
            assignCycleStatus db row.cycleId cycle.status .running
          else db
        let marked := { moved with specs := Table.update moved.specs spec fun old =>
          { old with status := .executing } }
        .ok (emit (addRun seen marked spec row.charterId row.cycleId)
          [.workspaceCreated db.runs.length])

def allowedActions : RunStatus → List RunAction
  | .pending | .workspaceSetup | .building => [.cancel]
  | .running => [.pause, .cancel]
  | .paused => [.resume, .cancel]
  | .capturing | .completed => []
  | .failed | .cancelled => [.retry]

def updateRunRow (db : Db) (r : RunId) (f : RunRecord → RunRecord) : Db :=
  { db with runs := Table.update db.runs r f }

def updateJobsWhere (db : Db) (p : Job → Bool) (f : Job → Job) : Db :=
  { db with jobs := Table.updateWhere db.jobs p f }

def cancelRun (db : Db) (r : RunId) : Db :=
  emit
    (updateJobsWhere
      (updateRunRow db r fun run =>
        { run with status := .cancelled, completedAt := some db.now })
      (fun job => job.status.cancellable && job.payload.runRecordId == some r)
      fun job => { job with status := .cancelled, completedAt := some db.now })
    [.runCancelled r]

def pauseRun (db : Db) (r : RunId) : Db :=
  emit
    (updateJobsWhere (updateRunRow db r fun run => { run with status := .paused })
      (fun job => (job.status == .claimed || job.status == .running) &&
        job.payload.runRecordId == some r)
      fun job => { job with status := .paused })
    [.runPaused r]

/-- `cycle.status = running`, unless the cycle is missing or was running. -/
def ensureRunning (seen db : Db) (c : CycleId) : Db :=
  match seen.cycles[c]? with
  | none => db
  | some cycle =>
    if cycle.status = .running then db else assignCycleStatus db c cycle.status .running

/-- `control_run(resume)`: a fresh `execution_run` job that resumes the container. -/
def resumeRun (seen db : Db) (r : RunId) (run : RunRecord) : Db :=
  ensureRunning seen
    (addJob (updateRunRow db r fun row => { row with status := .running })
      (createJob db (some run.cycleId) .executionRun
        { runRecordId := some r, resume := true } 10))
    run.cycleId

def retryRun (seen db : Db) (run : RunRecord) : Db :=
  addRun seen (ensureRunning seen db run.cycleId) run.experimentSpecId run.charterId run.cycleId

def actionNotAllowed (status : RunStatus) (action : RunAction) : String :=
  let listed := (allowedActions status).map fun a => s!"'{a.value}'"
  let joined := ", ".intercalate listed
  let allowed := if listed.isEmpty then "none" else s!"[{joined}]"
  s!"action '{action.value}' not allowed for run in status '{status.value}'; allowed: {allowed}"

def controlRun (seen db : Db) (r : RunId) (action : RunAction) : Except String Db :=
  match seen.runs[r]? with
  | none => .error s!"run record {r} not found"
  | some run =>
    if (allowedActions run.status).contains action then
      match action with
      | .cancel => .ok (cancelRun db r)
      | .pause => .ok (pauseRun db r)
      | .resume => .ok (resumeRun seen db r run)
      | .retry => .ok (retryRun seen db run)
    else .error (actionNotAllowed run.status action)

/-! ### Jobs -/

def cancelJob (seen db : Db) (j : JobId) : Except String Db :=
  match seen.jobs[j]? with
  | none => .error "Job not found"
  | some job =>
    if job.status.cancellable then
      .ok (emit (updateJob db j fun row =>
        { row with status := .cancelled, completedAt := some db.now }) [.jobCancelled j])
    else .error s!"Cannot cancel job in status '{job.status.value}'"

def pauseJobRequest (seen db : Db) (j : JobId) : Except String Db :=
  match seen.jobs[j]? with
  | none => .error "Job not found"
  | some job =>
    if job.status = .pending ∨ job.status = .claimed ∨ job.status = .running then
      .ok (emit (Core.pauseJob db j) [.jobPaused j])
    else .error s!"Cannot pause job in status '{job.status.value}'"

def resumeJob (seen db : Db) (j : JobId) : Except String Db :=
  match seen.jobs[j]? with
  | none => .error "Job not found"
  | some job =>
    if job.status = .paused then
      .ok (emit (updateJob db j fun row =>
        { row with
          status := .pending
          claimedBy := ormSet job.claimedBy none row.claimedBy
          claimedAt := ormSet job.claimedAt none row.claimedAt
          heartbeatAt := ormSet job.heartbeatAt none row.heartbeatAt }) [.jobResumed j])
    else .error s!"Cannot resume job in status '{job.status.value}'"

/-! ### The autonomous loop -/

/-- The paused `loop_decide` job `resume_gate` selects. -/
def pausedLoopJob (db : Db) (c : CycleId) : Option JobId :=
  (((List.range db.jobs.length).filter fun j => db.jobs[j]?.any fun job =>
    job.cycleId == some c && job.jobType == .loopDecide && job.status == .paused)).getLast?

def resumeGate (seen db : Db) (c : CycleId) : Except String Db :=
  match pausedLoopJob seen c with
  | none => .error "No paused loop_decide job found for this cycle"
  | some j =>
    .ok (emit (updateJob db j fun job =>
        { job with
          status := .pending, claimedBy := none, claimedAt := none, heartbeatAt := none })
      [.gateResumed c none])

/-- The `stop_manual` decision, filed when there is a decision or a recommendation to refer to. -/
def manualDecision (db : Db) (c : CycleId) (charter : CharterId) : List LoopDecision :=
  let budget := db.budgets.find? fun budget => budget.cycleId == c
  let base (run : RunId) (recId : RecommendationId) (iteration : Nat) : LoopDecision :=
    { cycleId := c, charterId := charter, runRecordId := run, recommendationId := recId
      iterationNumber := iteration, decision := .stopManual
      snapshotTotalRuns := (budget.map AutonomyBudget.totalRuns).getD 0
      snapshotWallClockElapsedS := (budget.map AutonomyBudget.wallClockElapsedS).getD 0
      snapshotRunsPerHypothesis := (budget.map AutonomyBudget.runsPerHypothesis).getD []
      reasoning := "Manual stop requested." }
  match (db.decisions.filter fun row => row.cycleId == c).getLast? with
  | some last =>
    [{ base last.runRecordId last.recommendationId (last.iterationNumber + 1) with
       hypothesisCardId := last.hypothesisCardId
       contextSummaryPath := last.contextSummaryPath }]
  | none =>
    match (db.recommendations.zipIdx.filter fun row => row.1.cycleId == c).getLast? with
    | some (row, recId) => [base row.runRecordId recId 1]
    | none => []

def stoppedLoop (db : Db) (c : CycleId) (charter : CharterId) : Db :=
  let cancelled := updateJobsWhere db
    (fun job => job.cycleId == some c && job.status.cancellable)
    fun job => { job with status := .cancelled }
  { cancelled with decisions := cancelled.decisions ++ manualDecision db c charter }

def stopLoop (seen db : Db) (c : CycleId) : Except String Db :=
  match seen.cycles[c]? with
  | none => .error "Cycle not found"
  | some cycle =>
    let stopped := stoppedLoop db c cycle.charterId
    let moved :=
      if cycle.status = .loopDeciding ∨ cycle.status = .running then
        addJob (assignCycleStatus stopped c cycle.status .reporting)
          (createJob db (some c) .loopReport { cycleId := some c } 5)
      else stopped
    .ok (emit moved [.loopStoppedManual c])

def respond (request : Request) (seen db : Db) : Except String Db :=
  match request with
  | .createCycle charter policy => .ok (createCycle db charter policy)
  | .transitionCycle c target => transitionCycle seen db c target
  | .startDiscovery c => startDiscovery seen db c
  | .startAnalysis c => startAnalysis seen db c
  | .startHypothesisSession c charter => startHypothesisSession seen db c charter
  | .compileProtocols c session cards profile image =>
    compileProtocols seen db c session cards profile image
  | .startRun spec => startRun seen db spec
  | .controlRun r action => controlRun seen db r action
  | .cancelJob j => cancelJob seen db j
  | .pauseJob j => pauseJobRequest seen db j
  | .resumeJob j => resumeJob seen db j
  | .resumeGate c => resumeGate seen db c
  | .stopLoop c => stopLoop seen db c

end Synthetos.Api
