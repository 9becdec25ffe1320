import Synthetos.Core.Operators
import Synthetos.Lib.Text

/-!
# Execution operators

`execution_setup` prepares a workspace and an image, `execution_run` drives the container and
`execution_capture` collects metrics and artifacts.
-/

namespace Synthetos.Execution

open Synthetos.Core Storage Lib

def markFailed (now : Timestamp) (failureClass error : String) (run : RunRecord) : RunRecord :=
  { run with
    status := .failed, failureClass := some failureClass, error := some error,
    completedAt := some now }

/-- Commit the run as failed and return the error to the worker. -/
def failRun (run : RunId) (update : RunRecord → RunRecord) (error : String) : Txn × Next :=
  ({ runUpdate := some (run, update) }, .finish (.failure error))

/-- `run.started_at`, set before the worktree exists. -/
def started (now : Timestamp) (run : RunRecord) : RunRecord := { run with startedAt := some now }

/-- `run.workspace_path`, set once the worktree exists. -/
def inWorkspace (now : Timestamp) (workspace : String) (run : RunRecord) : RunRecord :=
  { started now run with workspacePath := some workspace }

/-- A failed preparation: `prepared` is what was set on the run before the failure. -/
def setupFailed (db : Db) (runId : RunId) (prepared : RunRecord → RunRecord) (message : String) :
    Txn × Next :=
  failRun runId (fun row => markFailed db.now "dependency" message (prepared row)) message

def setupReady (db : Db) (runId : RunId) (run : RunRecord) (workspace : String)
    (events : List DomainEvent) : Txn × Next :=
  succeedWith
    { runUpdate := some (runId, fun row =>
        { inWorkspace db.now workspace row with status := .building })
      newJobs := [enqueueNext db run.cycleId .executionRun runId]
      events := events ++ [.workspaceCreated runId] }
    none

def executionSetupOperator (db : Db) (input : OperatorInput) (world : External) :
    Except String (Txn × Next) := do
  let some runId := input.payload.runRecordId
    | return rejectWith s!"job {input.jobId} payload is missing required 'run_record_id'"
  let run ← loadRunRecord db runId
  let some _ := db.specs[run.experimentSpecId]?
    | return rejectWith "experiment spec not found"
  match world.createWorktree with
  | .error e => return setupFailed db runId (started db.now) s!"worktree creation failed: {e}"
  | .ok workspace =>
    let prepared := inWorkspace db.now workspace
    world.writeFiles
    match world.commitWorktree with
    | .error e => return setupFailed db runId prepared s!"worktree commit failed: {e}"
    | .ok commitSha =>
      if commitSha = "" then
        return setupFailed db runId prepared "worktree commit failed: empty commit sha"
      match world.imageBuild with
      | none => return setupReady db runId run workspace []
      | some (.error e) => return setupFailed db runId prepared s!"image build failed: {e}"
      | some (.ok ()) => return setupReady db runId run workspace [.imageBuilt runId]

def oomSignals : List String := ["oom", "out of memory", "killed", "signal 9"]

def timeoutSignals : List String := ["timeout"]

def dependencySignals : List String := ["modulenotfounderror", "importerror", "no such file"]

def artifactSignals : List String :=
  ["filenotfounderror", "artifact", "missing output", "expected output"]

/-- `any(s in text.lower() for s in signals)` -/
def mentions (signals : List String) (text : List Char) : Bool :=
  signals.any fun signal => containsText signal.toList (text.flatMap Text.lowerChar)

def classifyFailure (exitCode : Int) (stderrTail : String) : String :=
  let text := stderrTail.toList
  if exitCode = 137 ∨ mentions oomSignals text then "oom"
  else if mentions timeoutSignals text then "timeout"
  else if mentions dependencySignals text then "dependency"
  else if mentions artifactSignals text then "invalid_artifact"
  else if exitCode ≠ 0 then "runtime"
  else "unknown"

/-- First transaction of `execution_run`: mark the run running, or failed without a workspace. -/
def executionRunStart (db : Db) (input : OperatorInput) (world : External) :
    Except String (Txn × Next) := do
  let some runId := input.payload.runRecordId
    | return rejectWith s!"job {input.jobId} payload is missing required 'run_record_id'"
  let run ← loadRunRecord db runId
  if run.workspacePath.isNone || !world.workspaceExists then
    let message := "workspace path does not exist"
    return failRun runId (fun row => markFailed db.now "dependency" message row) message
  return ({ runUpdate := some (runId, fun row => { row with status := .running })
            events := [.containerStarted runId input.payload.resume] },
          .suspend (.launching (if input.payload.resume then run.containerId else none)))

/-- `except Exception` around the container runner. -/
def containerFailed (db : Db) (runId : RunId) (e : String) : Txn × Next :=
  let message := s!"container execution failed: {e}"
  failRun runId (fun row => markFailed db.now "runtime" message row) message

/-- Create and start the container, or unpause the one recorded on the run. -/
def executionRunLaunch (db : Db) (runId : RunId) (resumeContainer : Option ContainerId)
    (world : External) : Txn × Next :=
  match world.startContainer with
  | .error e => containerFailed db runId e
  | .ok fresh => ({}, .suspend (.polling (resumeContainer.getD fresh)))

/-- `control_callback`: read the run's status and act on a pause or a cancellation. -/
def executionRunPoll (db : Db) (runId : RunId) (container : ContainerId) (world : External) :
    Txn × Next :=
  match db.runs[runId]? with
  | none => containerFailed db runId s!"run record {runId} not found"
  | some run =>
    match run.status, world.controlContainer with
    | .cancelled, .ok () => ({}, .suspend (.left container .cancelled))
    | .paused, .ok () => ({}, .suspend (.left container .paused))
    | .cancelled, .error e => containerFailed db runId e
    | .paused, .error e => containerFailed db runId e
    | _, _ => ({}, .suspend (.checking container))

/-- Look at the clock and at the container once after a poll. -/
def executionRunCheck (db : Db) (runId : RunId) (container : ContainerId) (world : External) :
    Txn × Next :=
  match world.observation with
  | .error e => containerFailed db runId e
  | .ok .stillRunning => ({}, .suspend (.polling container))
  | .ok .timedOut => ({}, .suspend (.left container (.exited (-1))))
  | .ok (.exited code) => ({}, .suspend (.left container (.exited code)))

/-- Last transaction of `execution_run`: record how the container ended. -/
def executionRunRecord (db : Db) (run : RunRecord) (runId : RunId) (container : ContainerId)
    (terminal : TerminalState) (world : External) : Txn × Next :=
  let left (row : RunRecord) : RunRecord := { row with containerId := some container }
  match terminal with
  | .paused =>
    succeedWith { runUpdate := some (runId, fun row => { left row with status := .paused }) } none
  | .cancelled =>
    succeedWith
      { runUpdate := some (runId, fun row =>
          { left row with status := .cancelled, completedAt := some db.now }) }
      none
  | .exited code =>
    let exited (row : RunRecord) : RunRecord :=
      { left row with exitCode := if 0 ≤ code then some code else none }
    if code ≠ 0 then
      succeedWith
        { runUpdate := some (runId, fun row =>
            markFailed db.now (classifyFailure code world.logTail)
              s!"container exited with code {code}" (exited row))
          newJobs := [enqueueNext db run.cycleId .verificationCheck runId]
          events := [.runFailed runId] }
        (some .verifying)
    else
      succeedWith
        { runUpdate := some (runId, fun row => { exited row with status := .capturing })
          newJobs := [enqueueNext db run.cycleId .executionCapture runId]
          events := [.runCompleted runId] }
        none

def executionRunOperator (db : Db) (input : OperatorInput) (phase : Phase) (world : External) :
    Except String (Txn × Next) :=
  match phase, input.payload.runRecordId with
  | .launching resumeContainer, some runId => .ok (executionRunLaunch db runId resumeContainer world)
  | .polling container, some runId => .ok (executionRunPoll db runId container world)
  | .checking container, some runId => .ok (executionRunCheck db runId container world)
  | .left container terminal, some runId => do
    let run ← loadRunRecord db runId
    return executionRunRecord db run runId container terminal world
  | _, _ => executionRunStart db input world

def executionCaptureOperator (db : Db) (input : OperatorInput) (world : External) :
    Except String (Txn × Next) := do
  let some runId := input.payload.runRecordId
    | return rejectWith s!"job {input.jobId} payload is missing required 'run_record_id'"
  let run ← loadRunRecord db runId
  let some _ := db.specs[run.experimentSpecId]?
    | return rejectWith "experiment spec not found"
  if world.metricErrors.isEmpty then
    return succeedWith
      { runUpdate := some (runId, fun row =>
          { row with
            metricsOutput := world.metrics, status := .completed, completedAt := some db.now })
        newJobs := [enqueueNext db run.cycleId .verificationCheck runId]
        events := [.artifactsCaptured runId] }
      (some .verifying)
  else
    return succeedWith
      { runUpdate := some (runId, fun row =>
          markFailed db.now "metric_parse" ("; ".intercalate world.metricErrors)
            { row with metricsOutput := world.metrics })
        newJobs := [enqueueNext db run.cycleId .verificationCheck runId]
        events := [.runFailed runId] }
      (some .verifying)

end Synthetos.Execution
