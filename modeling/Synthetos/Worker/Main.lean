import Synthetos.Core.StateMachine
import Synthetos.Worker.Executor

/-!
# The worker loop

After an operator returns, the worker reads the job, then what the outcome writes to (the cycle
for a status patch, the run for a failed execution job), and commits the outcome.
-/

namespace Synthetos.Worker

open Synthetos.Core Storage Lib

/-- What a worker is doing between two steps. -/
inductive WorkerPc where
  | idle
  | claimed (job : JobId)
  | executing (job : JobId) (phase : Phase)
  | returned (job : JobId) (result : OperatorResult)
  | outcome (job : JobId) (result : OperatorResult) (seen : JobStatus)
  | recording (job : JobId) (result : OperatorResult) (seen : JobStatus)
      (cycleSeen : Option CycleStatus) (runSeen : Option RunStatus)
  | reclaiming (stale : List (JobId × Job))
  | stopped

/-- The job a worker has claimed and not yet let go of. -/
def WorkerPc.job? : WorkerPc → Option JobId
  | .claimed j | .executing j _ | .returned j _ | .outcome j _ _ | .recording j _ _ _ _ => some j
  | .idle | .reclaiming _ | .stopped => none

/-- `_build_operator_input` -/
def operatorInput (j : JobId) (job : Job) : OperatorInput :=
  { cycleId := job.cycleId, jobId := j, jobType := job.jobType, payload := job.payload }

/-- `_mark_execution_job_failed` acts on jobs of these types. -/
def isExecutionJob : JobType → Bool
  | .executionSetup | .executionRun | .executionCapture | .verificationCheck
  | .verificationPostmortem | .protocolCompile => true
  | _ => false

/-- The cycle row a status patch would be applied to. -/
def patchTarget (db : Db) (job : Job) (result : OperatorResult) :
    Option (ResearchCycle × CycleStatus) := do
  let target ← result.statePatch
  let c ← job.cycleId
  let cycle ← db.cycles[c]?
  return (cycle, target)

/-- The status of the run a failed job would mark failed. -/
def failureTarget (db : Db) (job : Job) : Option RunStatus :=
  if isExecutionJob job.jobType then
    job.payload.runRecordId.bind fun r => db.runs[r]?.map RunRecord.status
  else none

/-- `_apply_state_patch`, for the status it validated against. -/
def applyStatePatch (db : Db) (job : Job) (result : OperatorResult)
    (cycleSeen : Option CycleStatus) : Db :=
  match job.cycleId, result.statePatch, cycleSeen with
  | some c, some target, some seen => setCycleStatus db c seen target
  | _, _, _ => db

/-- `_mark_execution_job_failed`, for the run status it read. -/
def markExecutionJobFailed (db : Db) (job : Job) (error : String) (runSeen : Option RunStatus) :
    Db :=
  match job.payload.runRecordId, runSeen with
  | some r, some seen =>
    if seen = .failed ∨ seen = .cancelled then db
    else emit
      { db with runs := Table.update db.runs r fun run =>
          { run with status := .failed, error := some error, completedAt := some db.now } }
      [.runFailed r]
  | _, _ => db

def writeOutcome (db : Db) (j : JobId) (job : Job) (result : OperatorResult) (seen : JobStatus)
    (cycleSeen : Option CycleStatus) (runSeen : Option RunStatus) : Db :=
  if result.success then
    let patched := applyStatePatch db job result cycleSeen
    if seen = .paused then emit (pauseJob patched j) [.jobPausedAtCheckpoint j]
    else emit (completeJob patched j) [.jobCompleted j]
  else
    let error := result.error.getD "unknown error"
    emit (failJob (markExecutionJobFailed db job error runSeen) j error) [.jobFailed j error]

def outcomeStatus (result : OperatorResult) (seen : JobStatus) : JobStatus :=
  if result.success then (if seen = .paused then .paused else .completed) else .failed

end Synthetos.Worker
