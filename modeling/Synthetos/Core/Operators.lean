import Synthetos.Lib.Text
import Synthetos.Storage.Session

/-!
# Operator contracts

An operator reads the database and its job, and produces one transaction and either its result or
the point at which it continues with a further transaction.  Answers of the outside world (git,
docker, the file system, language models) are inputs.
-/

namespace Synthetos.Core

open Storage Lib

structure OperatorInput where
  cycleId : Option CycleId
  jobId : JobId
  jobType : JobType
  payload : Payload

/-- Output returned by an operator after execution; `statePatch` is its `cycle_status` entry. -/
structure OperatorResult where
  success : Bool
  error : Option String := none
  statePatch : Option CycleStatus := none

/-- How a container's run ended, as the container loop reports it. -/
inductive TerminalState where
  | paused
  | cancelled
  | exited (code : Int)  -- `-1` is the runner's timeout
  deriving DecidableEq, Repr

/-- Where an operator with several transactions stands. -/
inductive Phase where
  | start
  | launching (resumeContainer : Option ContainerId)
  | polling (container : ContainerId)
  | checking (container : ContainerId)
  | left (container : ContainerId) (terminal : TerminalState)
  | compiled (spec : SpecId)
  | reported
  deriving DecidableEq, Repr

/-- The phases of `execution_run` after its first transaction. -/
def Phase.inContainer : Phase → Bool
  | .launching _ | .polling _ | .checking _ | .left _ _ => true
  | .start | .compiled _ | .reported => false

inductive Next where
  | suspend (phase : Phase)
  | finish (result : OperatorResult)

/-- `OperatorResult(success=False, error=...)` -/
def OperatorResult.failure (message : String) : OperatorResult :=
  { success := false, error := some message }

def rejectWith (message : String) : Txn × Next := ({}, .finish (.failure message))

/-- Commit `txn` and return success with the given `cycle_status` patch. -/
def succeedWith (txn : Txn) (patch : Option CycleStatus) : Txn × Next :=
  (txn, .finish { success := true, statePatch := patch })

/-- What the container loop observes about the container. -/
inductive Observation where
  | stillRunning
  | timedOut
  | exited (code : Int)
  deriving DecidableEq, Repr

/-- One spec drafted by the protocol compiler's language model. -/
structure CompiledSpec where
  title : String := ""
  baseline : Dict
  controls : List Json := []
  metrics : List Dict
  stopConditions : List Json := []
  codePlan : Dict
  baseImage : Option String := none

/-- Answers of the outside world to one operator step. -/
structure External where
  raised : Option String := none
  relay : Except String Unit := .ok ()
  createWorktree : Except String String := .ok "/workspaces/run"
  writeFiles : Except String Unit := .ok ()
  commitWorktree : Except String String := .ok "0000000"
  imageBuild : Option (Except String Unit) := none
  workspaceExists : Bool := true
  startContainer : Except String ContainerId := .ok 0
  controlContainer : Except String Unit := .ok ()
  observation : Except String Observation := .ok (.exited 0)
  logTail : String := ""
  metrics : List (String × Rat) := []
  metricErrors : List String := []
  verdict : Verdict := .passed
  postmortemRootCause : String := ""
  stderrTail : String := ""
  resourceLimits : Option Dict := none
  expectedArtifacts : Option (List Dict) := none
  artifactManifest : Option (List Dict) := none
  debugProducedFix : Bool := true  -- the broad-debug call returned patched files
  compiledSpecs : Except String (List CompiledSpec) := .ok []
  summaryPath : Except String String := .ok ""
  writeReport : Except String Unit := .ok ()
  enqueueConsolidation : Bool := true
  host : Text.Host := Text.asciiHost

/-- `create_job`: a new pending job. -/
def createJob (db : Db) (cycleId : Option CycleId) (jobType : JobType) (payload : Payload)
    (priority : Int) : Job :=
  { cycleId, jobType, payload, priority, createdAt := db.now }

/-- `enqueue_next` of the execution, verification and remediation operators. -/
def enqueueNext (db : Db) (cycleId : CycleId) (nextJobType : JobType) (runRecordId : RunId) : Job :=
  createJob db (some cycleId) nextJobType { runRecordId := some runRecordId } 10

def loadRunRecord (db : Db) (run : RunId) : Except String RunRecord :=
  match db.runs[run]? with
  | some row => .ok row
  | none => .error s!"run record {run} not found"

def loadExperimentSpec (db : Db) (spec : SpecId) : Except String ExperimentSpec :=
  match db.specs[spec]? with
  | some row => .ok row
  | none => .error s!"experiment spec {spec} not found"

@[simp] theorem enqueueNext_jobType (db : Db) (c : CycleId) (t : JobType) (r : RunId) :
    (enqueueNext db c t r).jobType = t := rfl
@[simp] theorem enqueueNext_cycleId (db : Db) (c : CycleId) (t : JobType) (r : RunId) :
    (enqueueNext db c t r).cycleId = some c := rfl
@[simp] theorem enqueueNext_status (db : Db) (c : CycleId) (t : JobType) (r : RunId) :
    (enqueueNext db c t r).status = .pending := rfl
@[simp] theorem enqueueNext_payload (db : Db) (c : CycleId) (t : JobType) (r : RunId) :
    (enqueueNext db c t r).payload = { runRecordId := some r } := rfl

end Synthetos.Core
