import Synthetos.Api.Requests
import Synthetos.Lib.Transition
import Synthetos.Worker.Main
import Mathlib.Logic.Function.Basic

/-!
# The system

Workers and API requests over one database.  Every committed transaction is one step, and so is
every read a later write depends on, so that all interleavings at READ COMMITTED are runs.
-/

namespace Synthetos

open Synthetos.Core Storage Lib Worker Api

/-- A request that has read the rows it checks but has not committed. -/
inductive RequestPc where
  | idle
  | opened (request : Request) (seen : Db)

structure Runtime where
  db : Db
  workers : WorkerId → WorkerPc := fun _ => .idle
  requests : Nat → RequestPc := fun _ => .idle

structure Settings where
  heartbeatTimeout : Nat := 120000000
  maxReclaims : Nat := 3

inductive Label where
  | tick (elapsed : Nat)
  | claim (worker : WorkerId) (locked : List JobId)
  | start (worker : WorkerId)
  | exec (worker : WorkerId) (world : External)
  | readOutcome (worker : WorkerId)
  | readTarget (worker : WorkerId)
  | writeOutcome (worker : WorkerId)
  | heartbeat (worker : WorkerId)
  | readStale (worker : WorkerId)
  | writeStale (worker : WorkerId)
  | crash (worker : WorkerId)
  | receive (request : Nat) (body : Request)
  | respond (request : Nat)
  | drop (request : Nat)

namespace Runtime

def moveWorker (sys : Runtime) (w : WorkerId) (db : Db) (pc : WorkerPc) : Runtime :=
  { sys with db := db, workers := Function.update sys.workers w pc }

def moveRequest (sys : Runtime) (q : Nat) (db : Db) (pc : RequestPc) : Runtime :=
  { sys with db := db, requests := Function.update sys.requests q pc }

def afterExec (j : JobId) : Next → WorkerPc
  | .suspend phase => .executing j phase
  | .finish result => .returned j result

def claim (sys : Runtime) (w : WorkerId) (locked : List JobId) : Option Runtime :=
  match sys.workers w with
  | .idle => (nextJob sys.db locked).map fun j =>
      sys.moveWorker w (claimJob sys.db j w) (.claimed j)
  | _ => none

def start (sys : Runtime) (w : WorkerId) : Option Runtime :=
  match sys.workers w with
  | .claimed j => some (sys.moveWorker w (startJob sys.db j) (.executing j .start))
  | _ => none

def exec (sys : Runtime) (w : WorkerId) (world : External) : Option Runtime :=
  match sys.workers w with
  | .executing j phase => sys.db.jobs[j]?.map fun job =>
      let out := execute sys.db (operatorInput j job) phase world
      sys.moveWorker w (sys.db.commit out.1) (afterExec j out.2)
  | _ => none

/-- Read the job after its operator returned; a cancelled job is only acknowledged. -/
def readOutcome (sys : Runtime) (w : WorkerId) : Option Runtime :=
  match sys.workers w with
  | .returned j result => sys.db.jobs[j]?.map fun job =>
      if job.status = .cancelled then
        sys.moveWorker w (emit sys.db [.jobCancelledAcknowledged j]) .idle
      else sys.moveWorker w sys.db (.outcome j result job.status)
  | _ => none

/-- Read what the outcome writes to.  A patch the state machine rejects raises outside any
handler: the transaction is rolled back and the worker process ends. -/
def readTarget (sys : Runtime) (w : WorkerId) : Option Runtime :=
  match sys.workers w with
  | .outcome j result seen => sys.db.jobs[j]?.map fun job =>
      if result.success then
        match patchTarget sys.db job result with
        | none => sys.moveWorker w sys.db (.recording j result seen none none)
        | some (cycle, target) =>
          if validTransition cycle.status target then
            sys.moveWorker w sys.db (.recording j result seen (some cycle.status) none)
          else sys.moveWorker w sys.db .stopped
      else sys.moveWorker w sys.db (.recording j result seen none (failureTarget sys.db job))
  | _ => none

def writeOutcome (sys : Runtime) (w : WorkerId) : Option Runtime :=
  match sys.workers w with
  | .recording j result seen cycleSeen runSeen => sys.db.jobs[j]?.map fun job =>
      sys.moveWorker w
        (Worker.writeOutcome sys.db j job result seen cycleSeen runSeen) .idle
  | _ => none

/-- The heartbeat thread runs from the start of the operator until the outcome is written. -/
def heartbeat (sys : Runtime) (w : WorkerId) : Option Runtime :=
  match sys.workers w with
  | .executing j _ | .returned j _ | .outcome j _ _ | .recording j _ _ _ _ =>
    some { sys with db := heartbeatJob sys.db j }
  | _ => none

def readStale (settings : Settings) (sys : Runtime) (w : WorkerId) : Option Runtime :=
  match sys.workers w with
  | .idle =>
    some (sys.moveWorker w sys.db (.reclaiming (staleJobs sys.db settings.heartbeatTimeout)))
  | _ => none

def writeStale (settings : Settings) (sys : Runtime) (w : WorkerId) : Option Runtime :=
  match sys.workers w with
  | .reclaiming stale =>
    some (sys.moveWorker w (reclaimStaleJobs settings.maxReclaims sys.db stale) .idle)
  | _ => none

/-- The process of a worker ends; its open transaction is rolled back. -/
def crash (sys : Runtime) (w : WorkerId) : Option Runtime :=
  match sys.workers w with
  | .stopped => none
  | _ => some (sys.moveWorker w sys.db .stopped)

def receive (sys : Runtime) (q : Nat) (body : Request) : Option Runtime :=
  match sys.requests q with
  | .idle => some (sys.moveRequest q sys.db (.opened body sys.db))
  | .opened _ _ => none

/-- Commit a request, or answer with its error. -/
def respond (sys : Runtime) (q : Nat) : Option Runtime :=
  match sys.requests q with
  | .idle => none
  | .opened body seen =>
    match Api.respond body seen sys.db with
    | .ok db => some (sys.moveRequest q db .idle)
    | .error _ => some (sys.moveRequest q sys.db .idle)

def drop (sys : Runtime) (q : Nat) : Option Runtime :=
  match sys.requests q with
  | .idle => none
  | .opened _ _ => some (sys.moveRequest q sys.db .idle)

def step (settings : Settings) (sys : Runtime) : Label → Option Runtime
  | .tick elapsed => some { sys with db := { sys.db with now := sys.db.now + elapsed } }
  | .claim w locked => sys.claim w locked
  | .start w => sys.start w
  | .exec w world => sys.exec w world
  | .readOutcome w => sys.readOutcome w
  | .readTarget w => sys.readTarget w
  | .writeOutcome w => sys.writeOutcome w
  | .heartbeat w => sys.heartbeat w
  | .readStale w => sys.readStale settings w
  | .writeStale w => sys.writeStale settings w
  | .crash w => sys.crash w
  | .receive q body => sys.receive q body
  | .respond q => sys.respond q
  | .drop q => sys.drop q

def beforeRuns : CycleStatus → Bool
  | .created | .discoveryReady | .discoveryScreened | .analysisReady | .evidenceReady
  | .portfolioReady | .protocolReady => true
  | .running | .verifying | .loopDeciding | .reporting | .closed => false

/-- A system before its first request: no worker has claimed a job, nothing is queued or
recorded, and no cycle has reached execution. -/
structure Initial (sys : Runtime) : Prop where
  workers : ∀ w, sys.workers w = .idle
  requests : ∀ q, sys.requests q = .idle
  jobs : sys.db.jobs = []
  runs : sys.db.runs = []
  reports : sys.db.reports = []
  decisions : sys.db.decisions = []
  recommendations : sys.db.recommendations = []
  budgets : sys.db.budgets = []
  events : sys.db.events = []
  cycles : ∀ cycle ∈ sys.db.cycles, beforeRuns cycle.status = true

end Runtime

end Synthetos
