import Synthetos.Runtime.Processes

/-!
# What a step does to the cycle table

Seven writers assign a cycle's status.  Each assigns a target after reading the status, and only a
changed attribute is written.
-/

namespace Synthetos

open Synthetos.Core Storage Lib Worker Api

/-- The writers of a cycle's status, with the status they read and the one they assign. -/
inductive CycleWrite (sys : Runtime) : Label → CycleId → CycleStatus → CycleStatus → Prop where
  | patch (w : WorkerId) (j : JobId) (result : OperatorResult) (status : JobStatus) (job : Job)
      (c : CycleId) (seen target : CycleStatus) (runSeen : Option RunStatus)
      (hpc : sys.workers w = .recording j result status (some seen) runSeen)
      (hj : sys.db.jobs[j]? = some job) (hresult : result.success = true)
      (hpatch : result.statePatch = some target) (hc : job.cycleId = some c) :
      CycleWrite sys (.writeOutcome w) c seen target
  | transitionCycle (q : Nat) (c : CycleId) (target : CycleStatus) (seen : Db)
      (cycle : ResearchCycle) (hpc : sys.requests q = .opened (.transitionCycle c target) seen)
      (hcycle : seen.cycles[c]? = some cycle) (hvalid : validTransition cycle.status target = true) :
      CycleWrite sys (.respond q) c cycle.status target
  | startAnalysis (q : Nat) (c : CycleId) (seen : Db) (cycle : ResearchCycle)
      (hpc : sys.requests q = .opened (.startAnalysis c) seen)
      (hcycle : seen.cycles[c]? = some cycle)
      (hstatus : cycle.status = .discoveryScreened ∨ cycle.status = .analysisReady) :
      CycleWrite sys (.respond q) c cycle.status .analysisReady
  | startRun (q : Nat) (spec : SpecId) (seen : Db) (row : ExperimentSpec) (cycle : ResearchCycle)
      (hpc : sys.requests q = .opened (.startRun spec) seen)
      (hspec : seen.specs[spec]? = some row) (hcycle : seen.cycles[row.cycleId]? = some cycle)
      (hstatus : cycle.status = .protocolReady) :
      CycleWrite sys (.respond q) row.cycleId cycle.status .running
  | control (q : Nat) (r : RunId) (action : RunAction) (seen : Db) (run : RunRecord)
      (cycle : ResearchCycle) (hpc : sys.requests q = .opened (.controlRun r action) seen)
      (haction : action = .resume ∨ action = .retry) (hrun : seen.runs[r]? = some run)
      (hcycle : seen.cycles[run.cycleId]? = some cycle) (hstatus : cycle.status ≠ .running) :
      CycleWrite sys (.respond q) run.cycleId cycle.status .running
  | stopLoop (q : Nat) (c : CycleId) (seen : Db) (cycle : ResearchCycle)
      (hpc : sys.requests q = .opened (.stopLoop c) seen) (hcycle : seen.cycles[c]? = some cycle)
      (hstatus : cycle.status = .loopDeciding ∨ cycle.status = .running) :
      CycleWrite sys (.respond q) c cycle.status .reporting

/-- The configuration of a cycle never changes. -/
structure SameCycle (old new : ResearchCycle) : Prop where
  charter : new.charterId = old.charterId
  autonomy : new.autonomy = old.autonomy

theorem SameCycle.refl (cycle : ResearchCycle) : SameCycle cycle cycle := ⟨rfl, rfl⟩

/-- The status is kept, or a writer assigned it. -/
def CycleChange (sys : Runtime) (l : Label) (c : CycleId) (old new : CycleStatus) : Prop :=
  new = old ∨ ∃ seen target, CycleWrite sys l c seen target ∧ new = ormSet seen target old

variable {settings : Settings} {sys sys' : Runtime} {l : Label} {c : CycleId}
  {old new : ResearchCycle}

theorem cycle_kept {db : Db} (hc : sys.db.cycles[c]? = some old)
    (hcycles : db.cycles = sys.db.cycles) :
    ∃ new, db.cycles[c]? = some new ∧ SameCycle old new ∧
      CycleChange sys l c old.status new.status :=
  ⟨old, by rw [hcycles]; exact hc, .refl old, .inl rfl⟩

theorem cycle_assigned {db : Db} {k : CycleId} {seen target : CycleStatus}
    {f : ResearchCycle → ResearchCycle} (hc : sys.db.cycles[c]? = some old)
    (hcycles : db.cycles = Table.update sys.db.cycles k f) (hsame : SameCycle old (f old))
    (hf : (f old).status = ormSet seen target old.status)
    (hwrite : CycleWrite sys l k seen target) :
    ∃ new, db.cycles[c]? = some new ∧ SameCycle old new ∧
      CycleChange sys l c old.status new.status := by
  refine ⟨if k = c then f old else old, ?_, ?_⟩
  · rw [hcycles, Table.getElem?_update, hc]
    split <;> rfl
  · split
    · rename_i same
      subst same
      exact ⟨hsame, .inr ⟨seen, target, hwrite, hf⟩⟩
    · exact ⟨.refl old, .inl rfl⟩

theorem reclaimStaleJobs_cycles (maxReclaims : Nat) (db : Db) (stale : List (JobId × Job)) :
    (reclaimStaleJobs maxReclaims db stale).cycles = db.cycles := by
  induction stale generalizing db with
  | nil => rfl
  | cons entry rest ih =>
    refine (ih _).trans ?_
    dsimp only
    unfold reclaimJob
    dsimp only
    split <;> rfl

theorem markExecutionJobFailed_cycles (db : Db) (job : Job) (error : String)
    (runSeen : Option RunStatus) :
    (markExecutionJobFailed db job error runSeen).cycles = db.cycles := by
  unfold markExecutionJobFailed
  split
  · split <;> rfl
  · rfl

theorem writeOutcome_cycle {w : WorkerId} {j : JobId} {result : OperatorResult}
    {status : JobStatus} {cycleSeen : Option CycleStatus} {runSeen : Option RunStatus} {job : Job}
    (hc : sys.db.cycles[c]? = some old)
    (hpc : sys.workers w = .recording j result status cycleSeen runSeen)
    (hj : sys.db.jobs[j]? = some job) :
    ∃ new, (Worker.writeOutcome sys.db j job result status cycleSeen runSeen).cycles[c]? = some new ∧
      SameCycle old new ∧ CycleChange sys (.writeOutcome w) c old.status new.status := by
  unfold Worker.writeOutcome
  by_cases hresult : result.success = true
  · rw [if_pos hresult]
    have hcycles : ∀ db : Db, db.cycles = (applyStatePatch sys.db job result cycleSeen).cycles →
        ∃ new, db.cycles[c]? = some new ∧ SameCycle old new ∧
          CycleChange sys (.writeOutcome w) c old.status new.status := by
      intro db hdb
      unfold applyStatePatch at hdb
      split at hdb
      · rename_i k target seen hk hpatch
        exact cycle_assigned hc hdb ⟨rfl, rfl⟩ rfl
          (.patch w j result status job k seen target runSeen hpc hj hresult hpatch hk)
      · exact cycle_kept hc hdb
    dsimp only
    split
    · exact hcycles _ rfl
    · exact hcycles _ rfl
  · rw [if_neg hresult]
    exact cycle_kept hc (markExecutionJobFailed_cycles ..)

theorem ensureRunning_cycle {db : Db} {q : Nat} {r : RunId} {action : RunAction} {seen : Db}
    {run : RunRecord} (hc : sys.db.cycles[c]? = some old)
    (hpc : sys.requests q = .opened (.controlRun r action) seen)
    (haction : action = .resume ∨ action = .retry) (hrun : seen.runs[r]? = some run)
    {base : Db} (hdb : db.cycles = (ensureRunning seen base run.cycleId).cycles)
    (hbase : base.cycles = sys.db.cycles) :
    ∃ new, db.cycles[c]? = some new ∧ SameCycle old new ∧
      CycleChange sys (.respond q) c old.status new.status := by
  unfold ensureRunning at hdb
  split at hdb
  · exact cycle_kept hc (hdb.trans hbase)
  · rename_i cycle hcycle
    split at hdb
    · exact cycle_kept hc (hdb.trans hbase)
    · rename_i hstatus
      have hcycles : db.cycles = Table.update sys.db.cycles run.cycleId fun row =>
          { row with status := ormSet cycle.status .running row.status, updatedAt := base.now } := by
        rw [hdb, ← hbase]
        rfl
      exact cycle_assigned hc hcycles ⟨rfl, rfl⟩ rfl
        (.control q r action seen run cycle hpc haction hrun hcycle hstatus)

theorem respond_cycle {q : Nat} {body : Request} {seen db : Db}
    (hpc : sys.requests q = .opened body seen) (hanswer : Responds seen sys.db body db)
    (hc : sys.db.cycles[c]? = some old) :
    ∃ new, db.cycles[c]? = some new ∧ SameCycle old new ∧
      CycleChange sys (.respond q) c old.status new.status := by
  cases hanswer with
  | createCycle => exact ⟨old, Table.getElem?_append_old hc, .refl old, .inl rfl⟩
  | startDiscovery | startHypothesisSession | compileProtocols | cancelRun | pauseRun | cancelJob
  | pauseJob | resumeJob | resumeGate => exact cycle_kept hc rfl
  | transitionCycle k target cycle hcycle hvalid =>
    exact cycle_assigned hc rfl ⟨rfl, rfl⟩ rfl
      (.transitionCycle q k target seen cycle hpc hcycle hvalid)
  | startAnalysis k cycle moved hcycle hmoved =>
    rcases hmoved with ⟨hstatus, rfl⟩ | ⟨-, rfl⟩
    · exact cycle_assigned hc rfl ⟨rfl, rfl⟩ rfl (.startAnalysis q k seen cycle hpc hcycle hstatus)
    · exact cycle_kept hc rfl
  | startRun spec row cycle moved hspec hvalidated hcycle hmoved =>
    rcases hmoved with ⟨hstatus, rfl⟩ | ⟨-, rfl⟩
    · exact cycle_assigned hc rfl ⟨rfl, rfl⟩ rfl
        (.startRun q spec seen row cycle hpc hspec hcycle hstatus)
    · exact cycle_kept hc rfl
  | resumeRun r run hrun => exact ensureRunning_cycle hc hpc (.inl rfl) hrun rfl rfl
  | retryRun r run hrun => exact ensureRunning_cycle hc hpc (.inr rfl) hrun rfl rfl
  | stopLoop k cycle moved hcycle hmoved =>
    rcases hmoved with ⟨hstatus, rfl⟩ | ⟨-, rfl⟩
    · exact cycle_assigned hc rfl ⟨rfl, rfl⟩ rfl (.stopLoop q k seen cycle hpc hcycle hstatus)
    · exact cycle_kept hc rfl

theorem step_cycle (h : Step settings sys l sys') (hc : sys.db.cycles[c]? = some old) :
    ∃ new, sys'.db.cycles[c]? = some new ∧ SameCycle old new ∧
      CycleChange sys l c old.status new.status := by
  cases h with
  | writeOutcome w j result status cycleSeen runSeen job hpc hj =>
    exact writeOutcome_cycle hc hpc hj
  | writeStale w stale hpc => exact cycle_kept hc (reclaimStaleJobs_cycles ..)
  | respond q body seen db hpc hanswer => exact respond_cycle hpc hanswer hc
  | _ => exact cycle_kept hc rfl

end Synthetos
