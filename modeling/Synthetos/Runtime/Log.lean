import Synthetos.Runtime.Growth

/-!
# The event log

Every step appends to the log.  A job that the recovery pass gives up leaves an event.
-/

namespace Synthetos

open Synthetos.Core Storage Lib Worker Api

/-- Events are only appended. -/
def Logs (old new : Db) : Prop := old.events <+: new.events

theorem Logs.refl (db : Db) : Logs db db := List.prefix_refl _

theorem Logs.trans {a b c : Db} (hab : Logs a b) (hbc : Logs b c) : Logs a c :=
  List.IsPrefix.trans hab hbc

theorem Logs.emit {old new : Db} (h : Logs old new) (events : List DomainEvent) :
    Logs old (Core.emit new events) :=
  h.trans (List.prefix_append _ _)

theorem Logs.of_eq {old new : Db} (h : new.events = old.events) : Logs old new := by
  unfold Logs
  exact h ▸ List.prefix_refl _

variable {settings : Settings} {sys sys' : Runtime} {l : Label}

theorem reclaimJob_logs (maxReclaims : Nat) (db : Db) (j : JobId) (seen : Job) :
    Logs db (reclaimJob maxReclaims db j seen) := by
  unfold reclaimJob
  dsimp only
  split <;> exact Logs.emit (.refl _) _

theorem reclaimStaleJobs_logs (maxReclaims : Nat) (db : Db) (stale : List (JobId × Job)) :
    Logs db (reclaimStaleJobs maxReclaims db stale) := by
  induction stale generalizing db with
  | nil => exact .refl db
  | cons entry rest ih => exact (reclaimJob_logs maxReclaims db entry.1 entry.2).trans (ih _)

theorem reclaimStaleJobs_reports {maxReclaims : Nat} {db : Db} {stale : List (JobId × Job)}
    {j : JobId} {seen : Job} (hrow : (j, seen) ∈ stale)
    (hcount : maxReclaims < seen.reclaimCount + 1) :
    .jobReclaimExhausted j seen.reclaimCount ∈ (reclaimStaleJobs maxReclaims db stale).events := by
  induction stale generalizing db with
  | nil => exact absurd hrow nofun
  | cons entry rest ih =>
    rcases List.mem_cons.mp hrow with rfl | hrest
    · apply (reclaimStaleJobs_logs maxReclaims _ rest).subset
      unfold reclaimJob
      simp [hcount, emit]
    · exact ih hrest

theorem applyStatePatch_logs (db : Db) (job : Job) (result : OperatorResult)
    (cycleSeen : Option CycleStatus) : Logs db (applyStatePatch db job result cycleSeen) := by
  unfold applyStatePatch
  split
  · exact Logs.emit (.refl _) _
  · exact .refl db

theorem markExecutionJobFailed_logs (db : Db) (job : Job) (error : String)
    (runSeen : Option RunStatus) : Logs db (markExecutionJobFailed db job error runSeen) := by
  unfold markExecutionJobFailed
  split
  · split
    · exact .refl db
    · exact Logs.emit (.refl _) _
  · exact .refl db

theorem writeOutcome_logs (db : Db) (j : JobId) (job : Job) (result : OperatorResult)
    (seen : JobStatus) (cycleSeen : Option CycleStatus) (runSeen : Option RunStatus) :
    Logs db (Worker.writeOutcome db j job result seen cycleSeen runSeen) := by
  unfold Worker.writeOutcome
  dsimp only
  split
  · split <;> exact Logs.emit (applyStatePatch_logs db job result cycleSeen) _
  · exact Logs.emit (markExecutionJobFailed_logs db job _ runSeen) _

theorem ensureRunning_events (seen db : Db) (c : CycleId) :
    (ensureRunning seen db c).events = db.events := by
  unfold ensureRunning
  split
  · rfl
  · split <;> rfl

theorem respond_logs {body : Request} {seen db new : Db} (h : Responds seen db body new) :
    Logs db new := by
  cases h with
  | startAnalysis c cycle moved hcycle hmoved | startRun spec row cycle moved _ _ _ hmoved
  | stopLoop c cycle moved hcycle hmoved =>
    rcases hmoved with ⟨-, rfl⟩ | ⟨-, rfl⟩ <;> exact List.prefix_append _ _
  | resumeRun r run => exact .of_eq (ensureRunning_events seen _ run.cycleId)
  | retryRun r run => exact .of_eq (ensureRunning_events seen db run.cycleId)
  | _ => exact List.prefix_append _ _

theorem step_logs (h : Step settings sys l sys') : Logs sys.db sys'.db := by
  cases h with
  | exec => exact List.prefix_append _ _
  | start | acknowledge => exact Logs.emit (.refl _) _
  | writeOutcome => exact writeOutcome_logs ..
  | writeStale => exact reclaimStaleJobs_logs ..
  | respond q body seen db hpc hanswer => exact respond_logs hanswer
  | _ => exact .refl _

end Synthetos
