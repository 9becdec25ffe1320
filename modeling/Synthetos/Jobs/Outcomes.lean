import Synthetos.Jobs.Latest
import Synthetos.Runtime.Log

/-!
# Where a job's outcome comes from

A worker carries the result of an operator from its return to the outcome it writes.  A job is
completed by such an outcome only, and failed by one or by a recovery pass that gives it up.
-/

namespace Synthetos.Jobs

open Synthetos.Core Storage Lib Worker Api

def result? : WorkerPc → Option (JobId × OperatorResult)
  | .returned j result | .outcome j result _ | .recording j result _ _ _ => some (j, result)
  | _ => none

/-- The worker is about to write this outcome. -/
def Records (pc : WorkerPc) (j : JobId) (result : OperatorResult) : Prop :=
  ∃ seen cycleSeen runSeen, pc = .recording j result seen cycleSeen runSeen

variable {settings : Settings} {sys sys' : Runtime} {l : Label} {w : WorkerId} {j : JobId}
  {old new : Job} {result : OperatorResult}

theorem Records.result? {pc : WorkerPc} (h : Records pc j result) :
    Jobs.result? pc = some (j, result) := by
  obtain ⟨seen, cycleSeen, runSeen, rfl⟩ := h
  rfl

theorem Records.job? {pc : WorkerPc} (h : Records pc j result) : pc.job? = some j := by
  obtain ⟨seen, cycleSeen, runSeen, rfl⟩ := h
  rfl

theorem Records.unique {pc : WorkerPc} {k : JobId} {other : OperatorResult}
    (h : Records pc j result) (h' : Records pc k other) : j = k ∧ result = other :=
  Prod.mk.inj (Option.some.inj (h.result?.symm.trans h'.result?))

theorem step_result (h : Step settings sys l sys')
    (hr : Jobs.result? (sys'.workers w) = some (j, result)) :
    Jobs.result? (sys.workers w) = some (j, result) ∨
      ∃ world phase, l = .exec w world ∧ sys.workers w = .executing j phase := by
  by_cases hl : l.worker? = some w
  case neg =>
    rw [step_other_worker h hl] at hr
    exact .inl hr
  cases h with
  | tick | receive | respond | reject | drop => exact absurd hl nofun
  | heartbeat => exact .inl hr
  | exec w' world k phase job txn next hpc =>
    obtain rfl := Option.some.inj hl
    rw [Runtime.moveWorker_self] at hr
    cases next with
    | suspend phase' => exact absurd hr nofun
    | finish result' =>
      obtain ⟨rfl, -⟩ := Prod.mk.inj (Option.some.inj hr)
      exact .inr ⟨world, phase, rfl, hpc⟩
  | readOutcome w' k result' job hpc | readFailure w' k result' seen job hpc
  | readNoPatch w' k result' seen job hpc
  | readPatch w' k result' seen job cycle target hpc =>
    obtain rfl := Option.some.inj hl
    rw [Runtime.moveWorker_self] at hr
    left
    rw [hpc]
    exact hr
  | claim w' | start w' | acknowledge w' | raisePatch w' | writeOutcome w' | crash w'
  | writeStale w' | readStale w' =>
    obtain rfl := Option.some.inj hl
    rw [Runtime.moveWorker_self] at hr
    exact absurd hr nofun

theorem step_records (h : Step settings sys l sys') (hr : Records (sys'.workers w) j result) :
    Records (sys.workers w) j result ∨
      l = .readTarget w ∧ ∃ seen, sys.workers w = .outcome j result seen := by
  by_cases hl : l.worker? = some w
  case neg =>
    rw [step_other_worker h hl] at hr
    exact .inl hr
  obtain ⟨seen, cycleSeen, runSeen, hr⟩ := hr
  cases h with
  | tick | receive | respond | reject | drop => exact absurd hl nofun
  | heartbeat => exact .inl ⟨seen, cycleSeen, runSeen, hr⟩
  | readFailure w' k result' seen' job hpc | readNoPatch w' k result' seen' job hpc
  | readPatch w' k result' seen' job cycle target hpc =>
    obtain rfl := Option.some.inj hl
    rw [Runtime.moveWorker_self] at hr
    obtain ⟨rfl, rfl, rfl, -⟩ := WorkerPc.recording.inj hr
    exact .inr ⟨rfl, _, hpc⟩
  | exec w' world k phase job txn next hpc =>
    obtain rfl := Option.some.inj hl
    rw [Runtime.moveWorker_self] at hr
    cases next <;> exact absurd hr nofun
  | claim w' | start w' | acknowledge w' | raisePatch w' | writeOutcome w' | crash w'
  | writeStale w' | readStale w' | readOutcome w' =>
    obtain rfl := Option.some.inj hl
    rw [Runtime.moveWorker_self] at hr
    exact absurd hr nofun

theorem readTarget_records (h : Step settings sys (.readTarget w) sys')
    (hr : Records (sys'.workers w) j result) : ∃ seen, sys.workers w = .outcome j result seen := by
  obtain ⟨seen, cycleSeen, runSeen, hr⟩ := hr
  cases h with
  | readFailure _ k result' seen' job hpc | readNoPatch _ k result' seen' job hpc
  | readPatch _ k result' seen' job cycle target hpc =>
    rw [Runtime.moveWorker_self] at hr
    obtain ⟨rfl, rfl, -⟩ := WorkerPc.recording.inj hr
    exact ⟨seen', hpc⟩
  | raisePatch =>
    rw [Runtime.moveWorker_self] at hr
    exact absurd hr nofun

theorem outcomeStatus_completed {seen : JobStatus} (h : outcomeStatus result seen = .completed) :
    result.success = true := by
  unfold outcomeStatus at h
  split at h
  · assumption
  · exact absurd h nofun

theorem outcomeStatus_failed {seen : JobStatus} (h : outcomeStatus result seen = .failed) :
    result.success = false := by
  unfold outcomeStatus at h
  split at h
  · split at h <;> exact absurd h nofun
  · rename_i hfails
    simpa using hfails

/-- The changes that can leave a job completed or failed. -/
theorem jobChange_outcome (h : JobChange settings sys j old l new)
    (hnew : new.status = .completed ∨ new.status = .failed) :
    new.status = old.status ∨
      (∃ w result seen, l = .writeOutcome w ∧ Records (sys.workers w) j result ∧
        new.status = outcomeStatus result seen) ∨
      new.status = .failed ∧ ∃ w stale row, l = .writeStale w ∧
        sys.workers w = .reclaiming stale ∧ (j, row) ∈ stale ∧
        settings.maxReclaims < row.reclaimCount + 1 := by
  have other {s : JobStatus} {P : Prop} (hs : new.status = s) (hne : s ≠ .completed)
      (hne' : s ≠ .failed) : P := by
    rw [hs] at hnew
    exact absurd hnew (not_or.mpr ⟨hne, hne'⟩)
  cases h with
  | kept l new hstatus => exact .inl hstatus
  | claimed w locked new hpc hold hstatus => exact other hstatus nofun nofun
  | started w new hpc hstatus => exact other hstatus nofun nofun
  | pausedItself w world phase new hpc htype hstatus => exact other hstatus nofun nofun
  | recorded w result seen cycleSeen runSeen new hpc hstatus =>
    exact .inr (.inl ⟨w, result, seen, rfl, ⟨seen, cycleSeen, runSeen, hpc⟩, hstatus⟩)
  | requeued w stale row new hpc hrow hcount hstatus => exact other hstatus nofun nofun
  | exhausted w stale row new hpc hrow hcount hstatus =>
    exact .inr (.inr ⟨hstatus, w, stale, row, rfl, hpc, hrow, hcount⟩)
  | answered q body seen new hpc hanswer =>
    cases hanswer with
    | cancelJob row new hrow hseen hstatus => exact other hstatus nofun nofun
    | pauseJob row new hrow hseen hstatus => exact other hstatus nofun nofun
    | resumeJob row new hrow hseen hstatus => exact other hstatus nofun nofun
    | resumeGate c new hseen hstatus => exact other hstatus nofun nofun
    | cancelRun r run new hrun hallowed hold hr hstatus => exact other hstatus nofun nofun
    | pauseRun r run new hrun hallowed hold hr hstatus => exact other hstatus nofun nofun
    | stopLoop c new hold hc hstatus => exact other hstatus nofun nofun

theorem step_completed (h : Step settings sys l sys') (hold : sys.db.jobs[j]? = some old)
    (hj : sys'.db.jobs[j]? = some new) (hnew : new.status = .completed) :
    old.status = .completed ∨ ∃ w result, Records (sys.workers w) j result ∧
      result.success = true := by
  obtain ⟨row, hrow, -, hchange⟩ := step_row h hold
  obtain rfl := Option.some.inj (hj.symm.trans hrow)
  rcases jobChange_outcome hchange (.inl hnew) with hkept |
    ⟨w, result, seen, -, hrecords, hstatus⟩ | ⟨hfailed, -⟩
  · exact .inl (hkept.symm.trans hnew)
  · exact .inr ⟨w, result, hrecords, outcomeStatus_completed (hstatus.symm.trans hnew)⟩
  · exact absurd (hnew.symm.trans hfailed) nofun

theorem step_failed (h : Step settings sys l sys') (hold : sys.db.jobs[j]? = some old)
    (hj : sys'.db.jobs[j]? = some new) (hnew : new.status = .failed) :
    old.status = .failed ∨ (∃ count, .jobReclaimExhausted j count ∈ sys'.db.events) ∨
      ∃ w result, l = .writeOutcome w ∧ Records (sys.workers w) j result ∧
        result.success = false := by
  obtain ⟨row, hrow, -, hchange⟩ := step_row h hold
  obtain rfl := Option.some.inj (hj.symm.trans hrow)
  rcases jobChange_outcome hchange (.inr hnew) with hkept |
    ⟨w, result, seen, hl, hrecords, hstatus⟩ | ⟨-, w, stale, row, rfl, hpc, hmem, hcount⟩
  · exact .inl (hkept.symm.trans hnew)
  · exact .inr (.inr ⟨w, result, hl, hrecords, outcomeStatus_failed (hstatus.symm.trans hnew)⟩)
  · refine .inr (.inl ⟨row.reclaimCount, ?_⟩)
    cases h with
    | writeStale _ stale' hpc' =>
      obtain rfl := WorkerPc.reclaiming.inj (hpc.symm.trans hpc')
      exact reclaimStaleJobs_reports hmem hcount

end Synthetos.Jobs
