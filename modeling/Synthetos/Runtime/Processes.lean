import Synthetos.Runtime.JobRows

/-!
# Who acts in a step

A step moves at most one worker or one request.  New jobs are pending, or paused when they wait
for a gate.
-/

namespace Synthetos

open Synthetos.Core Storage Lib Worker Api

def Label.worker? : Label → Option WorkerId
  | .claim w _ | .start w | .exec w _ | .readOutcome w | .readTarget w | .writeOutcome w
  | .heartbeat w | .readStale w | .writeStale w | .crash w => some w
  | .tick _ | .receive _ _ | .respond _ | .drop _ => none

def Label.request? : Label → Option Nat
  | .receive q _ | .respond q | .drop q => some q
  | _ => none

variable {settings : Settings} {sys sys' : Runtime} {l : Label} {w : WorkerId} {q : Nat}

theorem step_other_worker (h : Step settings sys l sys') (hw : l.worker? ≠ some w) :
    sys'.workers w = sys.workers w := by
  cases h <;>
    first
    | rfl
    | (rw [Runtime.moveWorker_workers, if_neg]
       rintro rfl
       exact hw rfl)

theorem step_other_request (h : Step settings sys l sys') (hq : l.request? ≠ some q) :
    sys'.requests q = sys.requests q := by
  cases h <;>
    first
    | rfl
    | (rw [Runtime.moveRequest_requests, if_neg]
       rintro rfl
       exact hq rfl)

theorem exit_newJob_status {db : Db} {input : OperatorInput} {phase : Phase} {txn : Txn}
    {next : Core.Next} {job : Job} (h : Exit db input phase txn next) (hjob : txn.newJobs = [job]) :
    job.status = .pending ∨ job.status = .paused ∧ job.jobType = .loopDecide := by
  have pending {new : Job} (hnew : txn.newJobs = [new]) (hstatus : new.status = .pending) :
      job.status = .pending ∨ job.status = .paused ∧ job.jobType = .loopDecide := by
    obtain rfl := List.singleton_inj.mp (hjob.symm.trans hnew)
    exact .inl hstatus
  have none' (hnone : txn.newJobs = []) :
      job.status = .pending ∨ job.status = .paused ∧ job.jobType = .loopDecide :=
    absurd (hjob.symm.trans hnone) nofun
  cases h with
  | loopPaused => exact none' ‹_›
  | loopClosed =>
    rename_i hjobs _ _ _
    rcases hjobs with hnone | hone
    · exact none' hnone
    · exact pending hone rfl
  | runGated =>
    rename_i hprepares _
    obtain rfl := List.singleton_inj.mp (hjob.symm.trans hprepares.jobs)
    exact .inr ⟨rfl, rfl⟩
  | relayed =>
    rename_i hjobs _ _ _
    cases hrelay : (relayOf input.jobType).1 with
    | none => exact none' (by rw [hjobs, hrelay]; rfl)
    | some jobType =>
      have hone : txn.newJobs = [createJob db input.cycleId jobType input.payload 10] := by
        rw [hjobs, hrelay]
        rfl
      exact pending hone rfl
  | _ =>
    first
      | exact none' rfl
      | exact none' ‹Quiet _›.jobs
      | exact pending ‹Enqueues _ _›.jobs ‹FreshJob _ _ _›.status
      | exact pending ‹Enqueues _ _›.jobs rfl
      | exact pending ‹Prepares _ _ _›.jobs rfl

theorem born_status {new : Job} (h : Born sys l new) :
    new.status = .pending ∨ new.status = .paused ∧ new.jobType = .loopDecide := by
  cases h with
  | enqueued w world j phase job new txn next hpc hj hout hnew =>
    exact exit_newJob_status (execute_exit hout) hnew
  | requested q body seen new hpc hnew =>
    cases hnew <;> exact .inl rfl

theorem staleJobs_row {db : Db} {timeout : Nat} {j : JobId} {row : Job}
    (h : (j, row) ∈ staleJobs db timeout) :
    db.jobs[j]? = some row ∧ (row.status = .claimed ∨ row.status = .running) := by
  obtain ⟨⟨row', j'⟩, hmem, heq⟩ := List.mem_map.mp h
  obtain ⟨rfl, rfl⟩ := Prod.mk.inj heq
  obtain ⟨hmem, hstale⟩ := List.mem_filter.mp hmem
  refine ⟨List.mem_zipIdx_iff_getElem?.mp hmem, ?_⟩
  simp only [isStale, Bool.and_eq_true, Bool.or_eq_true, beq_iff_eq] at hstale
  exact hstale.1

end Synthetos
