import Synthetos.Runtime.CycleRows

/-!
# What a step does to the run table
-/

namespace Synthetos

open Synthetos.Core Storage Lib Worker Api

/-- What a step can do to the status of run `r`. -/
inductive RunChange (sys : Runtime) (r : RunId) (old : RunStatus) : Label → RunStatus → Prop where
  | kept (l : Label) : RunChange sys r old l old
  | operator (w : WorkerId) (world : External) (j : JobId) (phase : Phase) (job : Job) (txn : Txn)
      (next : Core.Next) (new : RunStatus) (hpc : sys.workers w = .executing j phase)
      (hj : sys.db.jobs[j]? = some job)
      (hout : execute sys.db (operatorInput j job) phase world = (txn, next))
      (hr : job.payload.runRecordId = some r) (hwrite : WritesRun txn r new) :
      RunChange sys r old (.exec w world) new
  | markedFailed (w : WorkerId) (j : JobId) (result : OperatorResult) (status : JobStatus)
      (cycleSeen : Option CycleStatus) (seen : RunStatus) (job : Job)
      (hpc : sys.workers w = .recording j result status cycleSeen (some seen))
      (hj : sys.db.jobs[j]? = some job) (hr : job.payload.runRecordId = some r)
      (hresult : result.success = false) (hseen : seen ≠ .failed ∧ seen ≠ .cancelled) :
      RunChange sys r old (.writeOutcome w) .failed
  | controlled (q : Nat) (action : RunAction) (seen : Db) (run : RunRecord) (new : RunStatus)
      (hpc : sys.requests q = .opened (.controlRun r action) seen)
      (hrun : seen.runs[r]? = some run) (hallowed : (allowedActions run.status).contains action = true)
      (haction : action = .cancel ∧ new = .cancelled ∨ action = .pause ∧ new = .paused ∨
        action = .resume ∧ new = .running) : RunChange sys r old (.respond q) new

inductive RunBorn (sys : Runtime) : Label → RunRecord → Prop where
  | prepared (w : WorkerId) (world : External) (j : JobId) (phase : Phase) (job : Job) (txn : Txn)
      (next : Core.Next) (new : RunRecord) (hpc : sys.workers w = .executing j phase)
      (hj : sys.db.jobs[j]? = some job)
      (hout : execute sys.db (operatorInput j job) phase world = (txn, next))
      (hnew : txn.newRuns = [new]) : RunBorn sys (.exec w world) new
  | started (q : Nat) (spec : SpecId) (seen : Db) (row : ExperimentSpec) (cycle : ResearchCycle)
      (new : RunRecord) (hpc : sys.requests q = .opened (.startRun spec) seen)
      (hspec : seen.specs[spec]? = some row) (hcycle : seen.cycles[row.cycleId]? = some cycle)
      (hnew : new.experimentSpecId = spec ∧ new.cycleId = row.cycleId ∧ new.status = .pending) :
      RunBorn sys (.respond q) new
  | retried (q : Nat) (r : RunId) (seen : Db) (run new : RunRecord)
      (hpc : sys.requests q = .opened (.controlRun r .retry) seen)
      (hrun : seen.runs[r]? = some run)
      (hallowed : (allowedActions run.status).contains .retry = true)
      (hnew : new.experimentSpecId = run.experimentSpecId ∧ new.cycleId = run.cycleId ∧
        new.status = .pending) : RunBorn sys (.respond q) new

section Exits

variable {db : Db} {input : OperatorInput} {phase : Phase} {txn : Txn} {next : Core.Next}

theorem exit_runUpdate (h : Exit db input phase txn next) :
    txn.runUpdate = none ∨
      ∃ r s, input.payload.runRecordId = some r ∧ WritesRun txn r s := by
  cases h with
  | rejected => exact .inl rfl
  | _ =>
    first
      | exact .inl rfl
      | exact .inl ‹txn.runUpdate = none›
      | exact .inr ⟨_, _, ‹input.payload.runRecordId = some _›, ‹WritesRun txn _ _›⟩

theorem exit_newRuns (h : Exit db input phase txn next) :
    txn.newRuns = [] ∨ ∃ run, txn.newRuns = [run] ∧ run.status = .pending := by
  cases h with
  | loopPaused | loopClosed | relayed => exact .inl ‹txn.newRuns = []›
  | _ =>
    first
      | exact .inl rfl
      | exact .inl ‹Quiet _›.runs
      | exact .inl ‹Enqueues _ _›.runs
      | exact .inr ⟨_, ‹Prepares _ _ _›.runs, rfl⟩
      | exact .inr ⟨_, ‹Prepares _ _ _›.runs, ‹FreshRun _ _ _›.status⟩

end Exits

variable {settings : Settings} {sys sys' : Runtime} {l : Label} {r : RunId} {old new : RunRecord}

theorem run_kept {db : Db} (hr : sys.db.runs[r]? = some old) (hruns : db.runs = sys.db.runs) :
    ∃ new, db.runs[r]? = some new ∧ SameRun old new ∧ RunChange sys r old.status l new.status :=
  ⟨old, by rw [hruns]; exact hr, .refl old, .kept l⟩

theorem run_appended {db : Db} {born : List RunRecord} (hr : sys.db.runs[r]? = some old)
    (hruns : db.runs = sys.db.runs ++ born) :
    ∃ new, db.runs[r]? = some new ∧ SameRun old new ∧ RunChange sys r old.status l new.status :=
  ⟨old, by rw [hruns]; exact Table.getElem?_append_old hr, .refl old, .kept l⟩

theorem run_updated {db : Db} {k : RunId} {f : RunRecord → RunRecord} {s : RunStatus}
    (hr : sys.db.runs[r]? = some old) (hruns : db.runs = Table.update sys.db.runs k f)
    (hf : SameRun old (f old) ∧ (f old).status = s) (hchange : k = r → RunChange sys r old.status l s) :
    ∃ new, db.runs[r]? = some new ∧ SameRun old new ∧ RunChange sys r old.status l new.status := by
  refine ⟨if k = r then f old else old, ?_, ?_⟩
  · rw [hruns, Table.getElem?_update, hr]
    split <;> rfl
  · split
    · rw [hf.2]
      exact ⟨hf.1, hchange ‹_›⟩
    · exact ⟨.refl old, .kept l⟩

theorem ensureRunning_runs (seen db : Db) (c : CycleId) :
    (ensureRunning seen db c).runs = db.runs := by
  unfold ensureRunning
  split
  · rfl
  · split <;> rfl

theorem reclaimStaleJobs_runs (maxReclaims : Nat) (db : Db) (stale : List (JobId × Job)) :
    (reclaimStaleJobs maxReclaims db stale).runs = db.runs := by
  induction stale generalizing db with
  | nil => rfl
  | cons entry rest ih =>
    refine (ih _).trans ?_
    dsimp only
    unfold reclaimJob
    dsimp only
    split <;> rfl

theorem respond_run {q : Nat} {body : Request} {seen db : Db}
    (hpc : sys.requests q = .opened body seen) (hanswer : Responds seen sys.db body db)
    (hr : sys.db.runs[r]? = some old) :
    ∃ new, db.runs[r]? = some new ∧ SameRun old new ∧
      RunChange sys r old.status (.respond q) new.status := by
  cases hanswer with
  | createCycle | transitionCycle | startDiscovery | startHypothesisSession | compileProtocols
  | cancelJob | pauseJob | resumeJob | resumeGate => exact run_kept hr rfl
  | startAnalysis c cycle moved hcycle hmoved =>
    rcases hmoved with ⟨-, rfl⟩ | ⟨-, rfl⟩
    · exact run_kept hr rfl
    · exact run_kept hr rfl
  | startRun spec row cycle moved hspec hvalidated hcycle hmoved =>
    rcases hmoved with ⟨-, rfl⟩ | ⟨-, rfl⟩
    · exact run_appended hr rfl
    · exact run_appended hr rfl
  | cancelRun k run hrun hallowed =>
    refine run_updated hr rfl ⟨⟨rfl, rfl, rfl, rfl, rfl⟩, rfl⟩ ?_
    rintro rfl
    exact .controlled q .cancel seen run _ hpc hrun hallowed (.inl ⟨rfl, rfl⟩)
  | pauseRun k run hrun hallowed =>
    refine run_updated hr rfl ⟨⟨rfl, rfl, rfl, rfl, rfl⟩, rfl⟩ ?_
    rintro rfl
    exact .controlled q .pause seen run _ hpc hrun hallowed (.inr (.inl ⟨rfl, rfl⟩))
  | resumeRun k run hrun hallowed =>
    refine run_updated hr (ensureRunning_runs ..) ⟨⟨rfl, rfl, rfl, rfl, rfl⟩, rfl⟩ ?_
    rintro rfl
    exact .controlled q .resume seen run _ hpc hrun hallowed (.inr (.inr ⟨rfl, rfl⟩))
  | retryRun k run hrun hallowed =>
    exact run_appended hr (congrArg (· ++ [_]) (ensureRunning_runs seen sys.db run.cycleId))
  | stopLoop c cycle moved hcycle hmoved =>
    rcases hmoved with ⟨-, rfl⟩ | ⟨-, rfl⟩
    · exact run_kept hr rfl
    · exact run_kept hr rfl

theorem writeOutcome_runs (db : Db) (j : JobId) (job : Job) (result : OperatorResult)
    (status : JobStatus) (cycleSeen : Option CycleStatus) (runSeen : Option RunStatus) :
    (Worker.writeOutcome db j job result status cycleSeen runSeen).runs = db.runs ∨
      ∃ k seen f, job.payload.runRecordId = some k ∧ runSeen = some seen ∧
        result.success = false ∧ (seen ≠ .failed ∧ seen ≠ .cancelled) ∧
        (Worker.writeOutcome db j job result status cycleSeen runSeen).runs =
          Table.update db.runs k f ∧
        ∀ run, SameRun run (f run) ∧ (f run).status = .failed := by
  unfold Worker.writeOutcome
  by_cases hresult : result.success = true
  · rw [if_pos hresult]
    have hpatched : (applyStatePatch db job result cycleSeen).runs = db.runs := by
      unfold applyStatePatch
      split <;> rfl
    left
    dsimp only
    split
    · exact hpatched
    · exact hpatched
  · rw [if_neg hresult]
    dsimp only
    unfold markExecutionJobFailed
    split
    · rename_i k seen hk
      split
      · exact .inl rfl
      · rename_i hfresh
        refine .inr ⟨k, seen, fun run => { run with
          status := .failed, error := some (result.error.getD "unknown error")
          completedAt := some db.now }, hk, rfl, by simpa using hresult, not_or.mp hfresh, rfl, ?_⟩
        exact fun _ => ⟨⟨rfl, rfl, rfl, rfl, rfl⟩, rfl⟩
    · exact .inl rfl

theorem commit_run {w : WorkerId} {world : External} {j : JobId} {phase : Phase} {job : Job}
    {txn : Txn} {next : Core.Next} (hr : sys.db.runs[r]? = some old)
    (hpc : sys.workers w = .executing j phase) (hj : sys.db.jobs[j]? = some job)
    (hout : execute sys.db (operatorInput j job) phase world = (txn, next)) :
    ∃ new, (sys.db.commit txn).runs[r]? = some new ∧ SameRun old new ∧
      RunChange sys r old.status (.exec w world) new.status := by
  rcases exit_runUpdate (execute_exit hout) with hnone | ⟨k, s, hk, f, hf, hsame⟩
  · have hruns : (sys.db.commit txn).runs = sys.db.runs ++ txn.newRuns := by
      rw [Db.commit_runs, hnone]
      rfl
    exact run_appended hr hruns
  · let updated : Db := { sys.db with runs := Table.update sys.db.runs k f }
    have hupdated : updated.runs = Table.update sys.db.runs k f := rfl
    have hchange : k = r → RunChange sys r old.status (.exec w world) s := by
      rintro rfl
      exact .operator w world j phase job txn next s hpc hj hout hk ⟨f, hf, hsame⟩
    obtain ⟨new, hnew, hrest⟩ := run_updated hr hupdated (hsame old) hchange
    refine ⟨new, ?_, hrest⟩
    rw [Db.commit_runs, hf]
    exact Table.getElem?_append_old hnew

/-- What a step does to the row of an existing run. -/
theorem step_run (h : Step settings sys l sys') (hr : sys.db.runs[r]? = some old) :
    ∃ new, sys'.db.runs[r]? = some new ∧ SameRun old new ∧
      RunChange sys r old.status l new.status := by
  cases h with
  | exec w world j phase job txn next hpc hj hout => exact commit_run hr hpc hj hout
  | writeOutcome w j result status cycleSeen runSeen job hpc hj =>
    rcases writeOutcome_runs sys.db j job result status cycleSeen runSeen with
      hruns | ⟨k, seen, f, hk, rfl, hresult, hseen, hruns, hf⟩
    · exact run_kept hr hruns
    · refine run_updated hr hruns (hf old) ?_
      rintro rfl
      exact .markedFailed w j result status cycleSeen seen job hpc hj hk hresult hseen
  | writeStale w stale hpc => exact run_kept hr (reclaimStaleJobs_runs ..)
  | respond q body seen db hpc hanswer => exact respond_run hpc hanswer hr
  | _ => exact run_kept hr rfl

theorem respond_runBorn {q : Nat} {body : Request} {seen db : Db}
    (hpc : sys.requests q = .opened body seen) (hanswer : Responds seen sys.db body db)
    (hold : sys.db.runs[r]? = none) (hr : db.runs[r]? = some new) :
    r = sys.db.runs.length ∧ RunBorn sys (.respond q) new := by
  have kept (hlength : db.runs.length = sys.db.runs.length) :
      r = sys.db.runs.length ∧ RunBorn sys (.respond q) new := by
    have hout := List.getElem?_eq_none_iff.mp hold
    have hin := Table.lt_length_of_getElem? hr
    exact absurd hin (by omega)
  have appended {run : RunRecord} (hruns : db.runs = sys.db.runs ++ [run])
      (hborn : RunBorn sys (.respond q) run) :
      r = sys.db.runs.length ∧ RunBorn sys (.respond q) new := by
    rw [hruns] at hr
    rcases Table.getElem?_append_singleton hr with hin | ⟨hlen, rfl⟩
    · exact absurd (hin.symm.trans hold) nofun
    · exact ⟨hlen, hborn⟩
  cases hanswer with
  | createCycle | transitionCycle | startDiscovery | startHypothesisSession | compileProtocols
  | cancelJob | pauseJob | resumeJob | resumeGate => exact kept rfl
  | startAnalysis c cycle moved hcycle hmoved =>
    rcases hmoved with ⟨-, rfl⟩ | ⟨-, rfl⟩
    · exact kept rfl
    · exact kept rfl
  | startRun spec row cycle moved hspec hvalidated hcycle hmoved =>
    rcases hmoved with ⟨-, rfl⟩ | ⟨-, rfl⟩
    · exact appended rfl (.started q spec seen row cycle _ hpc hspec hcycle ⟨rfl, rfl, rfl⟩)
    · exact appended rfl (.started q spec seen row cycle _ hpc hspec hcycle ⟨rfl, rfl, rfl⟩)
  | cancelRun | pauseRun => exact kept Table.length_update
  | resumeRun k run hrun hallowed =>
    refine kept ?_
    rw [resumeRun, ensureRunning_runs]
    exact Table.length_update
  | retryRun k run hrun hallowed =>
    exact appended (congrArg (· ++ [_]) (ensureRunning_runs seen sys.db run.cycleId))
      (.retried q k seen run _ hpc hrun hallowed ⟨rfl, rfl, rfl⟩)
  | stopLoop c cycle moved hcycle hmoved =>
    rcases hmoved with ⟨-, rfl⟩ | ⟨-, rfl⟩
    · exact kept rfl
    · exact kept rfl

theorem step_runBorn (h : Step settings sys l sys') (hold : sys.db.runs[r]? = none)
    (hr : sys'.db.runs[r]? = some new) : r = sys.db.runs.length ∧ RunBorn sys l new := by
  have kept (hlength : sys'.db.runs.length = sys.db.runs.length) :
      r = sys.db.runs.length ∧ RunBorn sys l new := by
    have hout := List.getElem?_eq_none_iff.mp hold
    have hin := Table.lt_length_of_getElem? hr
    exact absurd hin (by omega)
  cases h with
  | exec w world j phase job txn next hpc hj hout =>
    have hlength : (Db.updateRun sys.db.runs txn.runUpdate).length = sys.db.runs.length := by
      unfold Db.updateRun
      split
      · exact Table.length_update
      · rfl
    rw [Runtime.moveWorker_db, Db.commit_runs] at hr
    rcases exit_newRuns (execute_exit hout) with hnone | ⟨run, hone, -⟩
    · rw [hnone, List.append_nil] at hr
      have hin := Table.lt_length_of_getElem? hr
      have hout' := List.getElem?_eq_none_iff.mp hold
      exact absurd hin (by omega)
    · rw [hone] at hr
      rcases Table.getElem?_append_singleton hr with hin | ⟨hlen, rfl⟩
      · have hin := Table.lt_length_of_getElem? hin
        have hout' := List.getElem?_eq_none_iff.mp hold
        exact absurd hin (by omega)
      · exact ⟨hlen.trans hlength, .prepared w world j phase job txn next _ hpc hj hout hone⟩
  | writeOutcome w j result status cycleSeen runSeen job hpc hj =>
    refine kept ?_
    rw [Runtime.moveWorker_db]
    rcases writeOutcome_runs sys.db j job result status cycleSeen runSeen with
      hruns | ⟨k, seen, f, -, -, -, -, hruns, -⟩
    · rw [hruns]
    · rw [hruns, Table.length_update]
  | writeStale w stale hpc =>
    refine kept ?_
    rw [Runtime.moveWorker_db, reclaimStaleJobs_runs]
  | respond q body seen db hpc hanswer => exact respond_runBorn hpc hanswer hold hr
  | _ => exact kept rfl

theorem runBorn_status (h : RunBorn sys l new) : new.status = .pending := by
  cases h with
  | prepared w world j phase job txn next new hpc hj hout hnew =>
    rcases exit_newRuns (execute_exit hout) with hnone | ⟨run, hone, hstatus⟩
    · exact absurd (hnew.symm.trans hnone) nofun
    · obtain rfl := List.singleton_inj.mp (hnew.symm.trans hone)
      exact hstatus
  | started q spec seen row cycle new hpc hspec hcycle hnew => exact hnew.2.2
  | retried q k seen run new hpc hrun hallowed hnew => exact hnew.2.2

end Synthetos
