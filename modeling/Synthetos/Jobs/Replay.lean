import Synthetos.Runtime.Solo

/-!
# Executing a job again

A worker that dies between an operator's commit and the outcome leaves a stale job, which is
reclaimed and executed again.  The second execution of `verification_check`, `signal_classify` and
`loop_decide` adds to what the first one committed.
-/

namespace Synthetos.Jobs

open Synthetos.Core Storage Lib Worker Api Autonomy

/-- The tables the pipeline works on; of a job, what it asks for and not how far it is. -/
structure Pipeline where
  jobs : List (Option CycleId × JobType × Payload)
  runs : List RunRecord
  specs : List ExperimentSpec
  cards : List HypothesisCard
  reports : List VerificationReport
  signals : List DirectionalSignal
  frontiers : List MetricFrontier
  recommendations : List RunRecommendation
  budgets : List AutonomyBudget
  decisions : List LoopDecision

def request (job : Job) : Option CycleId × JobType × Payload :=
  (job.cycleId, job.jobType, job.payload)

def pipelineOf (db : Db) : Pipeline where
  jobs := db.jobs.map request
  runs := db.runs
  specs := db.specs
  cards := db.cards
  reports := db.reports
  signals := db.signals
  frontiers := db.frontiers
  recommendations := db.recommendations
  budgets := db.budgets
  decisions := db.decisions

/-- The steps from the death of a worker to the second execution of its job. -/
def ReclaimPath (_ : Runtime) : Label → Prop
  | .tick _ | .claim _ _ | .start _ | .heartbeat _ | .readStale _ | .writeStale _ | .crash _ => True
  | _ => False

/-- The job types whose second execution the pipeline would have to tolerate. -/
def replayed (jobType : JobType) : Prop :=
  jobType = .verificationCheck ∨ jobType = .signalClassify ∨ jobType = .loopDecide

/-- Worker `w` executes job `j` to the end: the operator commits and returns success. -/
def Executes (settings : Settings) (sys : Runtime) (w : WorkerId) (j : JobId) (sys' : Runtime) :
    Prop :=
  sys.workers w = .executing j .start ∧
    ∃ world result, Runtime.step settings sys (.exec w world) = some sys' ∧
      sys'.workers w = .returned j result ∧ result.success = true

variable {settings : Settings} {sys sys' : Runtime} {l : Label}

theorem updateJob_pipeline (db : Db) (j : JobId) (f : Job → Job)
    (h : ∀ job, request (f job) = request job) : pipelineOf (updateJob db j f) = pipelineOf db := by
  unfold pipelineOf
  rw [updateJob_jobs, Table.map_update h]
  rfl

theorem reclaimStaleJobs_pipeline (maxReclaims : Nat) (db : Db) (stale : List (JobId × Job)) :
    pipelineOf (reclaimStaleJobs maxReclaims db stale) = pipelineOf db := by
  induction stale generalizing db with
  | nil => rfl
  | cons entry rest ih =>
    refine (ih _).trans ?_
    dsimp only
    unfold reclaimJob
    dsimp only
    split
    · exact updateJob_pipeline _ _ _ fun _ => rfl
    · exact updateJob_pipeline _ _ _ fun _ => rfl

theorem reclaimPath_step (hok : ReclaimPath sys l) (h : Step settings sys l sys') :
    pipelineOf sys'.db = pipelineOf sys.db := by
  cases h with
  | tick | readStale | crash => rfl
  | claim | start | heartbeat => exact updateJob_pipeline _ _ _ fun _ => rfl
  | writeStale w stale => exact reclaimStaleJobs_pipeline _ _ stale
  | exec | acknowledge | readOutcome | readFailure | readNoPatch | readPatch | raisePatch
  | writeOutcome | receive | respond | reject | drop => exact hok.elim

theorem reclaimPath_run (h : Reaches ReclaimPath (Runtime.step settings) sys sys') :
    pipelineOf sys'.db = pipelineOf sys.db := by
  induction h with
  | refl => rfl
  | tail _ hnext ih =>
    obtain ⟨l, hok, hstep⟩ := hnext
    exact (reclaimPath_step hok (step_cases hstep)).trans ih

theorem exit_adds {db : Db} {input : OperatorInput} {phase : Phase} {txn : Txn}
    {result : OperatorResult} (htype : replayed input.jobType)
    (h : Exit db input phase txn (.finish result)) (hresult : result.success = true) :
    0 < txn.newJobs.length ∨ 0 < txn.newDecisions.length := by
  have adds {job : Job} (hjobs : txn.newJobs = [job]) :
      0 < txn.newJobs.length ∨ 0 < txn.newDecisions.length := by
    rw [hjobs]
    exact .inl Nat.one_pos
  have other {jobType : JobType} (hjob : input.jobType = jobType) (hno : ¬ replayed jobType) :
      0 < txn.newJobs.length ∨ 0 < txn.newDecisions.length := by
    rw [hjob] at htype
    exact absurd htype hno
  cases h with
  | rejected | runFailed | specsRejected => exact absurd hresult nofun
  | loopPaused =>
    rename_i hdecision
    obtain ⟨row, hrow, -⟩ := hdecision
    rw [hrow]
    exact .inr Nat.one_pos
  | relayed =>
    rename_i hrelay _ _ _ _
    rcases htype with htype | htype | htype <;> rw [htype] at hrelay <;> exact absurd hrelay nofun
  | checked | classified | preparedLaunch | loopStopped | loopRecompiles =>
    exact adds ‹Enqueues _ _›.jobs
  | loopLaunched => exact adds ‹Prepares _ _ _›.jobs
  | _ =>
    refine other ‹input.jobType = _› ?_
    rintro (hno | hno | hno) <;> exact absurd hno nofun

theorem executes_changes {w : WorkerId} {j : JobId} {job : Job} (hj : sys.db.jobs[j]? = some job)
    (htype : replayed job.jobType) (h : Executes settings sys w j sys') :
    pipelineOf sys'.db ≠ pipelineOf sys.db := by
  obtain ⟨hpc, world, result, hstep, hreturned, hresult⟩ := h
  cases step_cases hstep with
  | exec _ _ k phase row txn next hpc' hk hout =>
    obtain ⟨rfl, rfl⟩ := WorkerPc.executing.inj (hpc'.symm.trans hpc)
    obtain rfl := Option.some.inj (hk.symm.trans hj)
    rw [Runtime.moveWorker_self] at hreturned
    cases next with
    | suspend => exact absurd hreturned nofun
    | finish result' =>
      obtain ⟨-, rfl⟩ := WorkerPc.returned.inj hreturned
      intro hsame
      rcases exit_adds htype (execute_exit hout) hresult with hjobs | hdecisions
      · have hlength := congrArg (fun p => p.jobs.length) hsame
        have hpaused : (Db.pauseJobRow sys.db.jobs txn.pausedJob).length = sys.db.jobs.length := by
          unfold Db.pauseJobRow
          split
          · exact Table.length_update
          · rfl
        simp only [pipelineOf, Runtime.moveWorker_db, Db.commit_jobs, List.length_map,
          List.length_append, hpaused] at hlength
        omega
      · have hlength := congrArg (fun p => p.decisions.length) hsame
        simp only [pipelineOf, Runtime.moveWorker_db, Db.commit_decisions,
          List.length_append] at hlength
        omega

theorem row_type_run {j : JobId} {job : Job} (h : Reaches ReclaimPath (Runtime.step settings) sys sys')
    (hj : sys.db.jobs[j]? = some job) :
    ∃ row, sys'.db.jobs[j]? = some row ∧ row.jobType = job.jobType := by
  induction h with
  | refl => exact ⟨job, hj, rfl⟩
  | tail _ hnext ih =>
    obtain ⟨row, hrow, htype⟩ := ih
    obtain ⟨l, -, hstep⟩ := hnext
    obtain ⟨new, hnew, hsame, -⟩ := step_row (step_cases hstep) hrow
    exact ⟨new, hnew, hsame.type.trans htype⟩

/-- Executing one of these jobs again after a reclaim never leaves the pipeline as the first
execution left it. -/
theorem replay_changes_pipeline {settings : Settings} {sys first again second : Runtime}
    {w w' : WorkerId} {j : JobId} {job : Job} (hj : sys.db.jobs[j]? = some job)
    (htype : replayed job.jobType) (hfirst : Executes settings sys w j first)
    (hreclaim : Reaches ReclaimPath (Runtime.step settings) first again)
    (hsecond : Executes settings again w' j second) :
    pipelineOf again.db = pipelineOf first.db ∧ pipelineOf second.db ≠ pipelineOf first.db := by
  have hsame := reclaimPath_run hreclaim
  refine ⟨hsame, ?_⟩
  obtain ⟨-, world, -, hstep, -⟩ := hfirst
  obtain ⟨mid, hmid, hmidSame, -⟩ := step_row (step_cases hstep) hj
  obtain ⟨row, hrow, hrowType⟩ := row_type_run hreclaim hmid
  rw [← hsame]
  refine executes_changes hrow ?_ hsecond
  rw [hrowType, hmidSame.type]
  exact htype

/-- A run whose container exits cleanly, up to the start of its `verification_check` job 3. -/
def untilCheck : List Label :=
  [.receive 0 (.startRun 0), .respond 0,
    .claim 0 [], .start 0, .exec 0 {}, .readOutcome 0, .readTarget 0, .writeOutcome 0,
    .claim 0 [], .start 0, .exec 0 {}, .exec 0 {}, .exec 0 {}, .exec 0 {}, .exec 0 {},
    .readOutcome 0, .readTarget 0, .writeOutcome 0,
    .claim 0 [], .start 0, .exec 0 {}, .readOutcome 0, .readTarget 0, .writeOutcome 0,
    .claim 0 [], .start 0]

/-- Worker 0 has executed the job and died; worker 1 reclaims it and starts it again. -/
def untilReplay : List Label :=
  [.crash 0, .tick 120000001, .readStale 1, .writeStale 1, .claim 1 [], .start 1]

def reclaimPath (_ : Runtime) : Label → Bool
  | .tick _ | .claim _ _ | .start _ | .heartbeat _ | .readStale _ | .writeStale _ | .crash _ => true
  | _ => false

/-- The state after worker `w` has executed the job it has started. -/
def executed (sys : Runtime) (w : WorkerId) (j : JobId) : Option Runtime :=
  (Runtime.step {} sys (.exec w {})).filter fun sys' =>
    match sys.workers w, sys'.workers w with
    | .executing k .start, .returned k' result => k == j && k' == j && result.success
    | _, _ => false

theorem executes_of_executed {w : WorkerId} {j : JobId} (h : executed sys w j = some sys') :
    Executes {} sys w j sys' := by
  obtain ⟨hstep, htest⟩ := Option.filter_eq_some_iff.mp h
  split at htest
  · rename_i k k' result hpc hpc'
    simp only [Bool.and_eq_true, beq_iff_eq] at htest
    obtain ⟨⟨rfl, rfl⟩, hresult⟩ := htest
    exact ⟨hpc, {}, result, hstep, hpc', hresult⟩
  · exact absurd htest fun h => by cases h

theorem reclaim_run {labels : List Label} {test : Runtime → Bool}
    (h : (perform reclaimPath (Runtime.step {}) sys labels).any test = true) :
    ∃ sys', Reaches ReclaimPath (Runtime.step {}) sys sys' ∧ test sys' = true := by
  have hguard (s : Runtime) (l : Label) (_ : True) (hl : reclaimPath s l = true) :
      ReclaimPath s l := by
    cases l <;> trivial
  obtain ⟨sys', hrun, -, htest⟩ := Reaches.of_perform_any (fun _ => True) hguard
    (fun _ _ _ _ _ _ => trivial) trivial h
  exact ⟨sys', hrun, htest⟩

/-- The run has been checked twice: it has two reports and two follow-up jobs. -/
def checkedTwice (db : Db) : Bool :=
  (Verification.reportsOf db 0).length == 2 &&
    (db.jobs.filter fun job => job.jobType == .signalClassify).length == 2

/-- A `verification_check` job executed by worker 0, reclaimed, and executed by worker 1. -/
structure CheckReplay (sys first again second : Runtime) (job : Job) : Prop where
  reachable : Reaches Unguarded (Runtime.step {}) Runtime.compiledCycle sys
  row : sys.db.jobs[3]? = some job
  type : job.jobType = .verificationCheck
  executed : Executes {} sys 0 3 first
  reclaimed : Reaches ReclaimPath (Runtime.step {}) first again
  replayed : Executes {} again 1 3 second
  twice : checkedTwice second.db = true

theorem exists_checkReplay : ∃ sys first again second : Runtime, ∃ job : Job,
    CheckReplay sys first again second job := by
  obtain ⟨sys, hrun, htest⟩ := Runtime.run_of_anyone
    (show (perform Runtime.anyone (Runtime.step {}) Runtime.compiledCycle untilCheck).any
      (fun sys => (sys.db.jobs[3]?.any fun job => job.jobType == .verificationCheck) &&
        (executed sys 0 3).any fun first =>
          (perform reclaimPath (Runtime.step {}) first untilReplay).any fun again =>
            (executed again 1 3).any fun second => checkedTwice second.db) = true by decide +kernel)
  rw [Bool.and_eq_true, Option.any_eq_true, Option.any_eq_true] at htest
  obtain ⟨⟨job, hjob, htype⟩, first, hfirst, htest⟩ := htest
  obtain ⟨again, hagain, htest⟩ := reclaim_run htest
  obtain ⟨second, hsecond, htest⟩ := (Option.any_eq_true _ _).mp htest
  exact ⟨sys, first, again, second, job, hrun, hjob, by simpa using htype,
    executes_of_executed hfirst, hagain, executes_of_executed hsecond, htest⟩

theorem replay_changes_pipeline_checked : ∃ first again second : Runtime,
    Reaches ReclaimPath (Runtime.step {}) first again ∧ Executes {} again 1 3 second ∧
      pipelineOf again.db = pipelineOf first.db ∧ pipelineOf second.db ≠ pipelineOf first.db := by
  obtain ⟨sys, first, again, second, job, h⟩ := exists_checkReplay
  exact ⟨first, again, second, h.reclaimed, h.replayed,
    replay_changes_pipeline h.row (.inl h.type) h.executed h.reclaimed h.replayed⟩

/-- A reclaimed `verification_check` files a second report and a second follow-up job. -/
theorem replayed_check_reports_twice : ∃ sys first again second : Runtime,
    Runtime.compiledCycle.Initial ∧
      Reaches Unguarded (Runtime.step {}) Runtime.compiledCycle sys ∧
      Executes {} sys 0 3 first ∧ Reaches ReclaimPath (Runtime.step {}) first again ∧
      Executes {} again 1 3 second ∧ checkedTwice second.db = true := by
  obtain ⟨sys, first, again, second, job, h⟩ := exists_checkReplay
  exact ⟨sys, first, again, second, Runtime.compiledCycle_initial, h.reachable, h.executed,
    h.reclaimed, h.replayed, h.twice⟩

end Synthetos.Jobs
