import Synthetos.Runtime.Solo

/-!
# Finished jobs

The writers of the job table update a row by its id, so a decision taken on an earlier read can
land on a job that has finished since.  When no such decision is pending at the moment a job
finishes, the job keeps its status for ever.
-/

namespace Synthetos.Jobs

open Synthetos.Core Storage Lib Worker Api

/-- The status a reclaim pass gives a job it selected as `row`. -/
def reclaimStatus (settings : Settings) (row : Job) : JobStatus :=
  if settings.maxReclaims < row.reclaimCount + 1 then .failed else .pending

/-- A worker that may still replace the status `t` of a finished job of the given type: its write
is decided, or will be decided without finding out that the job is cancelled. -/
inductive Overwrites (settings : Settings) (jobType : JobType) (j : JobId) (t : JobStatus) :
    WorkerPc → Prop where
  | claimed : Overwrites settings jobType j t (.claimed j)
  | executing (phase : Phase) (hpauses : jobType = .loopDecide ∨ t ≠ .cancelled) :
      Overwrites settings jobType j t (.executing j phase)
  | returned (result : OperatorResult) (hseen : t ≠ .cancelled)
      (hwrite : outcomeStatus result t ≠ t) : Overwrites settings jobType j t (.returned j result)
  | outcome (result : OperatorResult) (seen : JobStatus) (hwrite : outcomeStatus result seen ≠ t) :
      Overwrites settings jobType j t (.outcome j result seen)
  | recording (result : OperatorResult) (seen : JobStatus) (cycleSeen : Option CycleStatus)
      (runSeen : Option RunStatus) (hwrite : outcomeStatus result seen ≠ t) :
      Overwrites settings jobType j t (.recording j result seen cycleSeen runSeen)
  | reclaiming (stale : List (JobId × Job)) (row : Job) (hrow : (j, row) ∈ stale)
      (hwrite : reclaimStatus settings row ≠ t) :
      Overwrites settings jobType j t (.reclaiming stale)

/-- A request that has passed its checks on job `j` and would replace the status `t`. -/
inductive Overrules (j : JobId) (t : JobStatus) : RequestPc → Prop where
  | cancelJob (seen : Db) (row : Job) (hrow : seen.jobs[j]? = some row)
      (hseen : row.status.cancellable = true) (hwrite : t ≠ .cancelled) :
      Overrules j t (.opened (.cancelJob j) seen)
  | pauseJob (seen : Db) (row : Job) (hrow : seen.jobs[j]? = some row)
      (hseen : row.status = .pending ∨ row.status = .claimed ∨ row.status = .running) :
      Overrules j t (.opened (.pauseJob j) seen)
  | resumeJob (seen : Db) (row : Job) (hrow : seen.jobs[j]? = some row)
      (hseen : row.status = .paused) : Overrules j t (.opened (.resumeJob j) seen)
  | resumeGate (seen : Db) (c : CycleId) (hrow : pausedLoopJob seen c = some j) :
      Overrules j t (.opened (.resumeGate c) seen)

/-- The steps that finish job `j` with status `t`. -/
inductive Finishes (settings : Settings) (sys : Runtime) (j : JobId) (job : Job) :
    Label → JobStatus → Prop where
  | recorded (w : WorkerId) (result : OperatorResult) (seen : JobStatus)
      (cycleSeen : Option CycleStatus) (runSeen : Option RunStatus)
      (hpc : sys.workers w = .recording j result seen cycleSeen runSeen) :
      Finishes settings sys j job (.writeOutcome w) (outcomeStatus result seen)
  | exhausted (w : WorkerId) (stale : List (JobId × Job)) (row : Job)
      (hpc : sys.workers w = .reclaiming stale) (hrow : (j, row) ∈ stale) :
      Finishes settings sys j job (.writeStale w) (reclaimStatus settings row)
  | cancelJob (q : Nat) (seen : Db) (row : Job) (hpc : sys.requests q = .opened (.cancelJob j) seen)
      (hrow : seen.jobs[j]? = some row) (hseen : row.status.cancellable = true) :
      Finishes settings sys j job (.respond q) .cancelled
  | cancelRun (q : Nat) (seen : Db) (r : RunId) (run : RunRecord)
      (hpc : sys.requests q = .opened (.controlRun r .cancel) seen)
      (hrun : seen.runs[r]? = some run)
      (hallowed : (allowedActions run.status).contains .cancel = true)
      (hr : job.payload.runRecordId = some r) : Finishes settings sys j job (.respond q) .cancelled
  | stopLoop (q : Nat) (seen : Db) (c : CycleId) (hpc : sys.requests q = .opened (.stopLoop c) seen)
      (hc : job.cycleId = some c) : Finishes settings sys j job (.respond q) .cancelled

/-- A job that is not finished yet is finished only when no other worker and no other request is
about to overwrite the status it finishes with. -/
def FinishesAlone (settings : Settings) (sys : Runtime) (l : Label) : Prop :=
  ∀ j job t, sys.db.jobs[j]? = some job → job.status.terminal = false → t.terminal = true →
    Finishes settings sys j job l t →
    (∀ w, l.worker? ≠ some w → ¬ Overwrites settings job.jobType j t (sys.workers w)) ∧
      ∀ q, l.request? ≠ some q → ¬ Overrules j t (sys.requests q)

/-- Nobody is about to overwrite a finished job. -/
def Undisturbed (settings : Settings) (sys : Runtime) : Prop :=
  ∀ j job, sys.db.jobs[j]? = some job → job.status.terminal = true →
    (∀ w, ¬ Overwrites settings job.jobType j job.status (sys.workers w)) ∧
      ∀ q, ¬ Overrules j job.status (sys.requests q)

variable {settings : Settings} {sys sys' : Runtime} {l : Label} {j : JobId} {old new : Job}
  {t : JobStatus}

theorem terminal_eq_not_cancellable (s : JobStatus) (h : s.terminal = true) :
    s.cancellable = false := by
  unfold JobStatus.terminal at h
  simpa using h

theorem jobChange_finished (h : JobChange settings sys j old l new)
    (hfinished : old.status.terminal = true)
    (hworkers : ∀ w, ¬ Overwrites settings old.jobType j old.status (sys.workers w))
    (hrequests : ∀ q, ¬ Overrules j old.status (sys.requests q)) : new.status = old.status := by
  have hlive := terminal_eq_not_cancellable _ hfinished
  cases h with
  | kept l new hstatus => exact hstatus
  | claimed w locked new hpc hold =>
    rw [hold] at hfinished
    exact absurd hfinished nofun
  | started w new hpc =>
    refine absurd ?_ (hworkers w)
    rw [hpc]
    exact .claimed
  | pausedItself w world phase new hpc htype =>
    refine absurd ?_ (hworkers w)
    rw [hpc]
    exact .executing phase (.inl htype)
  | recorded w result seen cycleSeen runSeen new hpc hstatus =>
    by_contra hne
    refine hworkers w ?_
    rw [hpc]
    exact .recording result seen cycleSeen runSeen (by rwa [← hstatus])
  | requeued w stale row new hpc hrow hcount =>
    refine absurd ?_ (hworkers w)
    rw [hpc]
    refine .reclaiming stale row hrow ?_
    rw [reclaimStatus, if_neg (by omega)]
    intro heq
    rw [← heq] at hfinished
    exact absurd hfinished nofun
  | exhausted w stale row new hpc hrow hcount hstatus =>
    by_contra hne
    refine hworkers w ?_
    rw [hpc]
    refine .reclaiming stale row hrow ?_
    rw [reclaimStatus, if_pos hcount, ← hstatus]
    exact hne
  | answered q body seen new hpc hanswer =>
    have hquiet := hrequests q
    rw [hpc] at hquiet
    cases hanswer with
    | cancelJob row new hrow hseen hstatus =>
      by_contra hne
      refine hquiet (.cancelJob seen row hrow hseen ?_)
      intro heq
      exact hne (hstatus.trans heq.symm)
    | pauseJob row new hrow hseen => exact absurd (.pauseJob seen row hrow hseen) hquiet
    | resumeJob row new hrow hseen => exact absurd (.resumeJob seen row hrow hseen) hquiet
    | resumeGate c new hseen => exact absurd (.resumeGate seen c hseen) hquiet
    | cancelRun r run new hrun hallowed hold =>
      rw [hlive] at hold
      exact absurd hold nofun
    | pauseRun r run new hrun hallowed hold =>
      rcases hold with hold | hold
      · rw [hold] at hfinished
        exact absurd hfinished nofun
      · rw [hold] at hfinished
        exact absurd hfinished nofun
    | stopLoop c new hold =>
      rw [hlive] at hold
      exact absurd hold nofun

theorem jobChange_finishes (h : JobChange settings sys j old l new)
    (hold : old.status.terminal = false) (hnew : new.status.terminal = true) :
    Finishes settings sys j old l new.status := by
  have live {s : JobStatus} (hstatus : new.status = s) (hs : s.terminal = false) :
      Finishes settings sys j old l new.status := by
    rw [hstatus, hs] at hnew
    exact absurd hnew nofun
  cases h with
  | kept l new hstatus => exact live hstatus hold
  | claimed w locked new hpc _ hstatus => exact live hstatus rfl
  | started w new hpc hstatus => exact live hstatus rfl
  | pausedItself w world phase new hpc htype hstatus => exact live hstatus rfl
  | recorded w result seen cycleSeen runSeen new hpc hstatus =>
    rw [hstatus]
    exact .recorded w result seen cycleSeen runSeen hpc
  | requeued w stale row new hpc hrow hcount hstatus => exact live hstatus rfl
  | exhausted w stale row new hpc hrow hcount hstatus =>
    rw [hstatus, show JobStatus.failed = reclaimStatus settings row from (if_pos hcount).symm]
    exact .exhausted w stale row hpc hrow
  | answered q body seen new hpc hanswer =>
    cases hanswer with
    | cancelJob row new hrow hseen hstatus =>
      rw [hstatus]
      exact .cancelJob q seen row hpc hrow hseen
    | pauseJob row new hrow hseen hstatus => exact live hstatus rfl
    | resumeJob row new hrow hseen hstatus => exact live hstatus rfl
    | resumeGate c new hseen hstatus => exact live hstatus rfl
    | cancelRun r run new hrun hallowed _ hr hstatus =>
      rw [hstatus]
      exact .cancelRun q seen r run hpc hrun hallowed hr
    | pauseRun r run new hrun hallowed _ hr hstatus => exact live hstatus rfl
    | stopLoop c new _ hc hstatus =>
      rw [hstatus]
      exact .stopLoop q seen c hpc hc

theorem step_overwrites (h : Step settings sys l sys') (hj : sys.db.jobs[j]? = some old)
    (hfinished : old.status.terminal = true) {w : WorkerId}
    (hthreat : Overwrites settings old.jobType j old.status (sys'.workers w)) :
    Overwrites settings old.jobType j old.status (sys.workers w) := by
  by_cases hw : l.worker? = some w
  case neg => rwa [step_other_worker h hw] at hthreat
  cases h with
  | tick | receive | respond | reject | drop => exact absurd hw nofun
  | claim w' locked k hpc hk =>
    obtain rfl := Option.some.inj hw
    rw [Runtime.moveWorker_self] at hthreat
    cases hthreat
    obtain ⟨row, hrow, hpending⟩ := nextJob_pending _ _ hk
    obtain rfl := Option.some.inj (hj.symm.trans hrow)
    rw [hpending] at hfinished
    exact absurd hfinished nofun
  | start w' k hpc =>
    obtain rfl := Option.some.inj hw
    rw [Runtime.moveWorker_self] at hthreat
    cases hthreat
    rw [hpc]
    exact .claimed
  | exec w' world k phase job txn next hpc hk hout =>
    obtain rfl := Option.some.inj hw
    rw [Runtime.moveWorker_self] at hthreat
    rw [hpc]
    cases next with
    | suspend phase' =>
      cases hthreat with
      | executing _ hpauses => exact .executing phase hpauses
    | finish result =>
      cases hthreat with
      | returned _ hseen => exact .executing phase (.inr hseen)
  | acknowledge w' k result job hpc hk hstatus =>
    obtain rfl := Option.some.inj hw
    rw [Runtime.moveWorker_self] at hthreat
    exact absurd hthreat nofun
  | readOutcome w' k result job hpc hk hstatus =>
    obtain rfl := Option.some.inj hw
    rw [Runtime.moveWorker_self] at hthreat
    cases hthreat with
    | outcome _ _ hwrite =>
      obtain rfl := Option.some.inj (hj.symm.trans hk)
      rw [hpc]
      exact .returned result hstatus hwrite
  | readFailure w' k result seen job hpc hk hresult
  | readNoPatch w' k result seen job hpc hk hresult
  | readPatch w' k result seen job cycle target hpc hk hresult =>
    obtain rfl := Option.some.inj hw
    rw [Runtime.moveWorker_self] at hthreat
    cases hthreat with
    | recording _ _ _ _ hwrite =>
      rw [hpc]
      exact .outcome result seen hwrite
  | raisePatch w' | writeOutcome w' | crash w' | writeStale w' =>
    obtain rfl := Option.some.inj hw
    rw [Runtime.moveWorker_self] at hthreat
    exact absurd hthreat nofun
  | heartbeat w' k hpc => exact hthreat
  | readStale w' hpc =>
    obtain rfl := Option.some.inj hw
    rw [Runtime.moveWorker_self] at hthreat
    cases hthreat with
    | reclaiming _ row hrow =>
      obtain ⟨hrow, hlive⟩ := staleJobs_row hrow
      obtain rfl := Option.some.inj (hj.symm.trans hrow)
      rcases hlive with hlive | hlive
      · rw [hlive] at hfinished
        exact absurd hfinished nofun
      · rw [hlive] at hfinished
        exact absurd hfinished nofun

theorem step_overrules (h : Step settings sys l sys') (hj : sys.db.jobs[j]? = some old)
    (hfinished : old.status.terminal = true) {q : Nat}
    (hthreat : Overrules j old.status (sys'.requests q)) :
    Overrules j old.status (sys.requests q) := by
  by_cases hq : l.request? = some q
  case neg => rwa [step_other_request h hq] at hthreat
  have hlive := terminal_eq_not_cancellable _ hfinished
  cases h with
  | tick | claim | start | exec | acknowledge | readOutcome | readFailure | readNoPatch | readPatch
  | raisePatch | writeOutcome | heartbeat | readStale | writeStale | crash => exact absurd hq nofun
  | respond q' | reject q' | drop q' =>
    obtain rfl := Option.some.inj hq
    rw [Runtime.moveRequest_requests, if_pos rfl] at hthreat
    exact absurd hthreat nofun
  | receive q' body hpc =>
    obtain rfl := Option.some.inj hq
    rw [Runtime.moveRequest_requests, if_pos rfl] at hthreat
    have other (row : Job) (hrow : sys.db.jobs[j]? = some row) (s : JobStatus)
        (hs : s.terminal = false) (hseen : row.status = s) :
        Overrules j old.status (sys.requests q') := by
      obtain rfl := Option.some.inj (hj.symm.trans hrow)
      rw [hseen, hs] at hfinished
      exact absurd hfinished nofun
    cases hthreat with
    | cancelJob _ row hrow hseen =>
      obtain rfl := Option.some.inj (hj.symm.trans hrow)
      rw [hlive] at hseen
      exact absurd hseen nofun
    | pauseJob _ row hrow hseen =>
      rcases hseen with hseen | hseen | hseen
      · exact other row hrow _ rfl hseen
      · exact other row hrow _ rfl hseen
      · exact other row hrow _ rfl hseen
    | resumeJob _ row hrow hseen => exact other row hrow _ rfl hseen
    | resumeGate _ c hrow =>
      obtain ⟨row, hrow, -, -, hseen⟩ := pausedLoopJob_row hrow
      exact other row hrow _ rfl hseen

theorem born_unfinished (h : Born sys l new) : new.status.terminal = false := by
  rcases born_status h with hstatus | ⟨hstatus, -⟩
  · rw [hstatus]
    rfl
  · rw [hstatus]
    rfl

theorem finishes_moves (h : Step settings sys l sys') (hfinishes : Finishes settings sys j old l t) :
    (∀ w, l.worker? = some w → sys'.workers w = .idle) ∧
      ∀ q, l.request? = some q → sys'.requests q = .idle := by
  cases hfinishes with
  | recorded w | exhausted w =>
    cases h
    constructor
    · intro w hw
      obtain rfl := Option.some.inj hw
      exact Runtime.moveWorker_self ..
    · intro q hq
      exact absurd hq nofun
  | cancelJob q | cancelRun q | stopLoop q =>
    cases h with
    | respond | reject =>
      constructor
      · intro w hw
        exact absurd hw nofun
      · intro q hq
        obtain rfl := Option.some.inj hq
        rw [Runtime.moveRequest_requests, if_pos rfl]

theorem undisturbed_step (hinv : Undisturbed settings sys) (hok : FinishesAlone settings sys l)
    (h : Step settings sys l sys') : Undisturbed settings sys' := by
  intro j new hnew hfinished
  cases hj : sys.db.jobs[j]? with
  | none =>
    obtain ⟨-, hborn⟩ := step_born h hj hnew
    rw [born_unfinished hborn] at hfinished
    exact absurd hfinished nofun
  | some old =>
    obtain ⟨row, hrow, hsame, hchange⟩ := step_row h hj
    obtain rfl := Option.some.inj (hnew.symm.trans hrow)
    by_cases hold : old.status.terminal = true
    · obtain ⟨hworkers, hrequests⟩ := hinv j old hj hold
      have hstatus := jobChange_finished hchange hold hworkers hrequests
      rw [hstatus, hsame.type]
      exact ⟨fun w hthreat => hworkers w (step_overwrites h hj hold hthreat),
        fun q hthreat => hrequests q (step_overrules h hj hold hthreat)⟩
    · have hold : old.status.terminal = false := by simpa using hold
      have hfinishes := jobChange_finishes hchange hold hfinished
      obtain ⟨hworkers, hrequests⟩ := hok j old _ hj hold hfinished hfinishes
      obtain ⟨hworker, hrequest⟩ := finishes_moves h hfinishes
      rw [hsame.type]
      constructor
      · intro w hthreat
        by_cases hw : l.worker? = some w
        · rw [hworker w hw] at hthreat
          exact absurd hthreat nofun
        · rw [step_other_worker h hw] at hthreat
          exact hworkers w hw hthreat
      · intro q hthreat
        by_cases hq : l.request? = some q
        · rw [hrequest q hq] at hthreat
          exact absurd hthreat nofun
        · rw [step_other_request h hq] at hthreat
          exact hrequests q hq hthreat

theorem undisturbed_initial (h : sys.Initial) : Undisturbed settings sys := by
  intro j job hj
  rw [h.jobs] at hj
  exact absurd hj nofun

/-- A run in which every job finishes alone. -/
abbrev Orderly (settings : Settings) : Runtime → Runtime → Prop :=
  Reaches (FinishesAlone settings) (Runtime.step settings)

theorem undisturbed_run (h₀ : sys.Initial) (h : Orderly settings sys sys') :
    Undisturbed settings sys' :=
  h.invariant (Undisturbed settings)
    (fun _ _ _ hinv hok hstep => undisturbed_step hinv hok (step_cases hstep))
    (undisturbed_initial h₀)

/-- When every job finishes alone, terminal statuses are absorbing. -/
theorem terminal_jobs_absorbing {settings : Settings} {start sys later : Runtime} {j : JobId}
    {job : Job} (hstart : start.Initial) (hrun : Orderly settings start sys)
    (hlater : Orderly settings sys later) (hj : sys.db.jobs[j]? = some job)
    (hfinished : job.status.terminal = true) : later.db.jobStatus? j = some job.status := by
  have hkept : ∃ row, later.db.jobs[j]? = some row ∧ row.status = job.status := by
    induction hlater with
    | refl => exact ⟨job, hj, rfl⟩
    | tail hmid hnext ih =>
      obtain ⟨row, hrow, hstatus⟩ := ih
      obtain ⟨l, -, hstep⟩ := hnext
      have hinv := undisturbed_run hstart (hrun.trans hmid)
      obtain ⟨hworkers, hrequests⟩ := hinv j row hrow (by rw [hstatus]; exact hfinished)
      obtain ⟨new, hnew, -, hchange⟩ := step_row (step_cases hstep) hrow
      have hkeeps := jobChange_finished hchange (by rw [hstatus]; exact hfinished) hworkers hrequests
      exact ⟨new, hnew, hkeeps.trans hstatus⟩
  obtain ⟨row, hrow, hstatus⟩ := hkept
  rw [Db.jobStatus?, hrow, Option.map_some, hstatus]

theorem finishesAlone_of_alone (hsolo : sys.Solo) (halone : sys.alone l = true) :
    FinishesAlone settings sys l := by
  intro j job t hj hold hnew hfinishes
  have hacts : l.worker? ≠ none ∨ l.request? ≠ none := by
    cases hfinishes with
    | recorded | exhausted => exact .inl nofun
    | cancelJob | cancelRun | stopLoop => exact .inr nofun
  obtain ⟨hworkers, hrequests⟩ := hsolo.others halone hacts
  constructor
  · intro w hw hthreat
    rw [hworkers w hw] at hthreat
    exact absurd hthreat nofun
  · intro q hq hthreat
    rw [hrequests q hq] at hthreat
    exact absurd hthreat nofun

/-- Job 0 has the status `s`, and `labels` lead to a system that meets `test`. -/
def statusThen (allowed : Runtime → Label → Bool) (s : JobStatus) (labels : List Label)
    (test : Runtime → Bool) (sys : Runtime) : Bool :=
  sys.db.jobStatus? 0 == some s && (perform allowed (Runtime.step {}) sys labels).any test

theorem jobStatus?_eq_some {db : Db} {s : JobStatus} (h : db.jobStatus? j = some s) :
    ∃ job, db.jobs[j]? = some job ∧ job.status = s := Option.map_eq_some_iff.mp h

/-- The worker completes a job, a cancel request and the recovery pass come too late for it, and the
worker runs the next job. -/
theorem terminal_jobs_absorbing_completed :
    ∃ start sys later : Runtime, ∃ job : Job, start.Initial ∧ Orderly {} start sys ∧
      Orderly {} sys later ∧ sys.db.jobs[0]? = some job ∧ job.status = .completed ∧
      later.db.jobStatus? 1 = some .completed ∧ later.db.jobStatus? 0 = some job.status := by
  obtain ⟨sys, hrun, hsolo, htest⟩ := Runtime.run_of_alone
    (.of_initial Runtime.newCycle_initial) (fun _ _ hsolo halone => finishesAlone_of_alone hsolo halone)
    (show (perform Runtime.alone (Runtime.step {}) Runtime.newCycle
      ([.receive 0 (.startDiscovery 0), .respond 0] ++ Runtime.work [{}])).any
        (statusThen Runtime.alone .completed
          ([.receive 0 (.cancelJob 0), .respond 0, .tick 120000001, .readStale 0, .writeStale 0] ++
            Runtime.work [{}])
          fun later => later.db.jobStatus? 1 == some .completed) = true
      by decide +kernel)
  simp only [statusThen, Bool.and_eq_true, beq_iff_eq] at htest
  obtain ⟨job, hjob, hstatus⟩ := jobStatus?_eq_some htest.1
  obtain ⟨later, hlater, -, hnext⟩ := Runtime.run_of_alone hsolo
    (fun _ _ hsolo halone => finishesAlone_of_alone hsolo halone) htest.2
  have hfinished : job.status.terminal = true := by
    rw [hstatus]
    rfl
  refine ⟨Runtime.newCycle, sys, later, job, Runtime.newCycle_initial, hrun, hlater, hjob, hstatus,
    ?_, terminal_jobs_absorbing Runtime.newCycle_initial hrun hlater hjob hfinished⟩
  simpa only [beq_iff_eq] using hnext

/-- A job cancelled between its claim and `start_job` is marked running. -/
theorem cancelled_job_started :
    ∃ start sys later : Runtime, start.Initial ∧
      Reaches Unguarded (Runtime.step {}) start sys ∧
      Reaches Unguarded (Runtime.step {}) sys later ∧
      sys.db.jobStatus? 0 = some .cancelled ∧ later.db.jobStatus? 0 = some .running := by
  obtain ⟨sys, hrun, htest⟩ := Runtime.run_of_anyone
    (show (perform Runtime.anyone (Runtime.step {}) Runtime.newCycle
      [.receive 0 (.startDiscovery 0), .respond 0, .claim 0 [], .receive 0 (.cancelJob 0),
        .respond 0]).any (statusThen Runtime.anyone .cancelled [.start 0]
          fun later => later.db.jobStatus? 0 == some .running) = true
      by decide +kernel)
  simp only [statusThen, Bool.and_eq_true, beq_iff_eq] at htest
  obtain ⟨later, hlater, hend⟩ := Runtime.run_of_anyone htest.2
  exact ⟨Runtime.newCycle, sys, later, Runtime.newCycle_initial, hrun, hlater, htest.1,
    by simpa using hend⟩

end Synthetos.Jobs
