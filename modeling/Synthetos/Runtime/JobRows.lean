import Synthetos.Runtime.Steps
import Synthetos.Worker.LoopExits

/-!
# What a step does to the job table

`JobChange` lists what a step can do to the row of a job, and `Born` where new jobs come from.
Every invariant about jobs is derived from these two.
-/

namespace Synthetos

open Synthetos.Core Storage Lib Worker Api

/-- The columns of a job that never change. -/
structure SameJob (old new : Job) : Prop where
  cycle : new.cycleId = old.cycleId
  type : new.jobType = old.jobType
  payload : new.payload = old.payload

theorem SameJob.refl (job : Job) : SameJob job job := ⟨rfl, rfl, rfl⟩

theorem SameJob.trans {a b c : Job} (hab : SameJob a b) (hbc : SameJob b c) : SameJob a c :=
  ⟨hbc.cycle.trans hab.cycle, hbc.type.trans hab.type, hbc.payload.trans hab.payload⟩

inductive Answer (seen : Db) (j : JobId) (old : Job) : Request → Job → Prop where
  | cancelJob (row : Job) (new : Job) (hrow : seen.jobs[j]? = some row)
      (hseen : row.status.cancellable = true) (hstatus : new.status = .cancelled)
      (hclaim : new.claimedBy = old.claimedBy) : Answer seen j old (.cancelJob j) new
  | pauseJob (row : Job) (new : Job) (hrow : seen.jobs[j]? = some row)
      (hseen : row.status = .pending ∨ row.status = .claimed ∨ row.status = .running)
      (hstatus : new.status = .paused) (hclaim : new.claimedBy = old.claimedBy) :
      Answer seen j old (.pauseJob j) new
  | resumeJob (row : Job) (new : Job) (hrow : seen.jobs[j]? = some row)
      (hseen : row.status = .paused) (hstatus : new.status = .pending) :
      Answer seen j old (.resumeJob j) new
  | resumeGate (c : CycleId) (new : Job) (hseen : pausedLoopJob seen c = some j)
      (hstatus : new.status = .pending) : Answer seen j old (.resumeGate c) new
  | cancelRun (r : RunId) (run : RunRecord) (new : Job) (hrun : seen.runs[r]? = some run)
      (hallowed : (allowedActions run.status).contains .cancel = true)
      (hold : old.status.cancellable = true) (hr : old.payload.runRecordId = some r)
      (hstatus : new.status = .cancelled) (hclaim : new.claimedBy = old.claimedBy) :
      Answer seen j old (.controlRun r .cancel) new
  | pauseRun (r : RunId) (run : RunRecord) (new : Job) (hrun : seen.runs[r]? = some run)
      (hallowed : (allowedActions run.status).contains .pause = true)
      (hold : old.status = .claimed ∨ old.status = .running)
      (hr : old.payload.runRecordId = some r)
      (hstatus : new.status = .paused) (hclaim : new.claimedBy = old.claimedBy) :
      Answer seen j old (.controlRun r .pause) new
  | stopLoop (c : CycleId) (new : Job) (hold : old.status.cancellable = true)
      (hc : old.cycleId = some c) (hstatus : new.status = .cancelled)
      (hclaim : new.claimedBy = old.claimedBy) : Answer seen j old (.stopLoop c) new

/-- What a step can do to a job row. -/
inductive JobChange (settings : Settings) (sys : Runtime) (j : JobId) (old : Job) :
    Label → Job → Prop where
  | kept (l : Label) (new : Job) (hstatus : new.status = old.status)
      (hclaim : new.claimedBy = old.claimedBy) : JobChange settings sys j old l new
  | claimed (w : WorkerId) (locked : List JobId) (new : Job) (hpc : sys.workers w = .idle)
      (hold : old.status = .pending) (hstatus : new.status = .claimed)
      (hclaim : new.claimedBy = some w) : JobChange settings sys j old (.claim w locked) new
  | started (w : WorkerId) (new : Job) (hpc : sys.workers w = .claimed j)
      (hstatus : new.status = .running) (hclaim : new.claimedBy = old.claimedBy) :
      JobChange settings sys j old (.start w) new
  | pausedItself (w : WorkerId) (world : External) (phase : Phase) (new : Job)
      (hpc : sys.workers w = .executing j phase) (htype : old.jobType = .loopDecide)
      (hstatus : new.status = .paused) (hclaim : new.claimedBy = old.claimedBy) :
      JobChange settings sys j old (.exec w world) new
  | recorded (w : WorkerId) (result : OperatorResult) (seen : JobStatus)
      (cycleSeen : Option CycleStatus) (runSeen : Option RunStatus) (new : Job)
      (hpc : sys.workers w = .recording j result seen cycleSeen runSeen)
      (hstatus : new.status = outcomeStatus result seen) (hclaim : new.claimedBy = old.claimedBy) :
      JobChange settings sys j old (.writeOutcome w) new
  | requeued (w : WorkerId) (stale : List (JobId × Job)) (row new : Job)
      (hpc : sys.workers w = .reclaiming stale) (hrow : (j, row) ∈ stale)
      (hcount : row.reclaimCount + 1 ≤ settings.maxReclaims) (hstatus : new.status = .pending) :
      JobChange settings sys j old (.writeStale w) new
  | exhausted (w : WorkerId) (stale : List (JobId × Job)) (row new : Job)
      (hpc : sys.workers w = .reclaiming stale) (hrow : (j, row) ∈ stale)
      (hcount : settings.maxReclaims < row.reclaimCount + 1) (hstatus : new.status = .failed)
      (hclaim : new.claimedBy = old.claimedBy ∨
        ∃ row', (j, row') ∈ stale ∧ row'.reclaimCount + 1 ≤ settings.maxReclaims) :
      JobChange settings sys j old (.writeStale w) new
  | answered (q : Nat) (body : Request) (seen : Db) (new : Job)
      (hpc : sys.requests q = .opened body seen) (hanswer : Answer seen j old body new) :
      JobChange settings sys j old (.respond q) new

inductive Requested (seen db : Db) : Request → Job → Prop where
  | startDiscovery (c : CycleId) (cycle : ResearchCycle) (hcycle : seen.cycles[c]? = some cycle)
      (hstatus : cycle.status = .created ∨ cycle.status = .discoveryReady) :
      Requested seen db (.startDiscovery c) (createJob db (some c) .discoveryIntake {} 10)
  | startAnalysis (c : CycleId) (cycle : ResearchCycle) (hcycle : seen.cycles[c]? = some cycle) :
      Requested seen db (.startAnalysis c) (createJob db (some c) .analysisIngest {} 10)
  | startHypothesisSession (c : CycleId) (charter : CharterId) (cycle : ResearchCycle)
      (hcycle : seen.cycles[c]? = some cycle) (hstatus : cycle.status = .evidenceReady) :
      Requested seen db (.startHypothesisSession c charter)
        (createJob db (some c) .hypothesisGenerate
          { hypothesisSessionId := some db.sessions.length } 10)
  | compileProtocols (c : CycleId) (cycle : ResearchCycle) (session : SessionId)
      (row : HypothesisSession) (cards : List CardId) (hardwareProfile : Option Dict)
      (baseImage : Option String) (hcycle : seen.cycles[c]? = some cycle)
      (hstatus : cycle.status = .portfolioReady) (hrow : seen.sessions[session]? = some row)
      (hsession : row.cycleId = c) :
      Requested seen db (.compileProtocols c session cards hardwareProfile baseImage)
        (createJob db (some c) .protocolCompile
          { hypothesisSessionId := some session, hypothesisCardIds := cards
            hardwareProfile, baseImage } 10)
  | startRun (spec : SpecId) (row : ExperimentSpec) (cycle : ResearchCycle)
      (hspec : seen.specs[spec]? = some row) (hcycle : seen.cycles[row.cycleId]? = some cycle) :
      Requested seen db (.startRun spec) (enqueueNext db row.cycleId .executionSetup db.runs.length)
  | resumeRun (r : RunId) (run : RunRecord) (hrun : seen.runs[r]? = some run)
      (hallowed : (allowedActions run.status).contains .resume = true) :
      Requested seen db (.controlRun r .resume)
        (createJob db (some run.cycleId) .executionRun { runRecordId := some r, resume := true } 10)
  | retryRun (r : RunId) (run : RunRecord) (hrun : seen.runs[r]? = some run)
      (hallowed : (allowedActions run.status).contains .retry = true) :
      Requested seen db (.controlRun r .retry)
        (enqueueNext db run.cycleId .executionSetup db.runs.length)
  | stopLoop (c : CycleId) (cycle : ResearchCycle) (hcycle : seen.cycles[c]? = some cycle)
      (hstatus : cycle.status = .loopDeciding ∨ cycle.status = .running) :
      Requested seen db (.stopLoop c) (createJob db (some c) .loopReport { cycleId := some c } 5)

/-- A job a step adds. -/
inductive Born (sys : Runtime) : Label → Job → Prop where
  | enqueued (w : WorkerId) (world : External) (j : JobId) (phase : Phase) (job new : Job)
      (txn : Txn) (next : Core.Next) (hpc : sys.workers w = .executing j phase)
      (hj : sys.db.jobs[j]? = some job)
      (hout : execute sys.db (operatorInput j job) phase world = (txn, next))
      (hnew : txn.newJobs = [new]) : Born sys (.exec w world) new
  | requested (q : Nat) (body : Request) (seen : Db) (new : Job)
      (hpc : sys.requests q = .opened body seen) (hnew : Requested seen sys.db body new) :
      Born sys (.respond q) new

/-! ### Operator transactions -/

section Exits

variable {db : Db} {input : OperatorInput} {phase : Phase} {txn : Txn} {next : Core.Next}

theorem exit_newJobs (h : Exit db input phase txn next) :
    txn.newJobs = [] ∨ ∃ job, txn.newJobs = [job] := by
  cases h with
  | loopPaused => exact .inl ‹_›
  | loopClosed =>
    rename_i hjobs _ _ _
    exact hjobs.imp_right fun hone => ⟨_, hone⟩
  | relayed =>
    rename_i hjobs _ _ _
    cases hrelay : (relayOf input.jobType).1 with
    | none => exact .inl (by rw [hjobs, hrelay]; rfl)
    | some jobType => exact .inr ⟨_, by rw [hjobs, hrelay]; rfl⟩
  | _ =>
    first
      | exact .inl rfl
      | exact .inl ‹Quiet _›.jobs
      | exact .inr ⟨_, ‹Enqueues _ _›.jobs⟩
      | exact .inr ⟨_, ‹Prepares _ _ _›.jobs⟩

theorem exit_pause (h : Exit db input phase txn next) :
    txn.pausedJob = none ∨ txn.pausedJob = some input.jobId ∧ input.jobType = .loopDecide := by
  cases h with
  | loopPaused => exact .inr ⟨‹_›, ‹_›⟩
  | _ =>
    first
      | exact .inl rfl
      | exact .inl ‹Quiet _›.pause
      | exact .inl ‹Enqueues _ _›.pause
      | exact .inl ‹Prepares _ _ _›.pause
      | exact .inl ‹_›

end Exits

/-! ### Rows -/

section Rows

variable {settings : Settings} {sys sys' : Runtime} {l : Label} {j : JobId} {old new : Job}

theorem jobChange_of_eq {db : Db} (hj : sys.db.jobs[j]? = some old)
    (hjobs : db.jobs = sys.db.jobs) :
    ∃ new, db.jobs[j]? = some new ∧ SameJob old new ∧ JobChange settings sys j old l new :=
  ⟨old, by rw [hjobs]; exact hj, .refl old, .kept l old rfl rfl⟩

theorem update_row {jobs : List Job} {k : JobId} {f : Job → Job} (hj : jobs[j]? = some old) :
    (Table.update jobs k f)[j]? = some (if k = j then f old else old) := by
  rw [Table.getElem?_update]
  split
  · rw [hj]
    rfl
  · exact hj

theorem updateWhere_row {jobs : List Job} {p : Job → Bool} {f : Job → Job}
    (hj : jobs[j]? = some old) :
    (Table.updateWhere jobs p f)[j]? = some (if p old then f old else old) := by
  rw [Table.getElem?_updateWhere, hj]
  rfl

theorem jobChange_of_update {db : Db} {k : JobId} {f : Job → Job}
    (hj : sys.db.jobs[j]? = some old) (hjobs : db.jobs = Table.update sys.db.jobs k f)
    (hsame : SameJob old (f old)) (hchange : k = j → JobChange settings sys j old l (f old)) :
    ∃ new, db.jobs[j]? = some new ∧ SameJob old new ∧ JobChange settings sys j old l new := by
  refine ⟨_, by rw [hjobs]; exact update_row hj, ?_⟩
  split
  · exact ⟨hsame, hchange ‹_›⟩
  · exact ⟨.refl old, .kept l old rfl rfl⟩

theorem jobChange_of_updateWhere {db : Db} {p : Job → Bool} {f : Job → Job} {born : List Job}
    (hj : sys.db.jobs[j]? = some old) (hjobs : db.jobs = Table.updateWhere sys.db.jobs p f ++ born)
    (hsame : SameJob old (f old))
    (hchange : p old = true → JobChange settings sys j old l (f old)) :
    ∃ new, db.jobs[j]? = some new ∧ SameJob old new ∧ JobChange settings sys j old l new := by
  refine ⟨_, by rw [hjobs]; exact Table.getElem?_append_old (updateWhere_row hj), ?_⟩
  split
  · exact ⟨hsame, hchange ‹_›⟩
  · exact ⟨.refl old, .kept l old rfl rfl⟩

theorem reclaimJob_row (maxReclaims : Nat) (db : Db) (k : JobId) (row : Job)
    (hj : db.jobs[j]? = some old) :
    ∃ new, (reclaimJob maxReclaims db k row).jobs[j]? = some new ∧ SameJob old new ∧
      (new.status = old.status ∧ new.claimedBy = old.claimedBy ∨
        k = j ∧ row.reclaimCount + 1 ≤ maxReclaims ∧ new.status = .pending ∨
        k = j ∧ maxReclaims < row.reclaimCount + 1 ∧ new.status = .failed ∧
          new.claimedBy = old.claimedBy) := by
  unfold reclaimJob
  dsimp only
  split
  · refine ⟨_, update_row hj, ?_⟩
    split
    · exact ⟨⟨rfl, rfl, rfl⟩, .inr (.inr ⟨‹_›, ‹_›, rfl, rfl⟩)⟩
    · exact ⟨.refl old, .inl ⟨rfl, rfl⟩⟩
  · refine ⟨_, update_row hj, ?_⟩
    split
    · exact ⟨⟨rfl, rfl, rfl⟩, .inr (.inl ⟨‹_›, by omega, rfl⟩)⟩
    · exact ⟨.refl old, .inl ⟨rfl, rfl⟩⟩

theorem reclaimStaleJobs_row (maxReclaims : Nat) (stale : List (JobId × Job)) :
    ∀ (db : Db) (old : Job), db.jobs[j]? = some old →
      ∃ new, (reclaimStaleJobs maxReclaims db stale).jobs[j]? = some new ∧ SameJob old new ∧
        (new.status = old.status ∧ new.claimedBy = old.claimedBy ∨
          (∃ row, (j, row) ∈ stale ∧ row.reclaimCount + 1 ≤ maxReclaims ∧ new.status = .pending) ∨
          ∃ row, (j, row) ∈ stale ∧ maxReclaims < row.reclaimCount + 1 ∧ new.status = .failed ∧
            (new.claimedBy = old.claimedBy ∨
              ∃ row', (j, row') ∈ stale ∧ row'.reclaimCount + 1 ≤ maxReclaims)) := by
  induction stale with
  | nil =>
    intro db old hj
    exact ⟨old, hj, .refl old, .inl ⟨rfl, rfl⟩⟩
  | cons entry rest ih =>
    intro db old hj
    obtain ⟨k, row⟩ := entry
    obtain ⟨mid, hmid, hsame, hfirst⟩ := reclaimJob_row maxReclaims db k row hj
    obtain ⟨new, hnew, hsame', hrest⟩ := ih _ mid hmid
    refine ⟨new, hnew, hsame.trans hsame', ?_⟩
    rcases hrest with ⟨hstatus, hclaim⟩ | ⟨row', hmem, hrow'⟩ | ⟨row', hmem, hcount, hstatus, hclaim⟩
    · rcases hfirst with ⟨hstatus', hclaim'⟩ | ⟨rfl, hcount, hstatus'⟩ |
        ⟨rfl, hcount, hstatus', hclaim'⟩
      · exact .inl ⟨hstatus.trans hstatus', hclaim.trans hclaim'⟩
      · exact .inr (.inl ⟨row, List.mem_cons_self, hcount, hstatus.trans hstatus'⟩)
      · exact .inr (.inr ⟨row, List.mem_cons_self, hcount, hstatus.trans hstatus',
          .inl (hclaim.trans hclaim')⟩)
    · exact .inr (.inl ⟨row', List.mem_cons_of_mem _ hmem, hrow'⟩)
    · refine .inr (.inr ⟨row', List.mem_cons_of_mem _ hmem, hcount, hstatus, ?_⟩)
      rcases hclaim with hclaim | ⟨row'', hmem', hcount'⟩
      · rcases hfirst with ⟨-, hclaim'⟩ | ⟨rfl, hcount', -⟩ | ⟨-, -, -, hclaim'⟩
        · exact .inl (hclaim.trans hclaim')
        · exact .inr ⟨row, List.mem_cons_self, hcount'⟩
        · exact .inl (hclaim.trans hclaim')
      · exact .inr ⟨row'', List.mem_cons_of_mem _ hmem', hcount'⟩

theorem reclaimStaleJobs_length (maxReclaims : Nat) (db : Db) (stale : List (JobId × Job)) :
    (reclaimStaleJobs maxReclaims db stale).jobs.length = db.jobs.length := by
  induction stale generalizing db with
  | nil => rfl
  | cons entry rest ih =>
    refine (ih _).trans ?_
    dsimp only
    unfold reclaimJob
    dsimp only
    split
    · exact Table.length_update
    · exact Table.length_update

theorem writeOutcome_jobs (db : Db) (k : JobId) (job : Job) (result : OperatorResult)
    (seen : JobStatus) (cycleSeen : Option CycleStatus) (runSeen : Option RunStatus) :
    ∃ f : Job → Job, (Worker.writeOutcome db k job result seen cycleSeen runSeen).jobs =
        Table.update db.jobs k f ∧
      ∀ row, SameJob row (f row) ∧ (f row).status = outcomeStatus result seen ∧
        (f row).claimedBy = row.claimedBy := by
  have hpatched : (applyStatePatch db job result cycleSeen).jobs = db.jobs := by
    unfold applyStatePatch
    split <;> rfl
  have hmarked (error : String) :
      (markExecutionJobFailed db job error runSeen).jobs = db.jobs := by
    unfold markExecutionJobFailed
    split
    · split <;> rfl
    · rfl
  unfold Worker.writeOutcome outcomeStatus
  dsimp only
  split
  · split
    · exact ⟨fun row => { row with status := .paused },
        congrArg (Table.update · k _) hpatched, fun _ => ⟨⟨rfl, rfl, rfl⟩, rfl, rfl⟩⟩
    · exact ⟨fun row => { row with status := .completed, completedAt := some _ },
        congrArg (Table.update · k _) hpatched, fun _ => ⟨⟨rfl, rfl, rfl⟩, rfl, rfl⟩⟩
  · exact ⟨fun row => { row with status := .failed, error := some _, completedAt := some _ },
      congrArg (Table.update · k _) (hmarked _), fun _ => ⟨⟨rfl, rfl, rfl⟩, rfl, rfl⟩⟩

theorem ensureRunning_jobs (seen db : Db) (c : CycleId) :
    (ensureRunning seen db c).jobs = db.jobs := by
  unfold ensureRunning
  split
  · rfl
  · split <;> rfl

theorem retryRun_jobs (seen db : Db) (run : RunRecord) :
    (retryRun seen db run).jobs =
      db.jobs ++ [enqueueNext db run.cycleId .executionSetup db.runs.length] := by
  unfold retryRun ensureRunning
  split
  · rfl
  · split <;> rfl

theorem pausedLoopJob_row {db : Db} {c : CycleId} (h : pausedLoopJob db c = some j) :
    ∃ job, db.jobs[j]? = some job ∧ job.cycleId = some c ∧ job.jobType = .loopDecide ∧
      job.status = .paused := by
  have hmem := (List.mem_filter.mp (List.mem_of_getLast? h)).2
  rw [Option.any_eq_true] at hmem
  obtain ⟨job, hjob, hrow⟩ := hmem
  simp only [Bool.and_eq_true, beq_iff_eq] at hrow
  exact ⟨job, hjob, hrow.1.1, hrow.1.2, hrow.2⟩

theorem respond_row {q : Nat} {body : Request} {seen db : Db}
    (hpc : sys.requests q = .opened body seen) (hanswer : Responds seen sys.db body db)
    (hj : sys.db.jobs[j]? = some old) :
    ∃ new, db.jobs[j]? = some new ∧ SameJob old new ∧
      JobChange settings sys j old (.respond q) new := by
  have keeps {db : Db} {born : List Job} (hjobs : db.jobs = sys.db.jobs ++ born) :
      ∃ new, db.jobs[j]? = some new ∧ SameJob old new ∧
        JobChange settings sys j old (.respond q) new :=
    ⟨old, by rw [hjobs]; exact Table.getElem?_append_old hj, .refl old, .kept _ old rfl rfl⟩
  cases hanswer with
  | createCycle | transitionCycle => exact jobChange_of_eq hj rfl
  | startDiscovery | startHypothesisSession | compileProtocols => exact keeps rfl
  | startAnalysis c cycle moved hcycle hmoved =>
    rcases hmoved with ⟨-, rfl⟩ | ⟨-, rfl⟩
    · exact keeps rfl
    · exact keeps rfl
  | startRun spec row cycle moved hspec hvalidated hcycle hmoved =>
    rcases hmoved with ⟨-, rfl⟩ | ⟨-, rfl⟩
    · exact keeps rfl
    · exact keeps rfl
  | cancelRun r run hrun hallowed =>
    refine jobChange_of_updateWhere hj (List.append_nil _).symm ⟨rfl, rfl, rfl⟩ fun hold => ?_
    simp only [Bool.and_eq_true, beq_iff_eq] at hold
    exact .answered q _ seen _ hpc (.cancelRun r run _ hrun hallowed hold.1 hold.2 rfl rfl)
  | pauseRun r run hrun hallowed =>
    refine jobChange_of_updateWhere hj (List.append_nil _).symm ⟨rfl, rfl, rfl⟩ fun hold => ?_
    simp only [Bool.and_eq_true, Bool.or_eq_true, beq_iff_eq] at hold
    exact .answered q _ seen _ hpc (.pauseRun r run _ hrun hallowed hold.1 hold.2 rfl rfl)
  | resumeRun r run hrun hallowed => exact keeps (ensureRunning_jobs ..)
  | retryRun r run hrun hallowed =>
    exact keeps (retryRun_jobs seen sys.db run)
  | cancelJob k row hrow hseen =>
    refine jobChange_of_update hj rfl ⟨rfl, rfl, rfl⟩ ?_
    rintro rfl
    exact .answered q _ seen _ hpc (.cancelJob row _ hrow hseen rfl rfl)
  | pauseJob k row hrow hseen =>
    refine jobChange_of_update hj rfl ⟨rfl, rfl, rfl⟩ ?_
    rintro rfl
    exact .answered q _ seen _ hpc (.pauseJob row _ hrow hseen rfl rfl)
  | resumeJob k row hrow hseen =>
    refine jobChange_of_update hj rfl ⟨rfl, rfl, rfl⟩ ?_
    rintro rfl
    exact .answered q _ seen _ hpc (.resumeJob row _ hrow hseen rfl)
  | resumeGate c k hk =>
    refine jobChange_of_update hj rfl ⟨rfl, rfl, rfl⟩ ?_
    rintro rfl
    exact .answered q _ seen _ hpc (.resumeGate c _ hk rfl)
  | stopLoop c cycle moved hcycle hmoved =>
    have hchange : (old.cycleId == some c && old.status.cancellable) = true →
        JobChange settings sys j old (.respond q) { old with status := .cancelled } := by
      intro hold
      simp only [Bool.and_eq_true, beq_iff_eq] at hold
      exact .answered q _ seen _ hpc (.stopLoop c _ hold.2 hold.1 rfl rfl)
    rcases hmoved with ⟨-, rfl⟩ | ⟨-, rfl⟩
    · exact jobChange_of_updateWhere hj rfl ⟨rfl, rfl, rfl⟩ hchange
    · exact jobChange_of_updateWhere hj (List.append_nil _).symm ⟨rfl, rfl, rfl⟩ hchange

theorem step_row (h : Step settings sys l sys') (hj : sys.db.jobs[j]? = some old) :
    ∃ new, sys'.db.jobs[j]? = some new ∧ SameJob old new ∧ JobChange settings sys j old l new := by
  cases h with
  | tick | readOutcome | readFailure | readNoPatch | readPatch | raisePatch | readStale | crash
  | receive | reject | drop | acknowledge => exact jobChange_of_eq hj rfl
  | claim w locked k hpc hk =>
    refine jobChange_of_update hj rfl ⟨rfl, rfl, rfl⟩ ?_
    rintro rfl
    obtain ⟨row, hrow, hpending⟩ := nextJob_pending _ _ hk
    obtain rfl := Option.some.inj (hj.symm.trans hrow)
    exact .claimed w locked _ hpc hpending rfl rfl
  | start w k hpc =>
    refine jobChange_of_update hj rfl ⟨rfl, rfl, rfl⟩ ?_
    rintro rfl
    exact .started w _ hpc rfl rfl
  | exec w world k phase job txn next hpc hk hout =>
    rcases exit_pause (execute_exit hout) with hpause | ⟨hpause, htype⟩
    · refine ⟨old, ?_, .refl old, .kept _ old rfl rfl⟩
      rw [Runtime.moveWorker_db, Db.commit_jobs, hpause]
      exact Table.getElem?_append_old hj
    · refine ⟨if k = j then { old with status := .paused } else old, ?_, ?_⟩
      · rw [Runtime.moveWorker_db, Db.commit_jobs, hpause]
        exact Table.getElem?_append_old (update_row hj)
      · split
        · rename_i same
          subst same
          obtain rfl := Option.some.inj (hj.symm.trans hk)
          exact ⟨⟨rfl, rfl, rfl⟩, .pausedItself w world phase _ hpc htype rfl rfl⟩
        · exact ⟨.refl old, .kept _ old rfl rfl⟩
  | writeOutcome w k result seen cycleSeen runSeen job hpc hk =>
    obtain ⟨f, hjobs, hf⟩ := writeOutcome_jobs sys.db k job result seen cycleSeen runSeen
    refine jobChange_of_update hj hjobs (hf old).1 ?_
    rintro rfl
    exact .recorded w result seen cycleSeen runSeen _ hpc (hf old).2.1 (hf old).2.2
  | heartbeat w k hpc =>
    exact jobChange_of_update hj rfl ⟨rfl, rfl, rfl⟩ fun _ => .kept _ _ rfl rfl
  | writeStale w stale hpc =>
    obtain ⟨new, hnew, hsame, hrow⟩ := reclaimStaleJobs_row settings.maxReclaims stale sys.db old hj
    refine ⟨new, hnew, hsame, ?_⟩
    rcases hrow with ⟨hstatus, hclaim⟩ | ⟨row, hmem, hcount, hstatus⟩ |
      ⟨row, hmem, hcount, hstatus, hclaim⟩
    · exact .kept _ new hstatus hclaim
    · exact .requeued w stale row new hpc hmem hcount hstatus
    · exact .exhausted w stale row new hpc hmem hcount hstatus hclaim
  | respond q body seen db hpc hanswer => exact respond_row hpc hanswer hj

theorem respond_born {q : Nat} {body : Request} {seen db : Db}
    (hpc : sys.requests q = .opened body seen) (hanswer : Responds seen sys.db body db)
    (hold : sys.db.jobs[j]? = none) (hj : db.jobs[j]? = some new) :
    j = sys.db.jobs.length ∧ Born sys (.respond q) new := by
  have appended {jobs : List Job} {job : Job} (hlength : jobs.length = sys.db.jobs.length)
      (hjobs : db.jobs = jobs ++ [job]) (hnew : Requested seen sys.db body job) :
      j = sys.db.jobs.length ∧ Born sys (.respond q) new := by
    rw [hjobs] at hj
    have hout := List.getElem?_eq_none_iff.mp hold
    rcases Table.getElem?_append_singleton hj with hin | ⟨hlen, rfl⟩
    · exact absurd (Table.lt_length_of_getElem? hin) (by omega)
    · exact ⟨hlen.trans hlength, .requested q body seen _ hpc hnew⟩
  have kept (hlength : db.jobs.length = sys.db.jobs.length) :
      j = sys.db.jobs.length ∧ Born sys (.respond q) new := by
    have hout := List.getElem?_eq_none_iff.mp hold
    have hin := Table.lt_length_of_getElem? hj
    exact absurd hin (by omega)
  cases hanswer with
  | createCycle | transitionCycle => exact kept rfl
  | startDiscovery c cycle hcycle hstatus =>
    exact appended rfl rfl (.startDiscovery c cycle hcycle hstatus)
  | startHypothesisSession c charter cycle hcycle hstatus =>
    exact appended rfl rfl (.startHypothesisSession c charter cycle hcycle hstatus)
  | compileProtocols c cycle session row cards profile image hcycle hstatus hrow hsession =>
    exact appended rfl rfl
      (.compileProtocols c cycle session row cards profile image hcycle hstatus hrow hsession)
  | startAnalysis c cycle moved hcycle hmoved =>
    rcases hmoved with ⟨-, rfl⟩ | ⟨-, rfl⟩
    · exact appended rfl rfl (.startAnalysis c cycle hcycle)
    · exact appended rfl rfl (.startAnalysis c cycle hcycle)
  | startRun spec row cycle moved hspec hvalidated hcycle hmoved =>
    rcases hmoved with ⟨-, rfl⟩ | ⟨-, rfl⟩
    · exact appended rfl rfl (.startRun spec row cycle hspec hcycle)
    · exact appended rfl rfl (.startRun spec row cycle hspec hcycle)
  | cancelRun | pauseRun => exact kept Table.length_updateWhere
  | resumeRun r run hrun hallowed =>
    exact appended rfl (ensureRunning_jobs ..) (.resumeRun r run hrun hallowed)
  | retryRun r run hrun hallowed =>
    refine appended rfl ?_ (.retryRun r run hrun hallowed)
    rw [retryRun_jobs]
  | cancelJob | pauseJob | resumeJob | resumeGate => exact kept Table.length_update
  | stopLoop c cycle moved hcycle hmoved =>
    rcases hmoved with ⟨hstatus, rfl⟩ | ⟨-, rfl⟩
    · exact appended Table.length_updateWhere rfl (.stopLoop c cycle hcycle hstatus)
    · exact kept Table.length_updateWhere

theorem step_born (h : Step settings sys l sys') (hold : sys.db.jobs[j]? = none)
    (hj : sys'.db.jobs[j]? = some new) : j = sys.db.jobs.length ∧ Born sys l new := by
  have kept (hlength : sys'.db.jobs.length = sys.db.jobs.length) :
      j = sys.db.jobs.length ∧ Born sys l new := by
    have hout := List.getElem?_eq_none_iff.mp hold
    have hin := Table.lt_length_of_getElem? hj
    exact absurd hin (by omega)
  cases h with
  | tick | readOutcome | readFailure | readNoPatch | readPatch | raisePatch | readStale | crash
  | receive | reject | drop | acknowledge => exact kept rfl
  | claim | start | heartbeat => exact kept Table.length_update
  | exec w world k phase job txn next hpc hk hout =>
    have hout' := List.getElem?_eq_none_iff.mp hold
    have hlength : (Db.pauseJobRow sys.db.jobs txn.pausedJob).length = sys.db.jobs.length := by
      unfold Db.pauseJobRow
      split
      · exact Table.length_update
      · rfl
    rw [Runtime.moveWorker_db, Db.commit_jobs] at hj
    rcases exit_newJobs (execute_exit hout) with hnone | ⟨job', hone⟩
    · rw [hnone, List.append_nil] at hj
      exact absurd (Table.lt_length_of_getElem? hj) (by omega)
    · rw [hone] at hj
      rcases Table.getElem?_append_singleton hj with hin | ⟨hlen, rfl⟩
      · exact absurd (Table.lt_length_of_getElem? hin) (by omega)
      · exact ⟨hlen.trans hlength, .enqueued w world k phase job _ txn next hpc hk hout hone⟩
  | writeOutcome w k result seen cycleSeen runSeen job hpc hk =>
    obtain ⟨f, hjobs, -⟩ := writeOutcome_jobs sys.db k job result seen cycleSeen runSeen
    refine kept ?_
    rw [Runtime.moveWorker_db, hjobs, Table.length_update]
  | writeStale w stale hpc =>
    exact kept (reclaimStaleJobs_length ..)
  | respond q body seen db hpc hanswer => exact respond_born hpc hanswer hold hj

end Rows

end Synthetos
