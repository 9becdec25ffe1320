import Synthetos.Runs.Pipeline

/-!
# The next job of a run

The next job of a run is added when the last one is done, as long as nobody adds a job or returns
an old one to the queue while the pipeline of the run is at work.
-/

namespace Synthetos.Runs

open Synthetos.Core Storage Lib Worker Api Jobs

structure OneAtATime (settings : Settings) (sys : Runtime) (l : Label) : Prop where
  /-- A run is paused and resumed in the status the request has read. -/
  fresh : ∀ q r action seen, l = .respond q → sys.requests q = .opened (.controlRun r action) seen →
    action = .pause ∨ action = .resume → seen.runStatus? r = sys.db.runStatus? r
  /-- A run is resumed when no job of its pipeline waits or is worked on. -/
  resume : ∀ q r seen, l = .respond q → sys.requests q = .opened (.controlRun r .resume) seen →
    ∀ (j : JobId) (job : Job), sys.db.jobs[j]? = some job → Pipeline r job →
      job.status ≠ .pending ∧ ∀ w, ¬ Works j (sys.workers w)
  /-- A job is returned to the queue when it is the last of its run and nobody works on it. -/
  requeue : ∀ (j : JobId) (job : Job) r, Returns settings sys j l → sys.db.jobs[j]? = some job →
    Pipeline r job → Newest sys.db.jobs (Pipeline r) j ∧ ∀ w, ¬ Works j (sys.workers w)
  /-- A prepared run is launched once. -/
  launch : ∀ w world j phase (job : Job) r, l = .exec w world →
    sys.workers w = .executing j phase → sys.db.jobs[j]? = some job → job.jobType = .loopDecide →
      job.payload.preparedRunRecordId = some r →
        ∀ (k : JobId) (row : Job), sys.db.jobs[k]? = some row → ¬ Pipeline r row

/-- The jobs of a run follow one another. -/
structure Threaded (sys : Runtime) : Prop where
  rows : ∀ w j, Works j (sys.workers w) → ∃ job, sys.db.jobs[j]? = some job
  pending : ∀ (j : JobId) (job : Job) r, sys.db.jobs[j]? = some job → Pipeline r job →
    job.status = .pending → Newest sys.db.jobs (Pipeline r) j
  working : ∀ w j (job : Job) r, Works j (sys.workers w) → sys.db.jobs[j]? = some job →
    Pipeline r job → Newest sys.db.jobs (Pipeline r) j ∧ job.status ≠ .pending
  alone : ∀ w w' j (job : Job) r, Works j (sys.workers w) → Works j (sys.workers w') →
    sys.db.jobs[j]? = some job → Pipeline r job → w = w'
  run : ∀ (j : JobId) (job : Job) r, sys.db.jobs[j]? = some job → Pipeline r job →
    ∃ run, sys.db.runs[r]? = some run ∧ (job.jobType = .verificationCheck →
      finished run.status = true ∧ Newest sys.db.jobs (Pipeline r) j)

variable {settings : Settings} {sys sys' : Runtime} {l : Label} {r : RunId} {j k : JobId}
  {old new : Job} {w : WorkerId}

theorem commit_newRun {db : Db} {txn : Txn} {run : RunRecord} (hruns : txn.newRuns = [run]) :
    (db.commit txn).runs[db.runs.length]? = some run := by
  have hlength : (Db.updateRun db.runs txn.runUpdate).length = db.runs.length := by
    unfold Db.updateRun
    split
    · exact Table.length_update
    · rfl
  rw [Db.commit_runs, hruns, ← hlength]
  exact List.getElem?_concat_length

theorem commit_writesRun {db : Db} {txn : Txn} {run : RunRecord} {s : RunStatus}
    (hwrite : WritesRun txn r s) (hr : db.runs[r]? = some run) :
    ∃ new, (db.commit txn).runs[r]? = some new ∧ new.status = s := by
  obtain ⟨f, hf, hstatus⟩ := hwrite
  refine ⟨f run, ?_, (hstatus run).2⟩
  rw [Db.commit_runs, hf]
  refine Table.getElem?_append_old ?_
  simp [Db.updateRun, hr]

theorem respond_newRun {q : Nat} {body : Request} {seen : Db}
    (h : Step settings sys (.respond q) sys') (hpc : sys.requests q = .opened body seen)
    (hbody : (∃ spec, body = .startRun spec) ∨ ∃ k, body = .controlRun k .retry)
    (hold : sys.db.jobs[j]? = none) (hj : sys'.db.jobs[j]? = some new) :
    ∃ run, sys'.db.runs[sys.db.runs.length]? = some run := by
  cases h with
  | reject => exact absurd (hold.symm.trans hj) nofun
  | respond _ body' seen' db hpc' hanswer =>
    obtain ⟨rfl, rfl⟩ := RequestPc.opened.inj (hpc.symm.trans hpc')
    rcases hbody with ⟨spec, rfl⟩ | ⟨k, rfl⟩
    · cases hanswer with
      | startRun _ row cycle moved hspec hvalidated hcycle hmoved =>
        rcases hmoved with ⟨-, rfl⟩ | ⟨-, rfl⟩
        · exact ⟨_, List.getElem?_concat_length⟩
        · exact ⟨_, List.getElem?_concat_length⟩
    · cases hanswer with
      | retryRun _ run hrun hallowed =>
        have hruns := ensureRunning_runs seen sys.db run.cycleId
        rw [← hruns]
        exact ⟨_, List.getElem?_concat_length⟩

theorem not_check_of_resume {q : Nat} {seen : Db} {run : RunRecord} (hinv : Threaded sys)
    (hok : OneAtATime settings sys (.respond q))
    (hpc : sys.requests q = .opened (.controlRun r .resume) seen) (hrun : seen.runs[r]? = some run)
    (hallowed : (allowedActions run.status).contains .resume = true)
    (hk : sys.db.jobs[k]? = some old) (hpipeline : Pipeline r old) :
    old.jobType ≠ .verificationCheck := by
  intro hcheck
  obtain ⟨row, hrow, hfinished⟩ := hinv.run k old r hk hpipeline
  have hfresh := hok.fresh q r .resume seen rfl hpc (.inr rfl)
  rw [Db.runStatus?, Db.runStatus?, hrun, hrow] at hfresh
  have hsame : run.status = row.status := Option.some.inj hfresh
  have hdone := (hfinished hcheck).1
  rw [← hsame] at hdone
  revert hdone hallowed
  cases run.status <;> exact nofun

theorem only_worker (hinv : Threaded sys) {job : Job} {m : JobId} (hworks : Works m (sys.workers w))
    (hm : sys.db.jobs[m]? = some job) (hjob : Pipeline r job) (hcheck : job.jobType ≠ .verificationCheck)
    (hk : sys.db.jobs[k]? = some old) (hthread : Pipeline r old) :
    old.status ≠ .pending ∧ old.jobType ≠ .verificationCheck ∧
      ∀ w', Works k (sys.workers w') → w' = w := by
  obtain ⟨hnewest, hclaimed⟩ := hinv.working w m job r hworks hm hjob
  have last (hnewest' : Newest sys.db.jobs (Pipeline r) k) : k = m ∧ old = job := by
    obtain rfl := newest_unique hk hm hthread hjob hnewest' hnewest
    exact ⟨rfl, Option.some.inj (hk.symm.trans hm)⟩
  refine ⟨fun hpending => ?_, fun htype => ?_, fun w' hworks' => ?_⟩
  · obtain ⟨-, rfl⟩ := last (hinv.pending k old r hk hthread hpending)
    exact hclaimed hpending
  · obtain ⟨run, -, hverified⟩ := hinv.run k old r hk hthread
    obtain ⟨-, rfl⟩ := last (hverified htype).2
    exact hcheck htype
  · obtain ⟨rfl, -⟩ := last (hinv.working w' k old r hworks' hk hthread).1
    exact hinv.alone w' w k job r hworks' hworks hm hjob

theorem new_thread_job (hinv : Threaded sys) (hok : OneAtATime settings sys l)
    (h : Step settings sys l sys') (hold : sys.db.jobs[j]? = none)
    (hj : sys'.db.jobs[j]? = some new) (hpipeline : Pipeline r new) :
    (∀ (k : JobId) (old : Job), sys.db.jobs[k]? = some old → Pipeline r old →
      old.status ≠ .pending ∧ old.jobType ≠ .verificationCheck ∧
        ∀ w, ¬ Works k (sys'.workers w)) ∧
      ∃ run, sys'.db.runs[r]? = some run ∧
        (new.jobType = .verificationCheck → finished run.status = true) := by
  obtain ⟨-, hborn⟩ := step_born h hold hj
  have unborn {P : Prop} (hr : sys.db.runs.length = r) {k : JobId} {old : Job}
      (hk : sys.db.jobs[k]? = some old) (hthread : Pipeline r old) : P := by
    obtain ⟨run, hrun, -⟩ := hinv.run k old r hk hthread
    exact absurd (Table.lt_length_of_getElem? hrun) (by rw [hr]; exact Nat.lt_irrefl _)
  have other {run : RunRecord} {t : JobType} (htype : new.jobType = t) (ht : t ≠ .verificationCheck) :
      new.jobType = .verificationCheck → finished run.status = true :=
    fun hcheck => absurd (htype.symm.trans hcheck) ht
  cases hborn with
  | enqueued w world m phase job new txn next hpc hm hout hone =>
    have hstep := step_exec h hpc hm hout
    cases exit_extends (execute_exit hout) hone hpipeline with
    | handover result hr htype hcheck hnext hverify =>
      have hjob : Pipeline r job := ⟨htype, hr⟩
      have hworks : Works m (sys.workers w) := by
        rw [hpc]
        exact .executing phase
      constructor
      · intro k old hk hthread
        obtain ⟨hpending, htype', hworker⟩ := only_worker hinv hworks hm hjob hcheck hk hthread
        refine ⟨hpending, htype', fun w' hworks' => ?_⟩
        rcases step_works h hworks' with hbefore | ⟨locked, hl, -⟩
        · obtain rfl := hworker w' hbefore
          rw [hstep, Runtime.moveWorker_self, hnext] at hworks'
          exact absurd hworks' nofun
        · exact absurd hl nofun
      · obtain ⟨run, hrun, -⟩ := hinv.run m job r hm hjob
        by_cases htype' : new.jobType = .verificationCheck
        · obtain ⟨s, hwrite, hfinished⟩ := hverify htype'
          obtain ⟨row, hrow, hstatus⟩ := commit_writesRun hwrite hrun
          refine ⟨row, ?_, fun _ => by rw [hstatus]; exact hfinished⟩
          rw [hstep]
          exact hrow
        · obtain ⟨row, hrow, -⟩ := step_run h hrun
          exact ⟨row, hrow, fun hcheck => absurd hcheck htype'⟩
    | launch run hr htype hrun hsetup =>
      have hnone := hok.launch w world m phase job r rfl hpc hm htype hr
      obtain ⟨row, hrow, -⟩ := step_run h hrun
      exact ⟨fun k old hk hthread => absurd hthread (hnone k old hk), row, hrow, other hsetup nofun⟩
    | create run hr hruns hsetup =>
      refine ⟨fun k old hk hthread => unborn hr.symm hk hthread, run, ?_, other hsetup nofun⟩
      rw [hstep, Runtime.moveWorker_db, hr]
      exact commit_newRun hruns
  | requested q body seen new hpc hrequested =>
    cases hrequested with
    | startDiscovery | startAnalysis | startHypothesisSession | compileProtocols | stopLoop =>
      exact absurd hpipeline.type nofun
    | startRun spec row cycle hspec hcycle =>
      obtain rfl := Option.some.inj hpipeline.run
      refine ⟨fun k old hk hthread => unborn rfl hk hthread, ?_⟩
      obtain ⟨run, hrun⟩ := respond_newRun h hpc (.inl ⟨spec, rfl⟩) hold hj
      exact ⟨run, hrun, fun hcheck => absurd hcheck nofun⟩
    | retryRun k run hrun hallowed =>
      obtain rfl := Option.some.inj hpipeline.run
      refine ⟨fun k old hk hthread => unborn rfl hk hthread, ?_⟩
      obtain ⟨run, hrun⟩ := respond_newRun h hpc (.inr ⟨k, rfl⟩) hold hj
      exact ⟨run, hrun, fun hcheck => absurd hcheck nofun⟩
    | resumeRun k run hrun hallowed =>
      obtain rfl := Option.some.inj hpipeline.run
      constructor
      · intro m old hm hthread
        obtain ⟨hpending, hworks⟩ := hok.resume q k seen rfl hpc m old hm hthread
        refine ⟨hpending, not_check_of_resume hinv hok hpc hrun hallowed hm hthread, fun w hworks' => ?_⟩
        rcases step_works h hworks' with hbefore | ⟨locked, hl, -⟩
        · exact hworks w hbefore
        · exact absurd hl nofun
      · have hfresh := hok.fresh q k .resume seen rfl hpc (.inr rfl)
        rw [Db.runStatus?, hrun] at hfresh
        obtain ⟨now, hnow, -⟩ := Option.map_eq_some_iff.mp hfresh.symm
        obtain ⟨row, hrow, -⟩ := step_run h hnow
        exact ⟨row, hrow, fun hcheck => absurd hcheck nofun⟩

end Synthetos.Runs
