import Synthetos.Runs.NextJob

/-!
# One pipeline thread per run
-/

namespace Synthetos.Runs

open Synthetos.Core Storage Lib Worker Api Jobs

/-- The job has work left to do: it waits, is worked on, or is unfinished and was not yet followed
by another job of the run. -/
def Active (sys : Runtime) (r : RunId) (j : JobId) : Prop :=
  ∃ job, sys.db.jobs[j]? = some job ∧ Pipeline r job ∧
    (job.status = .pending ∨ (∃ w, Works j (sys.workers w)) ∨
      (job.status.terminal = false ∧ Newest sys.db.jobs (Pipeline r) j))

variable {settings : Settings} {start sys sys' : Runtime} {l : Label} {r : RunId} {j : JobId}
  {old new : Job} {w : WorkerId}

theorem threaded_pending (hinv : Threaded sys) (hok : OneAtATime settings sys l)
    (h : Step settings sys l sys') (hj : sys'.db.jobs[j]? = some new) (hpipeline : Pipeline r new)
    (hstatus : new.status = .pending) : Newest sys'.db.jobs (Pipeline r) j := by
  rcases step_job h hj with ⟨old, hold, hsame, hchange⟩ | ⟨hnone, -⟩
  · have hthread := (pipeline_fixed r old new hsame).mp hpipeline
    rcases jobChange_pending hchange hstatus with hpending | hreturns
    · refine newest_step (pipeline_fixed r) h (hinv.pending j old r hold hthread hpending) ?_
      intro new' hnew' hborn hthread'
      have hnone := List.getElem?_eq_none (Nat.le_refl sys.db.jobs.length)
      exact ((new_thread_job hinv hok h hnone hnew' hthread').1 j old hold hthread).1 hpending
    · refine newest_step (pipeline_fixed r) h (hok.requeue j old r hreturns hold hthread).1 ?_
      exact fun new' _ hborn => absurd hreturns (not_returns_of_born hborn)
  · exact newest_born h hnone hj

theorem works_old (hinv : Threaded sys) (h : Step settings sys l sys')
    (hw : Works j (sys'.workers w)) :
    ∃ old, sys.db.jobs[j]? = some old ∧
      (Works j (sys.workers w) ∨
        ∃ locked, l = .claim w locked ∧ old.status = .pending ∧ sys'.db = claimJob sys.db j w) := by
  rcases step_works h hw with hbefore | ⟨locked, hl, hnext, hdb⟩
  · obtain ⟨old, hold⟩ := hinv.rows w j hbefore
    exact ⟨old, hold, .inl hbefore⟩
  · obtain ⟨old, hold, hpending⟩ := nextJob_pending _ _ hnext
    exact ⟨old, hold, .inr ⟨locked, hl, hpending, hdb⟩⟩

theorem threaded_working (hinv : Threaded sys) (hok : OneAtATime settings sys l)
    (h : Step settings sys l sys') (hw : Works j (sys'.workers w))
    (hj : sys'.db.jobs[j]? = some new) (hpipeline : Pipeline r new) :
    Newest sys'.db.jobs (Pipeline r) j ∧ new.status ≠ .pending := by
  obtain ⟨old, hold, hbefore⟩ := works_old hinv h hw
  obtain ⟨row, hrow, hsame, hchange⟩ := step_row h hold
  obtain rfl := Option.some.inj (hj.symm.trans hrow)
  have hthread := (pipeline_fixed r old new hsame).mp hpipeline
  have kept (hnewest : Newest sys.db.jobs (Pipeline r) j) : Newest sys'.db.jobs (Pipeline r) j := by
    refine newest_step (pipeline_fixed r) h hnewest ?_
    intro new' hnew' hborn hthread'
    have hnone := List.getElem?_eq_none (Nat.le_refl sys.db.jobs.length)
    exact ((new_thread_job hinv hok h hnone hnew' hthread').1 j old hold hthread).2.2 w hw
  rcases hbefore with hbefore | ⟨locked, rfl, hpending, hdb⟩
  · obtain ⟨hnewest, hclaimed⟩ := hinv.working w j old r hbefore hold hthread
    refine ⟨kept hnewest, fun hstatus => ?_⟩
    rcases jobChange_pending hchange hstatus with hpending | hreturns
    · exact hclaimed hpending
    · exact (hok.requeue j old r hreturns hold hthread).2 w hbefore
  · refine ⟨kept (hinv.pending j old r hold hthread hpending), ?_⟩
    rw [hdb, claimJob, updateJob_jobs, Table.getElem?_update_self, hold] at hj
    obtain rfl := Option.some.inj hj
    exact (fun h => by cases h)

theorem threaded_alone {w' : WorkerId} (hinv : Threaded sys) (h : Step settings sys l sys')
    (hw : Works j (sys'.workers w)) (hw' : Works j (sys'.workers w'))
    (hj : sys'.db.jobs[j]? = some new) (hpipeline : Pipeline r new) : w = w' := by
  obtain ⟨old, hold, hbefore⟩ := works_old hinv h hw
  obtain ⟨row', hrow', hbefore'⟩ := works_old hinv h hw'
  obtain rfl := Option.some.inj (hold.symm.trans hrow')
  obtain ⟨row, hrow, hsame, -⟩ := step_row h hold
  obtain rfl := Option.some.inj (hj.symm.trans hrow)
  have hthread := (pipeline_fixed r old new hsame).mp hpipeline
  rcases hbefore with hbefore | ⟨locked, hl, hpending, -⟩
  · rcases hbefore' with hbefore' | ⟨locked', -, hpending, -⟩
    · exact hinv.alone w w' j old r hbefore hbefore' hold hthread
    · exact absurd hpending (hinv.working w j old r hbefore hold hthread).2
  · rcases hbefore' with hbefore' | ⟨locked', hl', -⟩
    · exact absurd hpending (hinv.working w' j old r hbefore' hold hthread).2
    · exact (Label.claim.inj (hl.symm.trans hl')).1

theorem runChange_finished {s t : RunStatus} (hinv : Threaded sys) (hok : OneAtATime settings sys l)
    (h : RunChange sys r s l t) (hr : sys.db.runStatus? r = some s) (hs : finished s = true)
    (hj : sys.db.jobs[j]? = some old) (hpipeline : Pipeline r old)
    (hcheck : old.jobType = .verificationCheck) : finished t = true := by
  cases h with
  | kept => exact hs
  | operator w world m phase job txn next _ hpc hm hout hmr hwrite =>
    obtain ⟨hrun, htype, hnot⟩ := exit_writer (execute_exit hout) hwrite
    have hworks : Works m (sys.workers w) := by
      rw [hpc]
      exact .executing phase
    exact absurd hcheck (only_worker hinv hworks hm ⟨htype, hrun⟩ hnot hj hpipeline).2.1
  | markedFailed => rfl
  | controlled q action seen run _ hpc hrun hallowed haction =>
    have current (haction : action = .pause ∨ action = .resume) : finished run.status = true := by
      have hfresh := hok.fresh q r action seen rfl hpc haction
      rw [Db.runStatus?, hrun, hr] at hfresh
      rw [show run.status = s from Option.some.inj hfresh, hs]
    rcases haction with ⟨-, rfl⟩ | ⟨rfl, rfl⟩ | ⟨rfl, rfl⟩
    · rfl
    · have hdone := current (.inl rfl)
      revert hdone hallowed
      cases run.status <;> rintro ⟨⟩ ⟨⟩
    · have hdone := current (.inr rfl)
      revert hdone hallowed
      cases run.status <;> rintro ⟨⟩ ⟨⟩

theorem threaded_run (hinv : Threaded sys) (hok : OneAtATime settings sys l)
    (h : Step settings sys l sys') (hj : sys'.db.jobs[j]? = some new) (hpipeline : Pipeline r new) :
    ∃ run, sys'.db.runs[r]? = some run ∧ (new.jobType = .verificationCheck →
      finished run.status = true ∧ Newest sys'.db.jobs (Pipeline r) j) := by
  rcases step_job h hj with ⟨old, hold, hsame, -⟩ | ⟨hnone, -⟩
  · have hthread := (pipeline_fixed r old new hsame).mp hpipeline
    obtain ⟨run, hrun, hverified⟩ := hinv.run j old r hold hthread
    obtain ⟨row, hrow, -, hchange⟩ := step_run h hrun
    refine ⟨row, hrow, fun hcheck => ?_⟩
    rw [hsame.type] at hcheck
    obtain ⟨hfinished, hnewest⟩ := hverified hcheck
    have hr : sys.db.runStatus? r = some run.status := by rw [Db.runStatus?, hrun, Option.map_some]
    refine ⟨runChange_finished hinv hok hchange hr hfinished hold hthread hcheck, ?_⟩
    refine newest_step (pipeline_fixed r) h hnewest fun new' hnew' hborn hthread' => ?_
    have hnone := List.getElem?_eq_none (Nat.le_refl sys.db.jobs.length)
    exact ((new_thread_job hinv hok h hnone hnew' hthread').1 j old hold hthread).2.1 hcheck
  · obtain ⟨-, run, hrun, hfinished⟩ := new_thread_job hinv hok h hnone hj hpipeline
    exact ⟨run, hrun, fun hcheck => ⟨hfinished hcheck, newest_born h hnone hj⟩⟩

theorem threaded_step (hinv : Threaded sys) (hok : OneAtATime settings sys l)
    (h : Step settings sys l sys') : Threaded sys' where
  rows := by
    intro w j hw
    obtain ⟨old, hold, -⟩ := works_old hinv h hw
    obtain ⟨new, hnew, -⟩ := step_row h hold
    exact ⟨new, hnew⟩
  pending _ _ _ hj hpipeline hstatus := threaded_pending hinv hok h hj hpipeline hstatus
  working _ _ _ _ hw hj hpipeline := threaded_working hinv hok h hw hj hpipeline
  alone _ _ _ _ _ hw hw' hj hpipeline := threaded_alone hinv h hw hw' hj hpipeline
  run _ _ _ hj hpipeline := threaded_run hinv hok h hj hpipeline

theorem threaded_reached (hstart : start.Initial)
    (h : Reaches (OneAtATime settings) (Runtime.step settings) start sys) : Threaded sys := by
  refine h.invariant Threaded (fun _ _ _ hinv hok hstep => threaded_step hinv hok (step_cases hstep)) ?_
  have nojob {j : JobId} {job : Job} {P : Prop} (hj : start.db.jobs[j]? = some job) : P := by
    rw [hstart.jobs] at hj
    exact absurd hj nofun
  have idle {w : WorkerId} {j : JobId} {P : Prop} (hw : Works j (start.workers w)) : P := by
    rw [hstart.workers] at hw
    exact absurd hw nofun
  constructor
  · exact fun w j hw => idle hw
  · exact fun j job r hj _ _ => nojob hj
  · exact fun w j job r hw _ _ => idle hw
  · exact fun w w' j job r hw _ _ _ => idle hw
  · exact fun j job r hj _ => nojob hj

/-- When jobs are added to the pipeline of a run one at a time, at most one of them has work to do,
at most one worker is at work on them, and at most one verifies the run. -/
theorem one_thread_per_run {settings : Settings} {start sys : Runtime} (hstart : start.Initial)
    (hrun : Reaches (OneAtATime settings) (Runtime.step settings) start sys) (r : RunId) :
    (∀ j k, Active sys r j → Active sys r k → j = k) ∧
      (∀ w w' j k (job row : Job), Works j (sys.workers w) → Works k (sys.workers w') →
        sys.db.jobs[j]? = some job → sys.db.jobs[k]? = some row → Pipeline r job → Pipeline r row →
          w = w') ∧
      ∀ (j k : JobId) (job row : Job), sys.db.jobs[j]? = some job → sys.db.jobs[k]? = some row →
        Pipeline r job → Pipeline r row → job.jobType = .verificationCheck →
          row.jobType = .verificationCheck → j = k := by
  have hinv := threaded_reached hstart hrun
  refine ⟨?_, ?_, ?_⟩
  · have last {j : JobId} (hactive : Active sys r j) : ∃ job, sys.db.jobs[j]? = some job ∧
        Pipeline r job ∧ Newest sys.db.jobs (Pipeline r) j := by
      obtain ⟨job, hj, hjob, hpending | ⟨w, hworks⟩ | ⟨-, hnewest⟩⟩ := hactive
      · exact ⟨job, hj, hjob, hinv.pending j job r hj hjob hpending⟩
      · exact ⟨job, hj, hjob, (hinv.working w j job r hworks hj hjob).1⟩
      · exact ⟨job, hj, hjob, hnewest⟩
    intro j k hactive hactive'
    obtain ⟨job, hj, hjob, hnewest⟩ := last hactive
    obtain ⟨row, hk, hrow, hnewest'⟩ := last hactive'
    exact newest_unique hj hk hjob hrow hnewest hnewest'
  · intro w w' j k job row hworks hworks' hj hk hjob hrow
    obtain ⟨hnewest, -⟩ := hinv.working w j job r hworks hj hjob
    obtain ⟨hnewest', -⟩ := hinv.working w' k row r hworks' hk hrow
    obtain rfl := newest_unique hj hk hjob hrow hnewest hnewest'
    exact hinv.alone w w' j job r hworks hworks' hj hjob
  · intro j k job row hj hk hjob hrow hcheck hcheck'
    obtain ⟨run, -, hverified⟩ := hinv.run j job r hj hjob
    obtain ⟨run', -, hverified'⟩ := hinv.run k row r hk hrow
    exact newest_unique hj hk hjob hrow (hverified hcheck).2 (hverified' hcheck').2

def workedByPair (sys : Runtime) (j : JobId) : Bool :=
  [0, 1].any fun w =>
    match sys.workers w with
    | .claimed k | .executing k _ => k == j
    | _ => false

/-- No job of run `r` waits or is worked on. -/
def restsNow (sys : Runtime) (r : RunId) : Bool :=
  sys.db.jobs.zipIdx.all fun (job, j) =>
    job.payload.runRecordId != some r || (job.status != .pending && !workedByPair sys j)

/-- Workers 0 and 1 take steps; a run is paused in the status the request has read and resumed at
rest, no job is returned to the queue and no prepared run is launched. -/
def inTurn (sys : Runtime) (l : Label) : Bool :=
  l.worker?.all (· < 2) &&
    match l with
    | .respond q =>
      match sys.requests q with
      | .opened (.startRun _) _ => true
      | .opened (.controlRun r action) seen =>
        seen.runStatus? r == sys.db.runStatus? r && (action != .resume || restsNow sys r)
      | _ => false
    | .exec _ _ => sys.db.jobs.all fun job => job.payload.preparedRunRecordId == none
    | .writeStale _ => false
    | _ => true

theorem works_of_pair (hpair : sys.PairOnly) (hworks : Works j (sys.workers w)) :
    workedByPair sys j = true := by
  rw [workedByPair, List.any_eq_true]
  refine ⟨w, ?_, ?_⟩
  · match w with
    | 0 | 1 => simp
    | w + 2 =>
      rw [hpair (w + 2) (Nat.le_add_left 2 w)] at hworks
      exact absurd hworks nofun
  · generalize sys.workers w = pc at hworks
    cases hworks <;> exact beq_self_eq_true j

theorem rests_of_restsNow (hpair : sys.PairOnly) (h : restsNow sys r = true) {job : Job}
    (hj : sys.db.jobs[j]? = some job) (hjob : Pipeline r job) :
    job.status ≠ .pending ∧ ∀ w, ¬ Works j (sys.workers w) := by
  have hmem : (job, j) ∈ sys.db.jobs.zipIdx := List.mk_mem_zipIdx_iff_getElem?.mpr hj
  have hrests := List.all_eq_true.mp h (job, j) hmem
  simp only [hjob.run, bne_self_eq_false, Bool.false_or, Bool.and_eq_true, bne_iff_ne,
    Bool.not_eq_true'] at hrests
  refine ⟨hrests.1, fun w hworks => ?_⟩
  rw [works_of_pair hpair hworks] at hrests
  exact absurd hrests.2 nofun

theorem oneAtATime_of_inTurn (hpair : sys.PairOnly) (h : inTurn sys l = true) :
    OneAtATime settings sys l := by
  unfold inTurn at h
  rw [Bool.and_eq_true] at h
  replace h := h.2
  constructor
  · rintro q r action seen rfl hpc -
    simp only [hpc, Bool.and_eq_true, beq_iff_eq] at h
    exact h.1
  · rintro q r seen rfl hpc j job hj hjob
    simp only [hpc, Bool.and_eq_true, bne_self_eq_false, Bool.false_or] at h
    exact rests_of_restsNow hpair h.2 hj hjob
  · intro j job r hreturns
    cases hreturns with
    | reclaim => exact absurd h Bool.false_ne_true
    | resumeJob q seen row hpc | resumeGate q seen c hpc =>
      simp only [hpc, Bool.false_eq_true] at h
  · rintro w world j phase job r rfl - hj - hr
    have hnone := List.all_eq_true.mp h job (List.mem_of_getElem? hj)
    rw [hr] at hnone
    exact absurd hnone Bool.false_ne_true

/-- Worker `w` executes job `j`, an `execution_run` of run `r`. -/
def runsContainer (sys : Runtime) (r : RunId) (w : WorkerId) (j : JobId) : Bool :=
  (sys.db.jobs[j]?.any fun job =>
      job.jobType == .executionRun && job.payload.runRecordId == some r) &&
    match sys.workers w with
    | .executing k (.polling _) => j == k
    | _ => false

theorem works_of_runsContainer (h : runsContainer sys r w j = true) :
    Works j (sys.workers w) ∧ ∃ job, sys.db.jobs[j]? = some job ∧ Pipeline r job := by
  unfold runsContainer at h
  rw [Bool.and_eq_true, Option.any_eq_true] at h
  obtain ⟨⟨job, hj, hjob⟩, hworks⟩ := h
  rw [Bool.and_eq_true, beq_iff_eq, beq_iff_eq] at hjob
  refine ⟨?_, job, hj, by rw [hjob.1]; rfl, hjob.2⟩
  split at hworks
  · rename_i k container hpc
    obtain rfl := beq_iff_eq.mp hworks
    rw [hpc]
    exact .executing _
  · exact absurd hworks nofun

/-- The labels that take job 0 through its operator and its outcome. -/
def finishSetup : List Label :=
  [.receive 0 (.startRun 0), .respond 0, .claim 0 [], .start 0, .exec 0 {}, .readOutcome 0,
    .readTarget 0, .writeOutcome 0]

/-- Two runs are set up and executed by two workers; one is paused, leaves its container, and is
resumed. -/
def pausedAndResumed : List Label :=
  [.receive 0 (.startRun 0), .respond 0, .receive 1 (.startRun 1), .respond 1,
    .claim 0 [], .claim 1 [], .start 1, .start 0, .exec 0 {}, .readOutcome 0, .exec 1 {},
    .readTarget 0, .readOutcome 1, .writeOutcome 0, .readTarget 1, .writeOutcome 1,
    .claim 0 [], .claim 1 [], .start 0, .start 1, .exec 0 {}, .exec 0 {}, .exec 1 {}, .exec 1 {},
    .receive 0 (.controlRun 0 .pause), .respond 0, .exec 0 {}, .exec 0 {}, .readOutcome 0,
    .readTarget 0, .writeOutcome 0, .receive 0 (.controlRun 0 .resume), .respond 0,
    .claim 0 [], .start 0, .exec 0 {}, .exec 0 {}]

theorem one_thread_per_run_resumed : ∃ sys : Runtime,
    Reaches (OneAtATime {}) (Runtime.step {}) Runtime.twoSpecs sys ∧
      runsContainer sys 0 0 4 = true ∧ runsContainer sys 1 1 3 = true ∧
      ∀ r j k, Active sys r j → Active sys r k → j = k := by
  obtain ⟨sys, hrun, -, htest⟩ := Reaches.of_perform_any Runtime.PairOnly
    (fun _ _ hpair h => oneAtATime_of_inTurn hpair h)
    (fun _ _ _ hpair h hstep => hpair.step (Bool.and_eq_true_iff.mp h).1 hstep)
    (fun w _ => Runtime.twoSpecs_initial.workers w)
    (show (perform inTurn (Runtime.step {}) Runtime.twoSpecs pausedAndResumed).any
      (fun sys => runsContainer sys 0 0 4 && runsContainer sys 1 1 3) = true by decide +kernel)
  rw [Bool.and_eq_true] at htest
  exact ⟨sys, hrun, htest.1, htest.2,
    fun r => (one_thread_per_run Runtime.twoSpecs_initial hrun r).1⟩

/-- A run is paused and resumed before its operator polls again: two workers execute it. -/
theorem resumed_run_forks : ∃ sys : Runtime, Runtime.compiledCycle.Initial ∧
    Reaches Unguarded (Runtime.step {}) Runtime.compiledCycle sys ∧
      runsContainer sys 0 0 1 = true ∧ runsContainer sys 0 1 2 = true ∧
      Active sys 0 1 ∧ Active sys 0 2 := by
  obtain ⟨sys, hrun, htest⟩ := Runtime.run_of_anyone
    (show (perform Runtime.anyone (Runtime.step {}) Runtime.compiledCycle
      (finishSetup ++ [.claim 0 [], .start 0, .exec 0 {}, .exec 0 {},
        .receive 0 (.controlRun 0 .pause), .respond 0, .receive 0 (.controlRun 0 .resume),
        .respond 0, .claim 1 [], .start 1, .exec 1 {}, .exec 1 {}])).any
      (fun sys => runsContainer sys 0 0 1 && runsContainer sys 0 1 2) = true by decide +kernel)
  rw [Bool.and_eq_true] at htest
  obtain ⟨hworks, job, hj, hjob⟩ := works_of_runsContainer htest.1
  obtain ⟨hworks', row, hk, hrow⟩ := works_of_runsContainer htest.2
  exact ⟨sys, Runtime.compiledCycle_initial, hrun, htest.1, htest.2,
    ⟨job, hj, hjob, .inr (.inl ⟨0, hworks⟩)⟩, row, hk, hrow, .inr (.inl ⟨1, hworks'⟩)⟩

end Synthetos.Runs
