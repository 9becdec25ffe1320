import Synthetos.Runs.Cancelled

/-!
# Cancellation is final

From its commit on, a quiet cancellation keeps the run cancelled and its jobs finished.
-/

namespace Synthetos.Runs

open Synthetos.Core Storage Lib Worker Api Execution

structure CancelInvariant (settings : Settings) (sys : Runtime) : Prop where
  settled : ∀ r, sys.db.runStatus? r = some .cancelled → Settled settings sys r
  left : ∀ w j container, sys.workers w = .executing j (.left container .cancelled) →
    ∃ job r, sys.db.jobs[j]? = some job ∧ job.payload.runRecordId = some r ∧
      sys.db.runStatus? r = some .cancelled

variable {settings : Settings} {start sys sys' : Runtime} {l : Label} {r : RunId} {j : JobId}
  {q : Nat}

theorem step_obstructs (hok : CancelsQuietly settings sys l) (hsettled : Settled settings sys r)
    (hr : sys.db.runStatus? r = some .cancelled) (h : Step settings sys l sys') :
    ¬ Obstructs sys'.db r (sys'.requests q) := by
  intro hblocked
  replace hblocked : Obstructs sys.db r (sys'.requests q) := by
    refine hblocked.of_old fun j new hj hjr => ?_
    obtain ⟨old, hold, hsame, -⟩ := concerning_old hok hsettled hr h hj hjr
    exact ⟨old, hold, hsame⟩
  by_cases hl : l.request? = some q
  case neg =>
    rw [step_other_request h hl] at hblocked
    exact hsettled.requests q hblocked
  have unfinished {j : JobId} {job row : Job} {P : Prop} (hj : sys.db.jobs[j]? = some job)
      (hjr : Concerns job r) (hrow : sys.db.jobs[j]? = some row)
      (hlive : row.status.terminal = false) : P := by
    obtain rfl := Option.some.inj (hj.symm.trans hrow)
    exact absurd ((hsettled.jobs j job hj hjr).symm.trans hlive) nofun
  cases h with
  | receive q' body hpc =>
    obtain rfl := Option.some.inj hl
    rw [Runtime.moveRequest_requests, if_pos rfl] at hblocked
    cases hblocked with
    | control action _ run hrun hallowed haction =>
      rw [Db.runStatus?, hrun] at hr
      rw [Option.some.inj hr] at hallowed
      rcases haction with rfl | rfl <;> exact absurd hallowed nofun
    | pauseJob j _ row job hj hjr hrow hseen =>
      refine unfinished hj hjr hrow ?_
      rcases hseen with hseen | hseen | hseen <;> rw [hseen] <;> rfl
    | resumeJob j _ row job hj hjr hrow hseen => exact unfinished hj hjr hrow (by rw [hseen]; rfl)
    | resumeGate c _ j job hj hjr hseen =>
      obtain ⟨row, hrow, -, -, hpaused⟩ := pausedLoopJob_row hseen
      exact unfinished hj hjr hrow (by rw [hpaused]; rfl)
  | respond q' | reject q' | drop q' =>
    obtain rfl := Option.some.inj hl
    rw [Runtime.moveRequest_requests, if_pos rfl] at hblocked
    exact absurd hblocked nofun
  | _ => exact absurd hl nofun

theorem settled_step (hok : CancelsQuietly settings sys l) (hsettled : Settled settings sys r)
    (hr : sys.db.runStatus? r = some .cancelled) (h : Step settings sys l sys') :
    Settled settings sys' r where
  jobs := by
    intro j new hj hjr
    obtain ⟨old, hold, hsame, hchange⟩ := concerning_old hok hsettled hr h hj hjr
    exact jobChange_settled hsettled hold ((concerns_iff_of_same hsame).mp hjr) hchange
  workers _ := step_endangers hok hsettled hr h
  requests _ := step_obstructs hok hsettled hr h

theorem cancelled_step (hok : CancelsQuietly settings sys l) (hsettled : Settled settings sys r)
    (hr : sys.db.runStatus? r = some .cancelled) (h : Step settings sys l sys') :
    sys'.db.runStatus? r = some .cancelled := by
  obtain ⟨old, hold, hstatus⟩ := Option.map_eq_some_iff.mp hr
  obtain ⟨new, hnew, -, hchange⟩ := step_run h hold
  rw [hstatus] at hchange
  rw [Db.runStatus?, hnew, Option.map_some, runChange_cancelled hok hsettled hr hchange]

theorem cancels_of_step (hinv : CancelInvariant settings sys) (h : Step settings sys l sys')
    (hbefore : sys.db.runStatus? r ≠ some .cancelled)
    (hafter : sys'.db.runStatus? r = some .cancelled) : ∃ q, l = .respond q ∧ Cancels sys q r := by
  obtain ⟨new, hnew, hstatus⟩ := Option.map_eq_some_iff.mp hafter
  cases hold : sys.db.runs[r]? with
  | none =>
    obtain ⟨-, hborn⟩ := step_runBorn h hold hnew
    exact absurd ((runBorn_status hborn).symm.trans hstatus) nofun
  | some old =>
    have hlive : old.status ≠ .cancelled := by
      intro hcancelled
      rw [Db.runStatus?, hold, Option.map_some, hcancelled] at hbefore
      exact hbefore rfl
    obtain ⟨new', hnew', -, hchange⟩ := step_run h hold
    obtain rfl := Option.some.inj (hnew.symm.trans hnew')
    rw [hstatus] at hchange
    generalize hs : old.status = s at hchange hlive
    generalize ht : RunStatus.cancelled = t at hchange
    cases hchange with
    | kept => exact absurd ht.symm hlive
    | operator w world j phase job txn next _ hpc hj hout hjr hwrite =>
      subst ht
      obtain ⟨-, container, rfl⟩ := exit_writes_cancelled (execute_exit hout) hwrite
      obtain ⟨job', r', hj', hr', hcancelled⟩ := hinv.left w j container hpc
      obtain rfl := Option.some.inj (hj.symm.trans hj')
      obtain rfl := Option.some.inj (hjr.symm.trans hr')
      exact absurd hcancelled hbefore
    | markedFailed => exact absurd ht nofun
    | controlled q action seen run _ hpc hrun hallowed haction =>
      rcases haction with ⟨rfl, -⟩ | ⟨-, hpaused⟩ | ⟨-, hrunning⟩
      · exact ⟨q, rfl, seen, run, hpc, hrun, hallowed⟩
      · exact absurd (ht.trans hpaused) nofun
      · exact absurd (ht.trans hrunning) nofun

theorem settled_of_cancels (hok : CancelsQuietly settings sys (.respond q))
    (hcancels : Cancels sys q r) (h : Step settings sys (.respond q) sys')
    (hafter : sys'.db.runStatus? r = some .cancelled)
    (hbefore : sys.db.runStatus? r ≠ some .cancelled) : Settled settings sys' r := by
  obtain ⟨seen, run, hpc, -, -⟩ := id hcancels
  cases h with
  | reject => exact absurd hafter hbefore
  | respond _ body seen' db hpc' hanswer =>
    obtain ⟨rfl, rfl⟩ := RequestPc.opened.inj (hpc.symm.trans hpc')
    cases hanswer with
    | cancelRun _ run hrun hallowed =>
      have hold : ∀ (j : JobId) (new : Job), (cancelRun sys.db r).jobs[j]? = some new →
          ∃ old, sys.db.jobs[j]? = some old ∧ SameJob old new ∧
            (new.status.terminal = true ∨
              new = old ∧ (old.status.cancellable = false ∨ old.payload.runRecordId ≠ some r)) := by
        intro j new hj
        obtain ⟨old, hold, rfl⟩ := Table.exists_of_getElem?_updateWhere hj
        refine ⟨old, hold, ?_⟩
        split
        · exact ⟨⟨rfl, rfl, rfl⟩, .inl rfl⟩
        · rename_i hno
          simp only [Bool.and_eq_true, beq_iff_eq, not_and_or, Bool.not_eq_true] at hno
          exact ⟨.refl old, .inr ⟨rfl, hno⟩⟩
      have hrows : ∀ (j : JobId) (new : Job), (cancelRun sys.db r).jobs[j]? = some new →
          Concerns new r → ∃ old, sys.db.jobs[j]? = some old ∧ SameJob old new := by
        intro j new hj _
        obtain ⟨old, hold, hsame, -⟩ := hold j new hj
        exact ⟨old, hold, hsame⟩
      constructor
      · intro j new hj hjr
        obtain ⟨old, hold, hsame, hfinished | ⟨rfl, hkept⟩⟩ := hold j new hj
        · exact hfinished
        · rcases hjr with hjr | hjr
          · rcases hkept with hkept | hkept
            · unfold JobStatus.terminal
              rw [hkept]
              rfl
            · exact absurd hjr hkept
          · exact hok.prepared q r rfl hcancels j new hold hjr
      · exact fun w hdanger => hok.workers q r rfl hcancels w (hdanger.of_old hrows)
      · intro q' hblocked
        rw [Runtime.moveRequest_requests] at hblocked
        split at hblocked
        · exact absurd hblocked fun h => by cases h
        · rename_i hother
          exact hok.requests q r rfl hcancels q' hother (hblocked.of_old hrows)

theorem exit_suspend_left {db : Db} {input : OperatorInput} {phase : Phase} {txn : Txn}
    {container : ContainerId}
    (h : Exit db input phase txn (.suspend (.left container .cancelled))) :
    ∃ r, input.payload.runRecordId = some r ∧ db.runStatus? r = some .cancelled := by
  generalize hnext : Core.Next.suspend (.left container .cancelled) = next at h
  cases h with
  | halted container' r run terminal htype hr hrun hstatus =>
    refine ⟨r, hr, ?_⟩
    rcases hstatus with ⟨-, hstatus⟩ | ⟨rfl, -⟩
    · rw [Db.runStatus?, hrun, Option.map_some, hstatus]
    · exact absurd hnext nofun
  | _ => exact absurd hnext nofun

theorem left_step {w : WorkerId} {container : ContainerId}
    (hinv : CancelInvariant settings sys) (hok : CancelsQuietly settings sys l)
    (h : Step settings sys l sys')
    (hpc : sys'.workers w = .executing j (.left container .cancelled)) :
    ∃ job r, sys'.db.jobs[j]? = some job ∧ job.payload.runRecordId = some r ∧
      sys'.db.runStatus? r = some .cancelled := by
  have later {job : Job} {r : RunId} (hj : sys.db.jobs[j]? = some job)
      (hjr : job.payload.runRecordId = some r) (hr : sys.db.runStatus? r = some .cancelled) :
      ∃ job r, sys'.db.jobs[j]? = some job ∧ job.payload.runRecordId = some r ∧
        sys'.db.runStatus? r = some .cancelled := by
    obtain ⟨new, hnew, hsame, -⟩ := step_row h hj
    exact ⟨new, r, hnew, hsame.payload ▸ hjr, cancelled_step hok (hinv.settled r hr) hr h⟩
  have unmoved (hpc : sys.workers w = .executing j (.left container .cancelled)) :
      ∃ job r, sys'.db.jobs[j]? = some job ∧ job.payload.runRecordId = some r ∧
        sys'.db.runStatus? r = some .cancelled := by
    obtain ⟨job, r, hj, hjr, hr⟩ := hinv.left w j container hpc
    exact later hj hjr hr
  by_cases hl : l.worker? = some w
  case neg => exact unmoved (step_other_worker h hl ▸ hpc)
  revert later unmoved
  cases h with
  | heartbeat => exact fun _ unmoved => unmoved hpc
  | exec w' world k phase job txn next hpc' hk hout =>
    obtain rfl := Option.some.inj hl
    rw [Runtime.moveWorker_self] at hpc
    cases next with
    | finish result => exact absurd hpc nofun
    | suspend phase' =>
      obtain ⟨rfl, rfl⟩ := WorkerPc.executing.inj hpc
      obtain ⟨r, hjr, hr⟩ := exit_suspend_left (execute_exit hout)
      exact fun later _ => later hk hjr hr
  | tick | receive | respond | reject | drop => exact absurd hl nofun
  | claim w' | start w' | acknowledge w' | readOutcome w' | readFailure w' | readNoPatch w'
  | readPatch w' | raisePatch w' | writeOutcome w' | readStale w' | writeStale w' | crash w' =>
    obtain rfl := Option.some.inj hl
    rw [Runtime.moveWorker_self] at hpc
    exact absurd hpc nofun

theorem cancelInvariant_step (hinv : CancelInvariant settings sys)
    (hok : CancelsQuietly settings sys l) (h : Step settings sys l sys') :
    CancelInvariant settings sys' where
  settled := by
    intro r hafter
    by_cases hbefore : sys.db.runStatus? r = some .cancelled
    · exact settled_step hok (hinv.settled r hbefore) hbefore h
    · obtain ⟨q, rfl, hcancels⟩ := cancels_of_step hinv h hbefore hafter
      exact settled_of_cancels hok hcancels h hafter hbefore
  left _ _ _ hpc := left_step hinv hok h hpc

theorem cancelInvariant_run (hstart : start.Initial)
    (h : Reaches (CancelsQuietly settings) (Runtime.step settings) start sys) :
    CancelInvariant settings sys := by
  refine h.invariant _ (fun _ _ _ hinv hok hstep => cancelInvariant_step hinv hok (step_cases hstep)) ?_
  constructor
  · intro r hr
    rw [Db.runStatus?, hstart.runs] at hr
    exact absurd hr nofun
  · intro w j container hpc
    rw [hstart.workers] at hpc
    exact absurd hpc nofun

/-- When runs are cancelled quietly, a cancelled run stays cancelled, its jobs are finished, and an
operator at work on it never starts a container. -/
theorem cancel_is_final {settings : Settings} {start sys later : Runtime} {r : RunId}
    (hstart : start.Initial)
    (hrun : Reaches (CancelsQuietly settings) (Runtime.step settings) start sys)
    (hr : sys.db.runStatus? r = some .cancelled)
    (hlater : Reaches (CancelsQuietly settings) (Runtime.step settings) sys later) :
    later.db.runStatus? r = some .cancelled ∧
      (∀ (j : JobId) (job : Job), later.db.jobs[j]? = some job → Concerns job r →
        job.status.terminal = true) ∧
      ∀ w j phase (job : Job), later.workers w = .executing j phase →
        later.db.jobs[j]? = some job → Concerns job r → Watching job r phase := by
  have hstatus : later.db.runStatus? r = some .cancelled := by
    induction hlater with
    | refl => exact hr
    | tail hmid hnext ih =>
      obtain ⟨l, hok, hstep⟩ := hnext
      have hinv := cancelInvariant_run hstart (hrun.trans hmid)
      exact cancelled_step hok (hinv.settled r ih) ih (step_cases hstep)
  have hsettled := (cancelInvariant_run hstart (hrun.trans hlater)).settled r hstatus
  refine ⟨hstatus, hsettled.jobs, fun w j phase job hpc hj hjr => ?_⟩
  by_contra hno
  refine hsettled.workers w ?_
  rw [hpc]
  exact .executing j phase job hj hjr hno

/-- Nothing concerning a prepared run, and worker 0 polls a run or does nothing. -/
def pollsAtMost (sys : Runtime) : Bool :=
  sys.db.jobs.all (fun job => job.payload.preparedRunRecordId == none) &&
    match sys.workers 0 with
    | .idle => true
    | .executing j (.polling _) => sys.db.jobs[j]?.any fun job => job.jobType == .executionRun
    | _ => false

def longRunning : Label → Bool
  | .exec _ world =>
    match world.controlContainer, world.observation with
    | .ok (), .ok .stillRunning => true
    | _, _ => false
  | _ => true

def cancelsPolling (sys : Runtime) (l : Label) : Bool :=
  sys.single l && longRunning l && (l.request? == none || pollsAtMost sys)

theorem longRunning_exec {w : WorkerId} {world : External} (h : longRunning (.exec w world) = true) :
    world.controlContainer = .ok () ∧ world.observation = .ok .stillRunning := by
  unfold longRunning at h
  dsimp only at h
  split at h
  · exact ⟨‹_›, ‹_›⟩
  · exact absurd h nofun

theorem not_endangers_of_polls (hsolo : sys.Solo) (h : pollsAtMost sys = true) (w : WorkerId) :
    ¬ Endangers settings sys.db r (sys.workers w) := by
  unfold pollsAtMost at h
  rw [Bool.and_eq_true, List.all_eq_true] at h
  obtain ⟨hprepared, hpolls⟩ := h
  by_cases hw : w = 0
  case neg =>
    rw [hsolo.workers w hw]
    exact nofun
  subst hw
  intro hdanger
  split at hpolls
  · rename_i hpc
    rw [hpc] at hdanger
    exact absurd hdanger nofun
  · rename_i j container hpc
    rw [hpc] at hdanger
    obtain ⟨row, hrow, htype⟩ := (Option.any_eq_true _ _).mp hpolls
    cases hdanger with
    | executing _ _ job hj hr hphase =>
      obtain rfl := Option.some.inj (hrow.symm.trans hj)
      refine hphase ⟨by simpa using htype, ?_, container, .inl rfl⟩
      rcases hr with hr | hr
      · exact hr
      · have hnone := hprepared row (List.mem_of_getElem? hj)
        rw [hr] at hnone
        exact absurd hnone nofun
  · exact absurd hpolls nofun

theorem cancelsQuietly_of_polling (hsolo : sys.Solo) (h : cancelsPolling sys l = true) :
    CancelsQuietly settings sys l := by
  unfold cancelsPolling at h
  rw [Bool.and_eq_true, Bool.and_eq_true] at h
  obtain ⟨⟨hsingle, hrunning⟩, hpolls⟩ := h
  have polls {q : Nat} (hl : l = .respond q) : pollsAtMost sys = true := by
    subst hl
    simpa [Label.request?] using hpolls
  constructor
  · exact fun q r hl _ => not_endangers_of_polls hsolo (polls hl)
  · rintro q r rfl - q' hother
    have hq : q = 0 := by simpa [Runtime.single, Label.request?, Label.worker?] using hsingle
    rw [hsolo.requests q' (hq ▸ hother)]
    exact (fun h => by cases h)
  · rintro q r hl - j job hj hjr
    have hprepared := polls hl
    unfold pollsAtMost at hprepared
    rw [Bool.and_eq_true, List.all_eq_true] at hprepared
    have hnone := hprepared.1 job (List.mem_of_getElem? hj)
    rw [hjr] at hnone
    exact absurd hnone fun h => by cases h
  · rintro w world j container job r rfl - - - -
    exact (longRunning_exec hrunning).1
  · rintro w world j container job r rfl - - - -
    exact (longRunning_exec hrunning).2

def stillRunning : External := { observation := .ok .stillRunning }

/-- Worker 0 has finished job `j`. -/
def released (sys : Runtime) (j : JobId) : Bool :=
  sys.workerIdle && sys.db.jobStatus? j == some .cancelled

/-- A run is cancelled while its container is polled. -/
theorem cancel_is_final_polling : ∃ sys later : Runtime,
    Reaches (CancelsQuietly {}) (Runtime.step {}) Runtime.compiledCycle sys ∧
      sys.db.runStatus? 0 = some .cancelled ∧
      Reaches (CancelsQuietly {}) (Runtime.step {}) sys later ∧ released later 1 = true ∧
      later.db.runStatus? 0 = some .cancelled := by
  have hguard : ∀ sys l, Runtime.Solo sys → cancelsPolling sys l = true →
      CancelsQuietly {} sys l := fun _ _ hsolo h => cancelsQuietly_of_polling hsolo h
  have hsolo : ∀ sys l sys', Runtime.Solo sys → cancelsPolling sys l = true →
      Runtime.step {} sys l = some sys' → Runtime.Solo sys' := by
    intro sys l sys' hsolo h hstep
    unfold cancelsPolling at h
    rw [Bool.and_eq_true, Bool.and_eq_true] at h
    exact hsolo.step h.1.1 hstep
  obtain ⟨sys, hrun, hmid, htest⟩ := Reaches.of_perform_any Runtime.Solo hguard hsolo
    (.of_initial Runtime.compiledCycle_initial)
    (show (perform cancelsPolling (Runtime.step {}) Runtime.compiledCycle
      [.receive 0 (.startRun 0), .respond 0, .claim 0 [], .start 0, .exec 0 stillRunning,
        .readOutcome 0, .readTarget 0, .writeOutcome 0, .claim 0 [], .start 0,
        .exec 0 stillRunning, .exec 0 stillRunning, .exec 0 stillRunning, .exec 0 stillRunning,
        .receive 0 (.controlRun 0 .cancel), .respond 0]).any
      (fun sys => sys.db.runStatus? 0 == some .cancelled &&
        (perform cancelsPolling (Runtime.step {}) sys
          [.exec 0 stillRunning, .exec 0 stillRunning, .readOutcome 0]).any fun later =>
            released later 1) = true by decide +kernel)
  rw [Bool.and_eq_true] at htest
  obtain ⟨hstatus, htest⟩ := htest
  have hcancelled : sys.db.runStatus? 0 = some .cancelled := by simpa using hstatus
  obtain ⟨later, hlater, -, hreleased⟩ := Reaches.of_perform_any Runtime.Solo hguard hsolo hmid htest
  exact ⟨sys, later, hrun, hcancelled, hlater, hreleased,
    (cancel_is_final Runtime.compiledCycle_initial hrun hcancelled hlater).1⟩

/-- Worker 0 polls the container of job `j`. -/
def pollsJob (sys : Runtime) (j : JobId) : Bool :=
  match sys.workers 0 with
  | .executing k (.polling _) => j == k
  | _ => false

/-- The run is cancelled between the claim and the start of its setup job; the pipeline goes on
and starts a container. -/
theorem cancelled_run_revived : ∃ sys later : Runtime, Runtime.compiledCycle.Initial ∧
    Reaches Unguarded (Runtime.step {}) Runtime.compiledCycle sys ∧
      sys.db.runStatus? 0 = some .cancelled ∧
      Reaches Unguarded (Runtime.step {}) sys later ∧
      later.db.runStatus? 0 = some .running ∧ pollsJob later 1 = true := by
  obtain ⟨sys, hrun, htest⟩ := Runtime.run_of_anyone
    (show (perform Runtime.anyone (Runtime.step {}) Runtime.compiledCycle
      [.receive 0 (.startRun 0), .respond 0, .claim 0 [], .receive 0 (.controlRun 0 .cancel),
        .respond 0]).any
      (fun sys => sys.db.runStatus? 0 == some .cancelled &&
        (perform Runtime.anyone (Runtime.step {}) sys
          [.start 0, .exec 0 {}, .readOutcome 0, .readTarget 0, .writeOutcome 0, .claim 0 [],
            .start 0, .exec 0 {}, .exec 0 {}]).any fun later =>
            later.db.runStatus? 0 == some .running && pollsJob later 1) = true by decide +kernel)
  rw [Bool.and_eq_true] at htest
  obtain ⟨later, hlater, hend⟩ := Runtime.run_of_anyone htest.2
  rw [Bool.and_eq_true] at hend
  exact ⟨sys, later, Runtime.compiledCycle_initial, hrun, by simpa using htest.1, hlater,
    by simpa using hend.1, hend.2⟩

end Synthetos.Runs
