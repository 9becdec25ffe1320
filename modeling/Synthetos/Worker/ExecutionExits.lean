import Synthetos.Worker.Exits

/-!
# Exits of the execution, verification and remediation operators
-/

namespace Synthetos.Worker

open Synthetos.Core Storage Lib Autonomy Execution Protocols Remediation Verification

variable {db : Db} {input : OperatorInput} {phase : Phase} {world : External} {txn : Txn}
  {next : Next} {r : RunId} {run : RunRecord}

theorem loadRunRecord_eq_ok (h : loadRunRecord db r = .ok run) : db.runs[r]? = some run := by
  unfold loadRunRecord at h
  split at h
  · rename_i found
    rw [found, Except.ok.inj h]
  · exact absurd h nofun

theorem loadExperimentSpec_eq_ok {s : SpecId} {spec : ExperimentSpec}
    (h : loadExperimentSpec db s = .ok spec) : db.specs[s]? = some spec := by
  unfold loadExperimentSpec at h
  split at h
  · rename_i found
    rw [found, Except.ok.inj h]
  · exact absurd h nofun

theorem exit_rejectWith (message : String) (h : rejectWith message = (txn, next)) :
    Exit db input phase txn next := by
  obtain ⟨rfl, rfl⟩ := Prod.mk.inj h
  exact .rejected phase message

theorem sameRun_markFailed (now : Timestamp) (failureClass error : String) (run : RunRecord) :
    SameRun run (markFailed now failureClass error run) := ⟨rfl, rfl, rfl, rfl, rfl⟩

theorem exit_failRun {f : RunRecord → RunRecord} {message : String}
    (htype : input.jobType = .executionSetup ∨ input.jobType = .executionRun)
    (hphase : input.jobType = .executionRun → ∀ container terminal, phase ≠ .left container terminal)
    (hr : input.payload.runRecordId = some r)
    (hf : ∀ run, SameRun run (f run) ∧ (f run).status = .failed)
    (h : failRun r f message = (txn, next)) : Exit db input phase txn next := by
  obtain ⟨rfl, rfl⟩ := Prod.mk.inj h
  exact .runFailed phase _ r message htype hphase hr ⟨rfl, rfl, rfl⟩ ⟨f, rfl, hf⟩

theorem setupFailed_exit {prepared : RunRecord → RunRecord} {message : String}
    (htype : input.jobType = .executionSetup) (hr : input.payload.runRecordId = some r)
    (h : setupFailed db r prepared message = (txn, next))
    (hsame : ∀ run, SameRun run (prepared run)) : Exit db input phase txn next :=
  exit_failRun (.inl htype) (fun hrun => absurd (htype.symm.trans hrun) nofun) hr
    (fun run => ⟨(hsame run).trans (sameRun_markFailed _ _ _ _), rfl⟩) h

theorem setupReady_exit {workspace : String} {events : List DomainEvent}
    (htype : input.jobType = .executionSetup) (hr : input.payload.runRecordId = some r)
    (hrun : db.runs[r]? = some run) (h : setupReady db r run workspace events = (txn, next)) :
    Exit db input phase txn next := by
  obtain ⟨rfl, rfl⟩ := Prod.mk.inj h
  exact .setupReady phase _ r run htype hr hrun ⟨rfl, rfl, rfl⟩
    ⟨_, rfl, fun _ => ⟨⟨rfl, rfl, rfl, rfl, rfl⟩, rfl⟩⟩

theorem executionSetup_exit (htype : input.jobType = .executionSetup)
    (h : executionSetupOperator db input world = .ok (txn, next)) :
    Exit db input phase txn next := by
  unfold executionSetupOperator at h
  split at h
  · rename_i r hr
    obtain ⟨run, hrun, h⟩ := bind_eq_ok.mp h
    replace hrun := loadRunRecord_eq_ok hrun
    split at h
    · split at h
      · exact setupFailed_exit htype hr (pure_eq_ok.mp h) (fun _ => ⟨rfl, rfl, rfl, rfl, rfl⟩)
      · obtain ⟨_, -, h⟩ := bind_eq_ok.mp h
        split at h
        · exact setupFailed_exit htype hr (pure_eq_ok.mp h) (fun _ => ⟨rfl, rfl, rfl, rfl, rfl⟩)
        · split at h
          · exact setupFailed_exit htype hr (pure_eq_ok.mp h) (fun _ => ⟨rfl, rfl, rfl, rfl, rfl⟩)
          · split at h
            · exact setupReady_exit htype hr hrun (pure_eq_ok.mp h)
            · exact setupFailed_exit htype hr (pure_eq_ok.mp h)
                (fun _ => ⟨rfl, rfl, rfl, rfl, rfl⟩)
            · exact setupReady_exit htype hr hrun (pure_eq_ok.mp h)
    · exact exit_rejectWith _ (pure_eq_ok.mp h)
  · exact exit_rejectWith _ (pure_eq_ok.mp h)

theorem containerFailed_exit {e : String} (htype : input.jobType = .executionRun)
    (hphase : ∀ container terminal, phase ≠ .left container terminal)
    (hr : input.payload.runRecordId = some r) (h : containerFailed db r e = (txn, next)) :
    Exit db input phase txn next :=
  exit_failRun (.inr htype) (fun _ => hphase) hr
    (fun run => ⟨sameRun_markFailed db.now "runtime" _ run, rfl⟩) h

theorem executionRunStart_exit (htype : input.jobType = .executionRun)
    (hphase : ∀ r, input.payload.runRecordId = some r → Phase.inContainer phase = false)
    (h : executionRunStart db input world = .ok (txn, next)) : Exit db input phase txn next := by
  unfold executionRunStart at h
  split at h
  · rename_i r hr
    obtain ⟨run, hrun, h⟩ := bind_eq_ok.mp h
    split at h
    · have hleft : ∀ container terminal, phase ≠ .left container terminal := by
        rintro container terminal rfl
        exact absurd (hphase r hr) nofun
      exact exit_failRun (.inr htype) (fun _ => hleft) hr
        (fun run => ⟨sameRun_markFailed db.now "dependency" _ run, rfl⟩) (pure_eq_ok.mp h)
    · obtain ⟨rfl, rfl⟩ := Prod.mk.inj (pure_eq_ok.mp h)
      exact .runStarted phase _ r _ htype (hphase r hr) hr ⟨rfl, rfl, rfl⟩
        ⟨_, rfl, fun _ => ⟨⟨rfl, rfl, rfl, rfl, rfl⟩, rfl⟩⟩
  · exact exit_rejectWith _ (pure_eq_ok.mp h)

theorem executionRunLaunch_exit {resume : Option ContainerId}
    (htype : input.jobType = .executionRun) (hr : input.payload.runRecordId = some r)
    (h : executionRunLaunch db r resume world = (txn, next)) :
    Exit db input (.launching resume) txn next := by
  unfold executionRunLaunch at h
  split at h
  · exact containerFailed_exit htype nofun hr h
  · obtain ⟨rfl, rfl⟩ := Prod.mk.inj h
    exact .launched resume _ htype

theorem executionRunPoll_exit {container : ContainerId}
    (htype : input.jobType = .executionRun) (hr : input.payload.runRecordId = some r)
    (h : executionRunPoll db r container world = (txn, next)) :
    Exit db input (.polling container) txn next := by
  unfold executionRunPoll at h
  split at h
  · exact containerFailed_exit htype nofun hr h
  · rename_i run hrun
    split at h
    · rename_i hstatus _
      obtain ⟨rfl, rfl⟩ := Prod.mk.inj h
      exact .halted container r run .cancelled htype hr hrun (.inl ⟨rfl, hstatus⟩)
    · rename_i hstatus _
      obtain ⟨rfl, rfl⟩ := Prod.mk.inj h
      exact .halted container r run .paused htype hr hrun (.inr ⟨rfl, hstatus⟩)
    · exact containerFailed_exit htype nofun hr h
    · exact containerFailed_exit htype nofun hr h
    · rename_i hcancelOk hpauseOk hcancelError hpauseError
      obtain ⟨rfl, rfl⟩ := Prod.mk.inj h
      refine .polled container r run htype hr hrun ⟨fun hstatus => ?_, fun hstatus => ?_⟩
      · cases hcontrol : world.controlContainer with
        | ok u => exact hcancelOk hstatus hcontrol
        | error e => exact hcancelError e hstatus hcontrol
      · cases hcontrol : world.controlContainer with
        | ok u => exact hpauseOk hstatus hcontrol
        | error e => exact hpauseError e hstatus hcontrol

theorem executionRunCheck_exit {container : ContainerId}
    (htype : input.jobType = .executionRun) (hr : input.payload.runRecordId = some r)
    (h : executionRunCheck db r container world = (txn, next)) :
    Exit db input (.checking container) txn next := by
  unfold executionRunCheck at h
  split at h
  · exact containerFailed_exit htype nofun hr h
  · obtain ⟨rfl, rfl⟩ := Prod.mk.inj h
    exact .observedRunning container htype
  · obtain ⟨rfl, rfl⟩ := Prod.mk.inj h
    exact .observedExit container (-1) htype
  · obtain ⟨rfl, rfl⟩ := Prod.mk.inj h
    exact .observedExit container _ htype

theorem executionRunRecord_exit {container : ContainerId} {terminal : TerminalState}
    (htype : input.jobType = .executionRun) (hr : input.payload.runRecordId = some r)
    (hrun : db.runs[r]? = some run)
    (h : executionRunRecord db run r container terminal world = (txn, next)) :
    Exit db input (.left container terminal) txn next := by
  unfold executionRunRecord at h
  cases terminal with
  | paused =>
    obtain ⟨rfl, rfl⟩ := Prod.mk.inj h
    exact .recordedHalt container .paused _ r .paused htype hr (.inr ⟨rfl, rfl⟩) ⟨rfl, rfl, rfl⟩
      ⟨_, rfl, fun _ => ⟨⟨rfl, rfl, rfl, rfl, rfl⟩, rfl⟩⟩
  | cancelled =>
    obtain ⟨rfl, rfl⟩ := Prod.mk.inj h
    exact .recordedHalt container .cancelled _ r .cancelled htype hr (.inl ⟨rfl, rfl⟩)
      ⟨rfl, rfl, rfl⟩ ⟨_, rfl, fun _ => ⟨⟨rfl, rfl, rfl, rfl, rfl⟩, rfl⟩⟩
  | exited code =>
    by_cases hcode : code = 0
    · subst hcode
      obtain ⟨rfl, rfl⟩ := Prod.mk.inj h
      exact .recordedSuccess container _ r run htype hr hrun ⟨rfl, rfl, rfl⟩
        ⟨_, rfl, fun _ => ⟨⟨rfl, rfl, rfl, rfl, rfl⟩, rfl⟩⟩
    · simp only [ne_eq, hcode, not_false_eq_true, if_true] at h
      obtain ⟨rfl, rfl⟩ := Prod.mk.inj h
      exact .recordedFailure container code _ r run htype hr hrun hcode ⟨rfl, rfl, rfl⟩
        ⟨_, rfl, fun _ => ⟨⟨rfl, rfl, rfl, rfl, rfl⟩, rfl⟩⟩

theorem executionRun_exit (htype : input.jobType = .executionRun)
    (h : executionRunOperator db input phase world = .ok (txn, next)) :
    Exit db input phase txn next := by
  unfold executionRunOperator at h
  split at h
  · exact executionRunLaunch_exit htype ‹_› (Except.ok.inj h)
  · exact executionRunPoll_exit htype ‹_› (Except.ok.inj h)
  · exact executionRunCheck_exit htype ‹_› (Except.ok.inj h)
  · obtain ⟨run, hrun, h⟩ := bind_eq_ok.mp h
    exact executionRunRecord_exit htype ‹_› (loadRunRecord_eq_ok hrun) (pure_eq_ok.mp h)
  · rename_i current _ _ hlaunching hpolling hchecking hleft
    refine executionRunStart_exit htype (fun r hr => ?_) h
    cases current with
    | launching container => exact (hlaunching container r rfl hr).elim
    | polling container => exact (hpolling container r rfl hr).elim
    | checking container => exact (hchecking container r rfl hr).elim
    | left container terminal => exact (hleft container terminal r rfl hr).elim
    | start | compiled | reported => rfl

theorem executionCapture_exit (htype : input.jobType = .executionCapture)
    (h : executionCaptureOperator db input world = .ok (txn, next)) :
    Exit db input phase txn next := by
  unfold executionCaptureOperator at h
  split at h
  · rename_i r hr
    obtain ⟨run, hrun, h⟩ := bind_eq_ok.mp h
    replace hrun := loadRunRecord_eq_ok hrun
    split at h
    · split at h
      · obtain ⟨rfl, rfl⟩ := Prod.mk.inj (pure_eq_ok.mp h)
        exact .captured phase _ r run .completed htype hr hrun (.inl rfl) ⟨rfl, rfl, rfl⟩
          ⟨_, rfl, fun _ => ⟨⟨rfl, rfl, rfl, rfl, rfl⟩, rfl⟩⟩
      · obtain ⟨rfl, rfl⟩ := Prod.mk.inj (pure_eq_ok.mp h)
        exact .captured phase _ r run .failed htype hr hrun (.inr rfl) ⟨rfl, rfl, rfl⟩
          ⟨_, rfl, fun _ => ⟨⟨rfl, rfl, rfl, rfl, rfl⟩, rfl⟩⟩
    · exact exit_rejectWith _ (pure_eq_ok.mp h)
  · exact exit_rejectWith _ (pure_eq_ok.mp h)

theorem verificationCheck_exit (htype : input.jobType = .verificationCheck)
    (h : verificationCheckOperator db input world = .ok (txn, next)) :
    Exit db input phase txn next := by
  unfold verificationCheckOperator at h
  split at h
  · rename_i r hr
    obtain ⟨run, hrun, h⟩ := bind_eq_ok.mp h
    replace hrun := loadRunRecord_eq_ok hrun
    have files (verdict : Verdict) (jobType : JobType)
        (hnext : jobType = .autoRemediate ∨ jobType = .signalClassify)
        (h : fileReport db run r verdict jobType = (txn, next)) : Exit db input phase txn next := by
      obtain ⟨rfl, rfl⟩ := Prod.mk.inj h
      exact .checked phase _ r run jobType htype hr hrun hnext ⟨rfl, rfl, rfl⟩ rfl
    split at h
    · split at h
      · exact files _ _ (.inl rfl) (pure_eq_ok.mp h)
      · split at h
        · exact files _ _ (.inl rfl) (pure_eq_ok.mp h)
        · exact files _ _ (.inr rfl) (pure_eq_ok.mp h)
    · exact exit_rejectWith _ (pure_eq_ok.mp h)
  · exact exit_rejectWith _ (pure_eq_ok.mp h)

theorem verificationPostmortem_exit (htype : input.jobType = .verificationPostmortem)
    (h : verificationPostmortemOperator db input world = .ok (txn, next)) :
    Exit db input phase txn next := by
  unfold verificationPostmortemOperator at h
  split at h
  · rename_i r hr
    obtain ⟨run, hrun, h⟩ := bind_eq_ok.mp h
    obtain ⟨report, -, h⟩ := bind_eq_ok.mp h
    obtain ⟨rfl, rfl⟩ := Prod.mk.inj (pure_eq_ok.mp h)
    exact .postmortem phase _ r run _ htype hr (loadRunRecord_eq_ok hrun) ⟨rfl, rfl, rfl, rfl⟩ rfl
      ⟨rfl, rfl, rfl⟩ rfl
  · exact exit_rejectWith _ (pure_eq_ok.mp h)

/-- The run and the action of a retry. -/
def retryTxn (db : Db) (r : RunId) (run : RunRecord) (strat : StrategyResult) : Txn where
  newRuns := [retryRun run r]
  newActions := [{
    runRecordId := r, retryRunId := some db.runs.length, charterId := run.charterId
    cycleId := run.cycleId, experimentSpecId := run.experimentSpecId
    failureClass := run.failureClass.getD "unknown", strategy := strat.strategy
    strategyTier := strat.strategyTier, outcome := .retryCreated
    attemptNumber := countLineageAttempts db r + 1, reasoning := strat.reasoning }]
  newJobs := [enqueueNext db run.cycleId .executionSetup db.runs.length]
  events := .remediationStarted r ::
    ((if strat.strategy = "debug_broad" then [.strategyEscalated r] else []) ++
      [.retryCreated r db.runs.length (countLineageAttempts db r + 1)])

/-- A remediation step declines the retry for one of three reasons, or files it. -/
inductive RemediatePath (db : Db) (input : OperatorInput) (world : External) (step : Txn × Next) :
    Prop where
  | unnamed (error : String) (hr : input.payload.runRecordId = none) (h : rejectWith error = step)
  | exhausted (r : RunId) (run : RunRecord) (reasoning : String)
      (hr : input.payload.runRecordId = some r) (hrun : db.runs[r]? = some run)
      (hmax : defaultMaxAttempts ≤ countLineageAttempts db r)
      (h : declineRetry db run r "skip" "focused" reasoning .exhausted
        (countLineageAttempts db r + 1)
        [.remediationExhausted r (countLineageAttempts db r + 1)] = step)
  | skipped (r : RunId) (run : RunRecord) (strat : StrategyResult)
      (hr : input.payload.runRecordId = some r) (hrun : db.runs[r]? = some run)
      (hmax : ¬defaultMaxAttempts ≤ countLineageAttempts db r)
      (h : declineRetry db run r strat.strategy strat.strategyTier strat.reasoning .skipped
        (countLineageAttempts db r + 1) [.remediationSkipped r strat.reasoning] = step)
  | unfixed (r : RunId) (run : RunRecord) (reasoning : String)
      (hr : input.payload.runRecordId = some r) (hrun : db.runs[r]? = some run)
      (hmax : ¬defaultMaxAttempts ≤ countLineageAttempts db r)
      (h : declineRetry db run r "debug_broad" "broad" reasoning .skipped
        (countLineageAttempts db r + 1) [.strategyEscalated r] = step)
  | retried (r : RunId) (run : RunRecord) (spec : ExperimentSpec) (strat : StrategyResult)
      (hr : input.payload.runRecordId = some r) (hrun : db.runs[r]? = some run)
      (hmax : ¬defaultMaxAttempts ≤ countLineageAttempts db r)
      (hstrat : selectStrategy (strategyInputs db run r spec world) = .ok strat)
      (hremediable : strat.remediable = true)
      (h : succeedWith (retryTxn db r run strat) (some .running) = step)

theorem autoRemediate_path {step : Txn × Next}
    (h : autoRemediateOperator db input world = .ok step) : RemediatePath db input world step := by
  unfold autoRemediateOperator at h
  split at h
  · rename_i r hr
    obtain ⟨run, hrun, h⟩ := bind_eq_ok.mp h
    obtain ⟨spec, -, h⟩ := bind_eq_ok.mp h
    replace hrun := loadRunRecord_eq_ok hrun
    dsimp only at h
    split at h
    · exact .exhausted r run _ hr hrun ‹_› (pure_eq_ok.mp h)
    · rename_i hmax
      obtain ⟨strat, hstrat, h⟩ := bind_eq_ok.mp h
      split at h
      · exact .skipped r run strat hr hrun hmax (pure_eq_ok.mp h)
      · rename_i hremediable
        split at h
        · exact .unfixed r run _ hr hrun hmax (pure_eq_ok.mp h)
        · exact .retried r run spec strat hr hrun hmax hstrat (by simpa using hremediable)
            (pure_eq_ok.mp h)
  · rename_i hr
    exact .unnamed _ (Option.eq_none_iff_forall_ne_some.mpr fun r => hr r) (pure_eq_ok.mp h)

theorem autoRemediate_exit (htype : input.jobType = .autoRemediate)
    (h : autoRemediateOperator db input world = .ok (txn, next)) : Exit db input phase txn next := by
  cases autoRemediate_path h with
  | unnamed error hr hreject => exact exit_rejectWith _ hreject
  | exhausted r run _ hr hrun _ hstep | skipped r run _ hr hrun _ hstep
  | unfixed r run _ hr hrun _ hstep =>
    obtain ⟨rfl, rfl⟩ := Prod.mk.inj hstep
    exact .declined phase _ r run htype hr hrun ⟨rfl, rfl, rfl⟩ rfl
  | retried r run spec strat hr hrun _ _ _ hstep =>
    obtain ⟨rfl, rfl⟩ := Prod.mk.inj hstep
    exact .retried phase _ r run htype hr hrun ⟨rfl, rfl, rfl⟩ rfl

theorem signalClassify_exit (htype : input.jobType = .signalClassify)
    (h : signalClassifyOperator db input = .ok (txn, next)) : Exit db input phase txn next := by
  unfold signalClassifyOperator at h
  split at h
  · rename_i r hr
    obtain ⟨run, hrun, h⟩ := bind_eq_ok.mp h
    obtain ⟨spec, -, h⟩ := bind_eq_ok.mp h
    replace hrun := loadRunRecord_eq_ok hrun
    have skips (h : skipClassification db run r = (txn, next)) : Exit db input phase txn next := by
      obtain ⟨rfl, rfl⟩ := Prod.mk.inj h
      exact .classified phase _ r run htype hr hrun ⟨rfl, rfl, rfl⟩ rfl
    split at h
    · dsimp only at h
      split at h
      · split at h
        · obtain ⟨report, -, h⟩ := bind_eq_ok.mp h
          obtain ⟨rfl, rfl⟩ := Prod.mk.inj (pure_eq_ok.mp h)
          exact .classified phase _ r run htype hr hrun ⟨rfl, rfl, rfl⟩ rfl
        · exact skips (pure_eq_ok.mp h)
      · exact skips (pure_eq_ok.mp h)
    · exact skips (pure_eq_ok.mp h)
  · exact exit_rejectWith _ (pure_eq_ok.mp h)

theorem recommend_exit (htype : input.jobType = .recommend)
    (h : recommendOperator db input = .ok (txn, next)) : Exit db input phase txn next := by
  unfold recommendOperator at h
  split at h
  · rename_i r hr
    obtain ⟨run, hrun, h⟩ := bind_eq_ok.mp h
    obtain ⟨spec, -, h⟩ := bind_eq_ok.mp h
    obtain ⟨report, -, h⟩ := bind_eq_ok.mp h
    replace hrun := loadRunRecord_eq_ok hrun
    dsimp only at h
    split at h
    · rename_i hmode
      obtain ⟨rfl, rfl⟩ := Prod.mk.inj (pure_eq_ok.mp h)
      exact .recommendedLoop phase _ r run _ _ htype hr hrun hmode ⟨rfl, rfl, rfl, rfl⟩ rfl
        ⟨rfl, rfl, rfl⟩ rfl
    · rename_i hmode
      obtain ⟨rfl, rfl⟩ := Prod.mk.inj (pure_eq_ok.mp h)
      exact .recommendedReport phase _ r run htype hr hrun (by simpa using hmode) ⟨rfl, rfl, rfl⟩
        rfl
  · exact exit_rejectWith _ (pure_eq_ok.mp h)

end Synthetos.Worker
