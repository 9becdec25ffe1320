import Synthetos.Runtime.RunRows
import Synthetos.Runtime.Solo

/-!
# Operators around a cancelled run

The container loop notices a cancelled run at its next poll.  The other operators do not look at
the status of the run.
-/

namespace Synthetos.Runs

open Synthetos.Core Storage Lib Worker Api Execution

/-- The job works on run `r`, or waits for the approval to launch it. -/
def Concerns (job : Job) (r : RunId) : Prop :=
  job.payload.runRecordId = some r ∨ job.payload.preparedRunRecordId = some r

/-- The phases in which `execution_run` still has to notice that its run is cancelled, or has
noticed it. -/
def Watching (job : Job) (r : RunId) (phase : Phase) : Prop :=
  job.jobType = .executionRun ∧ job.payload.runRecordId = some r ∧
    ∃ container, phase = .polling container ∨ phase = .checking container ∨
      phase = .left container .cancelled

variable {db : Db} {input : OperatorInput} {phase : Phase} {world : External} {txn : Txn}
  {next : Core.Next} {r r' : RunId} {run : RunRecord} {s s' : RunStatus} {job old new : Job}

theorem concerns_iff_of_same (h : SameJob old new) : Concerns new r ↔ Concerns old r := by
  rw [Concerns, Concerns, h.payload]

theorem writesRun_unique (h : WritesRun txn r s) (h' : WritesRun txn r' s') : r = r' ∧ s = s' := by
  obtain ⟨f, hf, hstatus⟩ := h
  obtain ⟨f', hf', hstatus'⟩ := h'
  obtain ⟨rfl, rfl⟩ := Prod.mk.inj (Option.some.inj (hf.symm.trans hf'))
  let row : RunRecord := { experimentSpecId := 0, charterId := 0, cycleId := 0, runNumber := 0 }
  exact ⟨rfl, (hstatus row).2.symm.trans (hstatus' row).2⟩

theorem not_writesRun_empty : ¬ WritesRun {} r s := by
  rintro ⟨f, hf, -⟩
  exact absurd hf nofun

theorem execute_poll_cancelled {container : ContainerId} (htype : input.jobType = .executionRun)
    (hr : input.payload.runRecordId = some r) (hrun : db.runs[r]? = some run)
    (hstatus : run.status = .cancelled) (hcontrol : world.controlContainer = .ok ()) :
    execute db input (.polling container) world = ({}, .suspend (.left container .cancelled)) := by
  have hpoll : executionRunPoll db r container world =
      ({}, .suspend (.left container .cancelled)) := by
    unfold executionRunPoll
    rw [hrun]
    dsimp only
    rw [hstatus, hcontrol]
  have hhandler : handler db input (.polling container) world =
      .ok ({}, .suspend (.left container .cancelled)) := by
    unfold handler
    rw [htype]
    dsimp only
    unfold executionRunOperator
    rw [hr]
    dsimp only
    rw [hpoll]
  unfold execute
  rw [hhandler]
  cases world.raised <;> rfl

theorem execute_check_running {container : ContainerId} (htype : input.jobType = .executionRun)
    (hr : input.payload.runRecordId = some r) (hobserved : world.observation = .ok .stillRunning) :
    execute db input (.checking container) world = ({}, .suspend (.polling container)) := by
  have hcheck : executionRunCheck db r container world = ({}, .suspend (.polling container)) := by
    unfold executionRunCheck
    rw [hobserved]
  have hhandler : handler db input (.checking container) world =
      .ok ({}, .suspend (.polling container)) := by
    unfold handler
    rw [htype]
    dsimp only
    unfold executionRunOperator
    rw [hr]
    dsimp only
    rw [hcheck]
  unfold execute
  rw [hhandler]
  cases world.raised <;> rfl

/-- After the loop was left because of a cancellation, the run stays cancelled and nothing is
enqueued. -/
theorem exit_left_cancelled {container : ContainerId} (htype : input.jobType = .executionRun)
    (h : Exit db input (.left container .cancelled) txn next) :
    txn.newJobs = [] ∧ (∀ r s, WritesRun txn r s → s = .cancelled) ∧
      ∃ result, next = .finish result := by
  have other {jobType : JobType} (hother : input.jobType = jobType)
      (hne : jobType ≠ .executionRun) (htype : input.jobType = .executionRun) :
      txn.newJobs = [] ∧ (∀ r s, WritesRun txn r s → s = .cancelled) ∧
        ∃ result, next = .finish result := absurd (hother.symm.trans htype) hne
  revert htype
  cases h with
  | rejected => exact fun _ => ⟨rfl, fun r s h => absurd h not_writesRun_empty, _, rfl⟩
  | runFailed _ _ _ _ _ hphase => exact fun htype => absurd rfl (hphase htype container .cancelled)
  | runStarted _ _ _ _ _ hphase => exact absurd hphase nofun
  | recordedHalt _ _ _ r' status _ hr hstatus hquiet hwrite =>
    refine fun _ => ⟨hquiet.jobs, fun r s h => ?_, _, rfl⟩
    obtain ⟨-, rfl⟩ := writesRun_unique h hwrite
    rcases hstatus with ⟨-, hstatus⟩ | ⟨hno, -⟩
    · exact hstatus
    · exact absurd hno nofun
  | relayed =>
    rename_i hrelay _ _ _ _
    intro htype
    rw [htype] at hrelay
    exact absurd hrelay nofun
  | _ =>
    refine other ‹input.jobType = _› ?_
    exact nofun

theorem exit_writes_cancelled (h : Exit db input phase txn next)
    (hwrite : WritesRun txn r .cancelled) :
    input.jobType = .executionRun ∧ ∃ container, phase = .left container .cancelled := by
  have other {k : RunId} {s : RunStatus} (hother : WritesRun txn k s) (hne : s ≠ .cancelled)
      (hwrite : WritesRun txn r .cancelled) :
      input.jobType = .executionRun ∧ ∃ container, phase = .left container .cancelled := by
    obtain ⟨-, hs⟩ := writesRun_unique hother hwrite
    exact absurd hs hne
  have none' (hnone : txn.runUpdate = none) (hwrite : WritesRun txn r .cancelled) :
      input.jobType = .executionRun ∧ ∃ container, phase = .left container .cancelled := by
    obtain ⟨f, hf, -⟩ := hwrite
    exact absurd (hf.symm.trans hnone) nofun
  revert hwrite
  cases h with
  | recordedHalt container terminal _ k status htype hr hstatus hquiet hhalt =>
    rcases hstatus with ⟨rfl, -⟩ | ⟨-, rfl⟩
    · exact fun _ => ⟨htype, container, rfl⟩
    · exact other hhalt nofun
  | captured _ _ k run status htype hr hrun hstatus hjob hcapture =>
    rcases hstatus with rfl | rfl
    · exact other hcapture nofun
    · exact other hcapture nofun
  | _ =>
    first
      | exact none' rfl
      | exact none' ‹txn.runUpdate = none›
      | (refine other ‹WritesRun _ _ _› ?_
         exact nofun)

/-- A job an operator enqueues concerns the run of the operator's own job, or a new run. -/
theorem exit_newJob_run (h : Exit db input phase txn next) (hnew : txn.newJobs = [new])
    (hr : Concerns new r) :
    (input.payload.runRecordId = some r ∨ input.payload.preparedRunRecordId = some r) ∨
      r = db.runs.length := by
  have none' {P : Prop} (hnone : txn.newJobs = []) : P := absurd (hnew.symm.trans hnone) nofun
  have own {c : CycleId} {t : JobType} {k : RunId}
      (hone : txn.newJobs = [enqueueNext db c t k]) : k = r := by
    obtain rfl := List.singleton_inj.mp (hnew.symm.trans hone)
    rcases hr with hr | hr
    · exact Option.some.inj hr
    · exact absurd hr nofun
  cases h with
  | rejected | launched | polled | halted | observedRunning | observedExit => exact none' rfl
  | runFailed | runStarted | recordedHalt | recommendedReport | reportWritten | specsRejected
  | specsCompiled | protocolReady => exact none' ‹Quiet _›.jobs
  | loopPaused => exact none' ‹txn.newJobs = []›
  | setupReady _ _ k _ _ hk _ hjob | recordedFailure _ _ _ k _ _ hk _ _ hjob
  | recordedSuccess _ _ k _ _ hk _ hjob | captured _ _ k _ _ _ hk _ _ hjob
  | checked _ _ k _ _ _ hk _ _ hjob | declined _ _ k _ _ hk _ hjob
  | classified _ _ k _ _ hk _ hjob =>
    obtain rfl := own hjob.jobs
    exact .inl (.inl hk)
  | preparedLaunch _ _ k _ _ hk _ hjob =>
    obtain rfl := own hjob.jobs
    exact .inl (.inr hk)
  | retried _ _ k _ _ hk _ hjob => exact .inr (own hjob.jobs).symm
  | loopLaunched _ _ _ _ _ _ _ _ _ _ hjob => exact .inr (own hjob.jobs).symm
  | runPrepared _ _ _ _ _ _ _ _ hjob => exact .inr (own hjob.jobs).symm
  | runGated _ _ _ _ _ _ _ _ _ hjob =>
    obtain rfl := List.singleton_inj.mp (hnew.symm.trans hjob.jobs)
    rcases hr with hr | hr
    · exact absurd hr nofun
    · exact .inr (Option.some.inj hr).symm
  | postmortem _ _ k _ job _ hk _ _ hpayload hjob =>
    obtain rfl := List.singleton_inj.mp (hnew.symm.trans hjob.jobs)
    rw [Concerns, hpayload] at hr
    rcases hr with hr | hr
    · obtain rfl := Option.some.inj hr
      exact .inl (.inl hk)
    · exact absurd hr nofun
  | recommendedLoop _ _ k _ job recId _ hk _ _ _ hpayload hjob =>
    obtain rfl := List.singleton_inj.mp (hnew.symm.trans hjob.jobs)
    rw [Concerns, hpayload] at hr
    rcases hr with hr | hr
    · obtain rfl := Option.some.inj hr
      exact .inl (.inl hk)
    · exact absurd hr nofun
  | loopStopped _ _ _ _ job _ _ _ _ _ hpayload hjob =>
    obtain rfl := List.singleton_inj.mp (hnew.symm.trans hjob.jobs)
    rw [Concerns, hpayload] at hr
    exact absurd hr nofun
  | loopRecompiles _ _ _ _ job _ _ _ _ _ _ _ _ hpayload hjob =>
    obtain rfl := List.singleton_inj.mp (hnew.symm.trans hjob.jobs)
    rw [Concerns, hpayload.2.1, hpayload.2.2.1] at hr
    exact absurd hr nofun
  | loopClosed _ _ _ hjobs =>
    rcases hjobs with hnone | hone
    · exact none' hnone
    · obtain rfl := List.singleton_inj.mp (hnew.symm.trans hone)
      exact absurd hr nofun
  | relayed _ _ _ hjobs =>
    cases hrelay : (relayOf input.jobType).1 with
    | none => exact none' (by rw [hjobs, hrelay]; rfl)
    | some jobType =>
      have hone : txn.newJobs = [createJob db input.cycleId jobType input.payload 10] := by
        rw [hjobs, hrelay]
        rfl
      obtain rfl := List.singleton_inj.mp (hnew.symm.trans hone)
      exact .inl hr

end Synthetos.Runs
