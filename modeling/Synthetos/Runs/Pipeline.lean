import Synthetos.Jobs.Latest
import Synthetos.Runs.Watching

/-!
# The pipeline of a run

Setup, run, capture and check of one run form a thread of jobs.  An operator hands the thread to
the next job when it returns; requests can add a job to it at other times.
-/

namespace Synthetos.Runs

open Synthetos.Core Storage Lib Worker Api Jobs

/-- The jobs that take a run from its creation to its verification. -/
def isPipelineJob : JobType → Bool
  | .executionSetup | .executionRun | .executionCapture | .verificationCheck => true
  | _ => false

/-- The job belongs to the pipeline of run `r`. -/
structure Pipeline (r : RunId) (job : Job) : Prop where
  type : isPipelineJob job.jobType = true
  run : job.payload.runRecordId = some r

def finished : RunStatus → Bool
  | .completed | .failed | .cancelled => true
  | _ => false

variable {db : Db} {input : OperatorInput} {phase : Phase} {txn : Txn} {next : Core.Next}
  {r k : RunId} {s : RunStatus} {new : Job}

theorem pipeline_fixed (r : RunId) : Fixed (Pipeline r) := by
  intro old new hsame
  constructor
  · exact fun h => ⟨hsame.type ▸ h.type, hsame.payload ▸ h.run⟩
  · exact fun h => ⟨hsame.type ▸ h.type, hsame.payload ▸ h.run⟩

theorem Pipeline.unique {job : Job} (h : Pipeline r job) (h' : Pipeline k job) : r = k :=
  Option.some.inj (h.run.symm.trans h'.run)

theorem exit_writer (h : Exit db input phase txn next) (hwrite : WritesRun txn r s) :
    input.payload.runRecordId = some r ∧ isPipelineJob input.jobType = true ∧
      input.jobType ≠ .verificationCheck := by
  have own {k : RunId} {s' : RunStatus} {t : JobType} (hk : input.payload.runRecordId = some k)
      (hown : WritesRun txn k s') (htype : input.jobType = t) (hpipeline : isPipelineJob t = true)
      (ht : t ≠ .verificationCheck) (hwrite : WritesRun txn r s) :
      input.payload.runRecordId = some r ∧ isPipelineJob input.jobType = true ∧
        input.jobType ≠ .verificationCheck := by
    obtain ⟨rfl, -⟩ := writesRun_unique hown hwrite
    rw [htype]
    exact ⟨hk, hpipeline, ht⟩
  have none' (hnone : txn.runUpdate = none) (hwrite : WritesRun txn r s) :
      input.payload.runRecordId = some r ∧ isPipelineJob input.jobType = true ∧
        input.jobType ≠ .verificationCheck := by
    obtain ⟨f, hf, -⟩ := hwrite
    exact absurd (hf.symm.trans hnone) nofun
  revert hwrite
  cases h with
  | runFailed _ _ _ _ htype _ hk _ hown =>
    rcases htype with htype | htype
    · exact own hk hown htype rfl nofun
    · exact own hk hown htype rfl nofun
  | setupReady _ _ _ _ htype hk _ _ hown | runStarted _ _ _ _ htype _ hk _ hown
  | recordedHalt _ _ _ _ _ htype hk _ _ hown | recordedFailure _ _ _ _ _ htype hk _ _ _ hown
  | recordedSuccess _ _ _ _ htype hk _ _ hown | captured _ _ _ _ _ htype hk _ _ _ hown =>
    exact own hk hown htype rfl nofun
  | _ =>
    first
      | exact none' rfl
      | exact none' ‹txn.runUpdate = none›

/-- How an operator adds a job to the pipeline of run `r`. -/
inductive Extends (db : Db) (input : OperatorInput) (txn : Txn) (next : Core.Next) (r : RunId)
    (new : Job) : Prop where
  /-- It hands over from its own job of the run. -/
  | handover (result : OperatorResult) (hr : input.payload.runRecordId = some r)
      (htype : isPipelineJob input.jobType = true) (hcheck : input.jobType ≠ .verificationCheck)
      (hnext : next = .finish result)
      (hverify : new.jobType = .verificationCheck →
        ∃ s, WritesRun txn r s ∧ finished s = true)
  | launch (run : RunRecord) (hr : input.payload.preparedRunRecordId = some r)
      (htype : input.jobType = .loopDecide) (hrun : db.runs[r]? = some run)
      (hsetup : new.jobType = .executionSetup)
  | create (run : RunRecord) (hr : r = db.runs.length) (hruns : txn.newRuns = [run])
      (hsetup : new.jobType = .executionSetup)

theorem exit_extends (h : Exit db input phase txn next) (hnew : txn.newJobs = [new])
    (hpipeline : Pipeline r new) : Extends db input txn next r new := by
  have none' (hnone : txn.newJobs = []) : Extends db input txn next r new :=
    absurd (hnew.symm.trans hnone) nofun
  have outside {job : Job} (hone : txn.newJobs = [job]) (htype : isPipelineJob job.jobType = false) :
      Extends db input txn next r new := by
    obtain rfl := List.singleton_inj.mp (hnew.symm.trans hone)
    exact absurd (hpipeline.type.symm.trans htype) nofun
  have same {c : CycleId} {t : JobType} {k : RunId} (hone : txn.newJobs = [enqueueNext db c t k]) :
      k = r ∧ new.jobType = t := by
    obtain rfl := List.singleton_inj.mp (hnew.symm.trans hone)
    exact ⟨Option.some.inj hpipeline.run, rfl⟩
  revert none'
  cases h with
  | rejected | launched | polled | halted | observedRunning | observedExit => exact fun none' => none' rfl
  | runFailed | runStarted | recordedHalt | recommendedReport | reportWritten | specsRejected
  | specsCompiled | protocolReady => exact fun none' => none' ‹Quiet _›.jobs
  | loopPaused => exact fun none' => none' ‹txn.newJobs = []›
  | setupReady _ _ k _ htype hk _ hjob =>
    obtain ⟨rfl, hrun⟩ := same hjob.jobs
    refine fun _ => .handover _ hk (by rw [htype]; rfl) (by rw [htype]; exact nofun) rfl ?_
    exact fun hcheck => absurd (hrun.symm.trans hcheck) nofun
  | recordedFailure _ _ _ k _ htype hk _ _ hjob hwrite =>
    obtain ⟨rfl, -⟩ := same hjob.jobs
    refine fun _ => .handover _ hk (by rw [htype]; rfl) (by rw [htype]; exact nofun) rfl ?_
    exact fun _ => ⟨.failed, hwrite, rfl⟩
  | recordedSuccess _ _ k _ htype hk _ hjob =>
    obtain ⟨rfl, hcapture⟩ := same hjob.jobs
    refine fun _ => .handover _ hk (by rw [htype]; rfl) (by rw [htype]; exact nofun) rfl ?_
    exact fun hcheck => absurd (hcapture.symm.trans hcheck) nofun
  | captured _ _ k _ status htype hk _ hstatus hjob hwrite =>
    obtain ⟨rfl, -⟩ := same hjob.jobs
    refine fun _ => .handover _ hk (by rw [htype]; rfl) (by rw [htype]; exact nofun) rfl ?_
    intro _
    refine ⟨status, hwrite, ?_⟩
    rcases hstatus with rfl | rfl <;> rfl
  | checked _ _ k _ _ _ _ _ hnext hjob =>
    refine fun _ => outside hjob.jobs ?_
    rcases hnext with rfl | rfl <;> rfl
  | declined _ _ _ _ _ _ _ hjob | classified _ _ _ _ _ _ _ hjob => exact fun _ => outside hjob.jobs rfl
  | postmortem _ _ _ _ _ _ _ _ hfresh _ hjob | recommendedLoop _ _ _ _ _ _ _ _ _ _ hfresh _ hjob
  | loopStopped _ _ _ _ _ _ _ _ _ hfresh _ hjob =>
    exact fun _ => outside hjob.jobs (by rw [hfresh.type]; rfl)
  | loopRecompiles _ _ _ _ _ _ _ _ _ _ _ hfresh _ _ hjob =>
    exact fun _ => outside hjob.jobs (by rw [hfresh.type]; rfl)
  | preparedLaunch _ _ _ run htype hprepared hrun hjob =>
    obtain ⟨rfl, hsetup⟩ := same hjob.jobs
    exact fun _ => .launch run hprepared htype hrun hsetup
  | retried _ _ _ _ _ _ _ hjob =>
    obtain ⟨rfl, hsetup⟩ := same hjob.jobs
    exact fun _ => .create _ rfl hjob.runs hsetup
  | loopLaunched _ _ _ _ new' _ _ _ _ _ hjob =>
    obtain ⟨rfl, hsetup⟩ := same hjob.jobs
    exact fun _ => .create new' rfl hjob.runs hsetup
  | runPrepared _ _ _ new' _ _ _ _ hjob =>
    obtain ⟨rfl, hsetup⟩ := same hjob.jobs
    exact fun _ => .create new' rfl hjob.runs hsetup
  | runGated _ _ _ _ _ _ _ _ _ hjob => exact fun _ => outside hjob.jobs rfl
  | loopClosed _ _ _ hjobs =>
    rcases hjobs with hnone | hone
    · exact fun none' => none' hnone
    · exact fun _ => outside hone rfl
  | relayed _ _ _ hjobs =>
    cases hrelay : (relayOf input.jobType).1 with
    | none => exact fun none' => none' (by rw [hjobs, hrelay]; rfl)
    | some jobType =>
      have hone : txn.newJobs = [createJob db input.cycleId jobType input.payload 10] := by
        rw [hjobs, hrelay]
        rfl
      refine fun _ => outside hone ?_
      change isPipelineJob jobType = false
      unfold relayOf at hrelay
      split at hrelay <;> first
        | (obtain rfl := Option.some.inj hrelay; rfl)
        | exact absurd hrelay nofun

end Synthetos.Runs
