import Synthetos.Runs.Pipeline

/-!
# The stage of a job

Every operator that patches its cycle is written for one status of the cycle.  Working there, its
patch is an allowed transition and leads to the stage of the job it enqueues.
-/

namespace Synthetos.Cycles

open Synthetos.Core Storage Lib Worker Api Autonomy Protocols

/-- The cycle status an operator works in, for the operators that take part in the pipeline. -/
def stageOf (jobType : JobType) (payload : Payload) : Option CycleStatus :=
  match jobType with
  | .discoveryIntake => some .created
  | .discoverySearch | .discoveryRerank | .discoveryAnalyze | .discoveryFinalize =>
    some .discoveryReady
  | .hypothesisGenerate | .hypothesisCritique | .hypothesisRank => some .evidenceReady
  | .protocolCompile => some (if payload.fromLoop then .running else .portfolioReady)
  | .executionSetup | .executionRun | .executionCapture => some .running
  | .verificationCheck | .verificationPostmortem | .autoRemediate | .signalClassify
  | .recommend => some .verifying
  | .loopDecide => some .loopDeciding
  | .loopReport => some .reporting
  | .echo | .analysisIngest | .analysisChunk | .analysisGraphExtract | .analysisCoverage
  | .analysisReview | .analysisEvidence | .consolidatePatterns | .decayPatterns => none

def stage (job : Job) : Option CycleStatus := stageOf job.jobType job.payload

/-- The job takes part in the pipeline of cycle `c`. -/
structure Staged (c : CycleId) (job : Job) : Prop where
  cycle : job.cycleId = some c
  stage : ∃ s, stage job = some s

/-- The transition a result asks for. -/
def patchOf (result : OperatorResult) : Option CycleStatus :=
  if result.success then result.statePatch else none

/-- The rows an operator reads belong to cycle `c`. -/
structure OwnInput (db : Db) (input : OperatorInput) (phase : Phase) (c : CycleId) : Prop where
  cycle : input.cycleId = some c
  runs : ∀ (r : RunId) (run : RunRecord), input.payload.runRecordId = some r ∨
    input.payload.preparedRunRecordId = some r → db.runs[r]? = some run → run.cycleId = c
  sessions : ∀ (s : SessionId) (session : HypothesisSession),
    input.payload.hypothesisSessionId = some s → db.sessions[s]? = some session →
      session.cycleId = c
  compiled : ∀ s, phase = .compiled s → input.payload.fromLoop = true ∧
    ∀ spec : ExperimentSpec, db.specs[s]? = some spec → spec.cycleId = c

/-- A compilation in the loop is not stopped at a gate. -/
def Ungated (db : Db) (input : OperatorInput) (phase : Phase) : Prop :=
  ∀ (s : SpecId) (spec : ExperimentSpec) gate, phase = .compiled s → db.specs[s]? = some spec →
    launchGate (policyOf db spec.cycleId) (currentProfile input.payload) spec ≠ .ok (some gate)

/-- A step of an operator whose cycle is in status `s` patches it along the table and enqueues a
job for the status it leads to. -/
structure Advances (c : CycleId) (s : Option CycleStatus) (txn : Txn) (next : Core.Next) : Prop where
  patch : ∀ result t, next = .finish result → patchOf result = some t →
    ∃ status, s = some status ∧ validTransition status t = true
  successor : ∀ (job : Job) t, txn.newJobs = [job] → stage job = some t →
    ∃ result status, next = .finish result ∧ s = some status ∧ job.cycleId = some c ∧
      t = (patchOf result).getD status

variable {db : Db} {input : OperatorInput} {phase : Phase} {txn : Txn} {next : Core.Next}
  {c : CycleId}

theorem advances_of_failed {s : Option CycleStatus} {error : String} (hjobs : txn.newJobs = []) :
    Advances c s txn (failed error) where
  patch := by
    rintro result t hnext hpatch
    obtain rfl := Core.Next.finish.inj hnext
    exact absurd hpatch nofun
  successor _ _ hnew := absurd (hjobs.symm.trans hnew) nofun

theorem advances_of_suspend {s : Option CycleStatus} {phase : Phase} (hjobs : txn.newJobs = []) :
    Advances c s txn (.suspend phase) where
  patch _ _ hnext := absurd hnext nofun
  successor _ _ hnew := absurd (hjobs.symm.trans hnew) nofun

theorem advances_of_quiet {status : CycleStatus} {patch : Option CycleStatus}
    (hjobs : txn.newJobs = []) (hvalid : ∀ t, patch = some t → validTransition status t = true) :
    Advances c (some status) txn (done patch) where
  patch := by
    rintro result t hnext hpatch
    obtain rfl := Core.Next.finish.inj hnext
    exact ⟨status, rfl, hvalid t hpatch⟩
  successor _ _ hnew := absurd (hjobs.symm.trans hnew) nofun

theorem advances_of_job {status : CycleStatus} {patch : Option CycleStatus} {job : Job}
    (hjobs : txn.newJobs = [job]) (hvalid : ∀ t, patch = some t → validTransition status t = true)
    (hcycle : job.cycleId = some c) (hstage : stage job = some (patch.getD status)) :
    Advances c (some status) txn (done patch) where
  patch := by
    rintro result t hnext hpatch
    obtain rfl := Core.Next.finish.inj hnext
    exact ⟨status, rfl, hvalid t hpatch⟩
  successor := by
    intro new t hnew ht
    obtain rfl := List.singleton_inj.mp (hnew.symm.trans hjobs)
    exact ⟨_, status, rfl, rfl, hcycle, Option.some.inj (ht.symm.trans hstage)⟩

theorem advances_of_unstaged (hunstaged : ∀ job, txn.newJobs = [job] → stage job = none) :
    Advances c none txn (done none) where
  patch := by
    rintro result t hnext hpatch
    obtain rfl := Core.Next.finish.inj hnext
    exact absurd hpatch nofun
  successor job t hnew ht := absurd (ht.symm.trans (hunstaged job hnew)) nofun

/-- The discovery and ideation operators follow the table, and the others of their kind stay out
of the pipeline. -/
theorem advances_relayed (hcycle : input.cycleId = some c)
    (htype : isRelay input.jobType = true)
    (hjobs : txn.newJobs = (relayOf input.jobType).1.toList.map fun jobType =>
      createJob db input.cycleId jobType input.payload 10) :
    Advances c (stageOf input.jobType input.payload) txn (done (relayOf input.jobType).2) := by
  cases hinput : input.jobType <;> rw [hinput] at htype hjobs
  case discoveryIntake | discoveryFinalize | hypothesisRank =>
    first
    | refine advances_of_job hjobs ?_ hcycle rfl
    | refine advances_of_quiet hjobs ?_
    intro t ht
    obtain rfl := Option.some.inj ht
    rfl
  case discoverySearch | discoveryRerank | discoveryAnalyze | hypothesisGenerate
      | hypothesisCritique =>
    refine advances_of_job hjobs ?_ hcycle rfl
    intro t ht
    exact absurd ht nofun
  case echo | analysisIngest | analysisChunk | analysisGraphExtract | analysisCoverage
      | analysisReview | analysisEvidence | consolidatePatterns | decayPatterns =>
    refine advances_of_unstaged fun job hnew => ?_
    first
    | (obtain rfl := List.singleton_inj.mp (hnew.symm.trans hjobs)
       rfl)
    | exact absurd (hnew.symm.trans hjobs) nofun
  all_goals exact absurd htype nofun

theorem exit_advances (h : Exit db input phase txn next) (hown : OwnInput db input phase c)
    (hgate : Ungated db input phase) :
    Advances c (stageOf input.jobType input.payload) txn next := by
  have staged {t : JobType} {status : CycleStatus} {c : CycleId} {next : Core.Next}
      (htype : input.jobType = t) (hstatus : stageOf t input.payload = some status)
      (hadvances : Advances c (some status) txn next) :
      Advances c (stageOf input.jobType input.payload) txn next := by
    rw [htype, hstatus]
    exact hadvances
  have nothing {status : CycleStatus} : ∀ t, (none : Option CycleStatus) = some t →
      validTransition status t = true := fun t ht => absurd ht nofun
  have onto {status target : CycleStatus} (hvalid : validTransition status target = true) :
      ∀ t, some target = some t → validTransition status t = true := by
    intro t ht
    obtain rfl := Option.some.inj ht
    exact hvalid
  have ownRun {r : RunId} {run : RunRecord} (hr : input.payload.runRecordId = some r)
      (hrun : db.runs[r]? = some run) : run.cycleId = c := hown.runs r run (.inl hr) hrun
  cases h with
  | rejected => exact advances_of_failed rfl
  | runFailed _ _ _ _ _ _ _ hquiet | specsRejected _ _ _ _ hquiet =>
    exact advances_of_failed hquiet.jobs
  | launched | polled | halted | observedRunning | observedExit => exact advances_of_suspend rfl
  | runStarted _ _ _ _ _ _ _ hquiet | reportWritten _ _ _ hquiet
  | specsCompiled _ _ _ _ _ _ _ _ _ _ _ _ hquiet => exact advances_of_suspend hquiet.jobs
  | setupReady _ _ r run htype hr hrun hjob =>
    obtain rfl := ownRun hr hrun
    exact staged htype rfl (advances_of_job hjob.jobs nothing rfl rfl)
  | recordedHalt _ _ _ _ _ htype _ _ hquiet =>
    exact staged htype rfl (advances_of_quiet hquiet.jobs nothing)
  | recordedFailure _ _ _ r run htype hr hrun _ hjob =>
    obtain rfl := ownRun hr hrun
    exact staged htype rfl (advances_of_job hjob.jobs (onto rfl) rfl rfl)
  | recordedSuccess _ _ r run htype hr hrun hjob =>
    obtain rfl := ownRun hr hrun
    exact staged htype rfl (advances_of_job hjob.jobs nothing rfl rfl)
  | captured _ _ r run _ htype hr hrun _ hjob =>
    obtain rfl := ownRun hr hrun
    exact staged htype rfl (advances_of_job hjob.jobs (onto rfl) rfl rfl)
  | checked _ _ r run _ htype hr hrun hnext hjob =>
    obtain rfl := ownRun hr hrun
    refine staged htype rfl (advances_of_job hjob.jobs nothing rfl ?_)
    rcases hnext with rfl | rfl <;> rfl
  | postmortem _ _ r run job htype hr hrun hfresh _ hjob =>
    obtain rfl := ownRun hr hrun
    refine staged htype rfl (advances_of_job hjob.jobs nothing hfresh.cycle ?_)
    rw [stage, hfresh.type]
    rfl
  | declined _ _ r run htype hr hrun hjob | classified _ _ r run htype hr hrun hjob =>
    obtain rfl := ownRun hr hrun
    exact staged htype rfl (advances_of_job hjob.jobs nothing rfl rfl)
  | retried _ _ r run htype hr hrun hjob =>
    obtain rfl := ownRun hr hrun
    exact staged htype rfl (advances_of_job hjob.jobs (onto rfl) rfl rfl)
  | recommendedLoop _ _ r run job _ htype hr hrun _ hfresh _ hjob =>
    obtain rfl := ownRun hr hrun
    refine staged htype rfl (advances_of_job hjob.jobs (onto rfl) hfresh.cycle ?_)
    rw [stage, hfresh.type]
    rfl
  | recommendedReport _ _ _ _ htype _ _ _ hquiet =>
    exact staged htype rfl (advances_of_quiet hquiet.jobs (onto rfl))
  | preparedLaunch _ _ r run htype hprepared hrun hjob =>
    obtain rfl := hown.runs r run (.inr hprepared) hrun
    exact staged htype rfl (advances_of_job hjob.jobs (onto rfl) rfl rfl)
  | loopStopped _ _ r run job htype _ hr hrun hfresh _ hjob =>
    obtain rfl := ownRun hr hrun
    refine staged htype rfl (advances_of_job hjob.jobs (onto rfl) hfresh.cycle ?_)
    rw [stage, hfresh.type]
    rfl
  | loopPaused _ _ _ _ htype _ _ _ hjobs => exact staged htype rfl (advances_of_quiet hjobs nothing)
  | loopLaunched _ _ r run _ htype _ hr hrun _ hjob =>
    obtain rfl := ownRun hr hrun
    exact staged htype rfl (advances_of_job hjob.jobs (onto rfl) rfl rfl)
  | loopRecompiles _ _ r run job _ htype _ hr hrun _ hfresh hloop _ hjob =>
    obtain rfl := ownRun hr hrun
    refine staged htype rfl (advances_of_job hjob.jobs (onto rfl) hfresh.cycle ?_)
    rw [stage, hfresh.type]
    exact congrArg some (if_pos hloop)
  | loopClosed _ _ htype hjobs =>
    refine staged htype rfl ?_
    rcases hjobs with hnone | hone
    · exact advances_of_quiet hnone (onto rfl)
    · constructor
      · rintro result t hnext hpatch
        obtain rfl := Core.Next.finish.inj hnext
        exact ⟨.reporting, rfl, onto rfl t hpatch⟩
      · intro job t hnew ht
        obtain rfl := List.singleton_inj.mp (hnew.symm.trans hone)
        exact absurd ht nofun
  | protocolReady _ _ htype hloop hquiet =>
    refine staged htype (congrArg some (if_neg (by rw [hloop]; exact nofun))) ?_
    exact advances_of_quiet hquiet.jobs (onto rfl)
  | runPrepared specId _ spec _ htype hspec _ _ hjob =>
    obtain ⟨hloop, hcycle⟩ := hown.compiled specId rfl
    obtain rfl := hcycle spec hspec
    refine staged htype (congrArg some (if_pos hloop)) ?_
    exact advances_of_job hjob.jobs nothing rfl rfl
  | runGated specId _ spec _ gate _ hspec hgated =>
    exact absurd hgated (hgate specId spec gate rfl hspec)
  | relayed _ _ htype hjobs => exact advances_relayed hown.cycle htype hjobs

end Synthetos.Cycles
