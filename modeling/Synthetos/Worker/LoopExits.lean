import Synthetos.Protocols.LoopPaths
import Synthetos.Worker.ExecutionExits

/-!
# Exits of the loop operators
-/

namespace Synthetos.Worker

open Synthetos.Core Storage Lib Autonomy Execution Protocols Remediation Verification

variable {db : Db} {input : OperatorInput} {phase : Phase} {world : External} {txn : Txn}
  {next : Next} {it : Iteration}

/-- The iteration of a job: what it keeps from its input, whatever it has written so far. -/
structure Iterates (db : Db) (input : OperatorInput) (it : Iteration) : Prop where
  type : input.jobType = .loopDecide
  fresh : input.payload.preparedRunRecordId = none
  runId : input.payload.runRecordId = some it.runId
  run : db.runs[it.runId]? = some it.run
  job : it.jobId = input.jobId
  jobs : it.txn.newJobs = []
  runs : it.txn.newRuns = []
  pause : it.txn.pausedJob = none
  write : it.txn.runUpdate = none
  specs : it.txn.newSpecs = []

theorem stopLoopWith_exit {decision : Decision} {reasoning : String}
    (h : stopLoopWith db it decision reasoning = (txn, next)) (hit : Iterates db input it) :
    Exit db input phase txn next := by
  obtain ⟨rfl, rfl⟩ := Prod.mk.inj h
  exact .loopStopped phase _ it.runId it.run _ hit.type hit.fresh hit.runId hit.run
    ⟨rfl, rfl, rfl, rfl⟩ rfl ⟨rfl, hit.runs, hit.pause⟩ hit.write

theorem pauseForGate_exit {gate : GateResult} (h : pauseForGate it gate = (txn, next))
    (hit : Iterates db input it) : Exit db input phase txn next := by
  obtain ⟨rfl, rfl⟩ := Prod.mk.inj h
  exact .loopPaused phase _ it.runId it.run hit.type hit.fresh hit.runId hit.run hit.jobs
    hit.runs (congrArg some hit.job) hit.write ⟨_, rfl, rfl, rfl⟩

theorem launchRun_exit {spec : SpecId} {decision : Decision} {reasoning : String}
    {nextCard : Option CardId} (h : launchRun db it spec decision reasoning nextCard = (txn, next))
    (hit : Iterates db input it) : Exit db input phase txn next := by
  obtain ⟨rfl, rfl⟩ := Prod.mk.inj h
  exact .loopLaunched phase _ it.runId it.run
    { experimentSpecId := spec, charterId := it.run.charterId, cycleId := it.cycleId
      runNumber := nextRunNumber db spec }
    hit.type hit.fresh hit.runId hit.run ⟨rfl, rfl, rfl, rfl⟩ ⟨rfl, rfl, hit.pause⟩ hit.write

theorem varyParameters_exit {spec : ExperimentSpec}
    (h : varyParameters db it spec = (txn, next)) (hit : Iterates db input it) :
    Exit db input phase txn next := by
  unfold varyParameters at h
  split at h
  · exact exit_rejectWith _ h
  · rename_i session hsession
    obtain ⟨rfl, rfl⟩ := Prod.mk.inj h
    exact .loopRecompiles phase _ it.runId it.run _ session hit.type hit.fresh hit.runId hit.run
      hsession ⟨rfl, rfl, rfl, rfl⟩ rfl ⟨rfl, rfl, rfl, rfl⟩ ⟨rfl, hit.runs, hit.pause⟩ hit.write

theorem Iterates.dropped (hit : Iterates db input it) : Iterates db input (droppedCard db it) := by
  obtain ⟨htype, hfresh, hr, hrun, hjob, hjobs, hruns, hpause, hwrite, hspecs⟩ := hit
  exact ⟨htype, hfresh, hr, hrun, hjob, hjobs, hruns, hpause, hwrite, hspecs⟩

theorem Iterates.selected (hit : Iterates db input it) (k : CardId) :
    Iterates db input (selectedCard db it k) := by
  obtain ⟨htype, hfresh, hr, hrun, hjob, hjobs, hruns, hpause, hwrite, hspecs⟩ := hit
  exact ⟨htype, hfresh, hr, hrun, hjob, hjobs, hruns, hpause, hwrite, hspecs⟩

theorem Iterates.repeated (hit : Iterates db input it) : Iterates db input { it with txn := {
    it.txn with events := it.txn.events ++ [.repetitionDetected it.run.experimentSpecId] } } := by
  obtain ⟨htype, hfresh, hr, hrun, hjob, hjobs, hruns, hpause, hwrite, hspecs⟩ := hit
  exact ⟨htype, hfresh, hr, hrun, hjob, hjobs, hruns, hpause, hwrite, hspecs⟩

theorem Iterates.resumed (hit : Iterates db input it) (gateDecision : LoopDecision) :
    Iterates db input { it with
      iterationNumber := gateDecision.iterationNumber
      contextSummaryPath := gateDecision.contextSummaryPath
      txn := { it.txn with
        events := it.txn.events ++ [.gateResumed it.cycleId (some it.runId)] } } := by
  obtain ⟨htype, hfresh, hr, hrun, hjob, hjobs, hruns, hpause, hwrite, hspecs⟩ := hit
  exact ⟨htype, hfresh, hr, hrun, hjob, hjobs, hruns, hpause, hwrite, hspecs⟩

theorem pivotHypothesis_exit (h : pivotHypothesis db it = .ok (txn, next))
    (hit : Iterates db input it) : Exit db input phase txn next := by
  cases pivotHypothesis_path h with
  | exhausted reasoning _ hstop => exact stopLoopWith_exit hstop hit.dropped
  | paused card k spec s gate _ _ _ hpause => exact pauseForGate_exit hpause (hit.selected k)
  | launched card k spec s _ _ _ hlaunch => exact launchRun_exit hlaunch (hit.selected k)
  | sessionless card k reasoning _ _ hstop => exact stopLoopWith_exit hstop (hit.selected k)
  | compiled card k session _ hsession hcompile =>
    obtain ⟨rfl, rfl⟩ := Prod.mk.inj hcompile
    exact .loopRecompiles phase _ it.runId it.run _ session hit.type hit.fresh hit.runId hit.run
      hsession ⟨rfl, rfl, rfl, rfl⟩ rfl ⟨rfl, rfl, rfl, rfl⟩ ⟨rfl, hit.runs, hit.pause⟩ hit.write

theorem actOnRecommendation_exit (h : actOnRecommendation db it = .ok (txn, next))
    (hit : Iterates db input it) : Exit db input phase txn next := by
  cases actOnRecommendation_path h with
  | stopped reasoning _ hstop => exact stopLoopWith_exit hstop hit
  | repeated spec _ _ _ hvary => exact varyParameters_exit hvary hit.repeated
  | paused spec gate _ _ _ hpause => exact pauseForGate_exit hpause hit
  | continued spec _ _ _ hlaunch => exact launchRun_exit hlaunch hit
  | pivoted _ hpivot => exact pivotHypothesis_exit hpivot hit
  | varied spec _ _ hvary => exact varyParameters_exit hvary hit

theorem summarizeContext_iterates {it' : Iteration} (h : summarizeContext it world = .ok it')
    (hit : Iterates db input it) : Iterates db input it' := by
  rcases summarizeContext_cases h with rfl | ⟨path, rfl⟩
  · exact hit
  · obtain ⟨htype, hfresh, hr, hrun, hjob, hjobs, hruns, hpause, hwrite, hspecs⟩ := hit
    exact ⟨htype, hfresh, hr, hrun, hjob, hjobs, hruns, hpause, hwrite, hspecs⟩

theorem updateHypothesisStatus_iterates {it' : Iteration}
    (h : updateHypothesisStatus db it = .ok it') (hit : Iterates db input it) :
    Iterates db input it' := by
  rcases updateHypothesisStatus_cases h with rfl | ⟨id, card, status, -, -, rfl⟩
  · exact hit
  · obtain ⟨htype, hfresh, hr, hrun, hjob, hjobs, hruns, hpause, hwrite, hspecs⟩ := hit
    exact ⟨htype, hfresh, hr, hrun, hjob, hjobs, hruns, hpause, hwrite, hspecs⟩

theorem proceed_exit (h : proceed db it world = .ok (txn, next)) (hit : Iterates db input it) :
    Exit db input phase txn next := by
  obtain ⟨summarized, updated, hsummarized, hupdated, h⟩ := proceed_eq_ok.mp h
  have hit := summarizeContext_iterates hsummarized hit
  exact actOnRecommendation_exit h (updateHypothesisStatus_iterates hupdated hit)

theorem countRun_iterates (hit : Iterates db input it) : Iterates db input (countRun db it) := by
  unfold countRun
  split
  · exact hit
  · obtain ⟨htype, hfresh, hr, hrun, hjob, hjobs, hruns, hpause, hwrite, hspecs⟩ := hit
    exact ⟨htype, hfresh, hr, hrun, hjob, hjobs, hruns, hpause, hwrite, hspecs⟩

theorem decideFresh_exit (h : decideFresh db it world = .ok (txn, next))
    (hit : Iterates db input it) : Exit db input phase txn next := by
  have hcounted := countRun_iterates hit
  cases decideFresh_path h with
  | exhausted exceeded _ hstop => exact stopLoopWith_exit hstop hcounted
  | paused gate _ _ hpause => exact pauseForGate_exit hpause hcounted
  | proceeds _ _ hproceed => exact proceed_exit hproceed hcounted

theorem opens_iterates (htype : input.jobType = .loopDecide) (h : Opens db input it) :
    Iterates db input it := by
  cases h with
  | rows recId runId recommendation run cycle hfresh hrec hr hrow hrun hcycle =>
    exact ⟨htype, hfresh, hr, hrun, rfl, rfl, rfl, rfl, rfl, rfl⟩

theorem loopDecide_exit (htype : input.jobType = .loopDecide)
    (h : loopDecideOperator db input world = .ok (txn, next)) : Exit db input phase txn next := by
  cases loopDecide_path h with
  | rejected error hreject => exact exit_rejectWith _ hreject
  | prepared prepared run hprepared hrun hlaunch =>
    obtain ⟨rfl, rfl⟩ := Prod.mk.inj hlaunch
    exact .preparedLaunch phase _ prepared run htype hprepared hrun ⟨rfl, rfl, rfl⟩ rfl
  | fresh it hopens _ hstep => exact decideFresh_exit hstep (opens_iterates htype hopens)
  | resumed it gateDecision hopens _ hstep =>
    exact proceed_exit hstep ((opens_iterates htype hopens).resumed gateDecision)

theorem loopReport_exit (htype : input.jobType = .loopReport)
    (h : loopReportOperator db input phase world = .ok (txn, next)) :
    Exit db input phase txn next := by
  unfold loopReportOperator at h
  split at h
  · obtain ⟨rfl, rfl⟩ := Prod.mk.inj (Except.ok.inj h)
    refine .loopClosed _ _ htype ?_ rfl rfl rfl
    dsimp only
    split
    · exact .inr rfl
    · exact .inl rfl
  · unfold writeCompletionReport at h
    split at h
    · exact exit_rejectWith _ (Except.ok.inj h)
    · obtain ⟨_, -, h⟩ := bind_eq_ok.mp h
      obtain ⟨rfl, rfl⟩ := Prod.mk.inj (pure_eq_ok.mp h)
      exact .reportWritten phase _ htype ⟨rfl, rfl, rfl⟩ rfl

theorem compiledRow (db : Db) {session : HypothesisSession} {payload : Payload}
    {cards : List (HypothesisCard × CardId)} {drafted : List CompiledSpec}
    {first : ExperimentSpec × Nat} {rest : List (ExperimentSpec × Nat)}
    (h : validRows (compiledRows session payload cards drafted) = first :: rest) :
    (db.specs ++ compiledRows session payload cards drafted)[db.specs.length + first.2]? =
        some first.1
      ∧ first.1.cycleId = session.cycleId := by
  have hmem : first ∈ (compiledRows session payload cards drafted).zipIdx := by
    have : first ∈ first :: rest := List.mem_cons_self
    rw [← h] at this
    exact (List.mem_filter.mp this).1
  have hget := List.mem_zipIdx_iff_getElem?.mp hmem
  constructor
  · rw [List.getElem?_append_right (Nat.le_add_right _ _), Nat.add_sub_cancel_left]
    exact hget
  · obtain ⟨row, -, hrow⟩ := List.mem_map.mp (List.mem_of_getElem? hget)
    rw [← hrow]
    rfl

theorem compileSpecs_exit (htype : input.jobType = .protocolCompile)
    (h : compileSpecs db input world = .ok (txn, next)) : Exit db input phase txn next := by
  cases compileSpecs_path h with
  | rejected error hreject => exact exit_rejectWith _ hreject
  | drafted sessionId row cards drafted hsession hrow _ _ hstep =>
    obtain ⟨rfl, rfl⟩ := Prod.mk.inj hstep
    rcases hvalid : validRows (compiledRows row input.payload cards drafted) with _ | ⟨first, rest⟩
    · rw [compiledNext_nil _ _ hvalid]
      exact .specsRejected phase _ _ htype ⟨rfl, rfl, rfl⟩ rfl
    · rw [compiledNext_cons _ _ hvalid]
      obtain ⟨hspec, hcycle⟩ := compiledRow db hvalid
      split
      · exact .specsCompiled phase _ sessionId row _ first.1 htype ‹_› hsession hrow hspec
          hcycle ⟨rfl, rfl, rfl⟩ rfl
      · rename_i hloop
        exact .protocolReady phase _ htype (by simpa using hloop) ⟨rfl, rfl, rfl⟩ rfl

theorem prepareRun_exit {specId : SpecId} (htype : input.jobType = .protocolCompile)
    (h : prepareRun db input specId = .ok (txn, next)) :
    Exit db input (.compiled specId) txn next := by
  cases prepareRun_path h with
  | missing error hreject => exact exit_rejectWith _ hreject
  | gated spec gate hspec hgate hstep =>
    obtain ⟨rfl, rfl⟩ := Prod.mk.inj hstep
    exact .runGated specId _ spec _ _ htype hspec hgate ⟨rfl, rfl, rfl, rfl⟩ ⟨rfl, rfl, rfl⟩ rfl
  | launched spec hspec hgate hstep =>
    obtain ⟨rfl, rfl⟩ := Prod.mk.inj hstep
    exact .runPrepared specId _ spec _ htype hspec hgate ⟨rfl, rfl, rfl, rfl⟩ ⟨rfl, rfl, rfl⟩ rfl

theorem protocolCompile_exit (htype : input.jobType = .protocolCompile)
    (h : protocolCompileOperator db input phase world = .ok (txn, next)) :
    Exit db input phase txn next := by
  unfold protocolCompileOperator at h
  split at h
  · exact prepareRun_exit htype h
  · exact compileSpecs_exit htype h

theorem relay_exit (htype : isRelay input.jobType = true)
    (h : relayOperator db input world = .ok (txn, next)) : Exit db input phase txn next := by
  unfold relayOperator at h
  obtain ⟨_, -, h⟩ := bind_eq_ok.mp h
  obtain ⟨rfl, rfl⟩ := Prod.mk.inj (pure_eq_ok.mp h)
  exact .relayed phase _ htype rfl rfl rfl rfl

theorem handler_exit (h : handler db input phase world = .ok (txn, next)) :
    Exit db input phase txn next := by
  unfold handler at h
  split at h
  · exact protocolCompile_exit ‹_› h
  · exact executionSetup_exit ‹_› h
  · exact executionRun_exit ‹_› h
  · exact executionCapture_exit ‹_› h
  · exact verificationCheck_exit ‹_› h
  · exact verificationPostmortem_exit ‹_› h
  · exact autoRemediate_exit ‹_› h
  · exact signalClassify_exit ‹_› h
  · exact recommend_exit ‹_› h
  · exact loopDecide_exit ‹_› h
  · exact loopReport_exit ‹_› h
  · refine relay_exit ?_ h
    unfold isRelay
    split <;> first | rfl | exact absurd ‹input.jobType = _› ‹_›

theorem execute_cases (h : execute db input phase world = (txn, next)) :
    handler db input phase world = .ok (txn, next) ∨ ∃ error, rejectWith error = (txn, next) := by
  unfold execute at h
  dsimp only at h
  split at h
  · rename_i out hout
    subst h
    split at hout
    · exact absurd hout nofun
    · exact .inl hout
  · exact .inr ⟨_, h⟩

theorem execute_exit (h : execute db input phase world = (txn, next)) :
    Exit db input phase txn next := by
  rcases execute_cases h with h | ⟨error, h⟩
  · exact handler_exit h
  · exact exit_rejectWith _ h

end Synthetos.Worker
