import Synthetos.Worker.LoopExits

/-!
# What an operator step files about a run

Verification, remediation, signals, recommendations and loop decisions leave rows about a run, each
with the job that goes on from it.
-/

namespace Synthetos.Worker

open Synthetos.Core Storage Lib Autonomy Execution Protocols Remediation Verification

/-- The transaction leaves the tables about runs as they are. -/
structure Unrecorded (txn : Txn) : Prop where
  reports : txn.newReports = []
  links : txn.reportUpdate = none
  postmortems : txn.newPostmortems = []
  actions : txn.newActions = []
  signal : txn.signal = none
  recommendation : txn.recommendation = none

/-- The job takes up a row about a run. -/
def takesUp (jobType : JobType) : Bool :=
  match jobType with
  | .autoRemediate | .verificationPostmortem | .signalClassify | .recommend => true
  | _ => false

/-- The job takes up nothing that is recorded about a run. -/
structure Unprompted (job : Job) : Prop where
  fresh : takesUp job.jobType = false
  decides : job.jobType = .loopDecide → job.payload.runRecordId = none
  compiles : job.jobType = .protocolCompile → job.payload.loopContext = none

/-- The operator that goes on from a verdict. -/
def handlerOf (verdict : Verdict) : JobType :=
  if verdict = .failed then .autoRemediate else .signalClassify

structure ActionFor (run : RunRecord) (r : RunId) (retry : Option RunId)
    (row : RemediationAction) : Prop where
  target : row.runRecordId = r
  retried : row.retryRunId = retry
  charter : row.charterId = run.charterId
  cycle : row.cycleId = run.cycleId
  spec : row.experimentSpecId = run.experimentSpecId

/-- The rows of a decided iteration name its run and recommendation. -/
structure Signed (it : Iteration) (txn : Txn) : Prop where
  record : Unrecorded txn
  rows : ∀ row ∈ txn.newDecisions, row.runRecordId = it.runId ∧ row.recommendationId = it.recId ∧
    row.cycleId = it.cycleId
  jobs : ∀ job ∈ txn.newJobs, takesUp job.jobType = false ∧ job.jobType ≠ .loopDecide ∧
    ∀ context, job.payload.loopContext = some context → context.runRecordId = it.runId ∧
      context.recommendationId = it.recId ∧ job.cycleId = some it.cycleId

/-- The id under which the signal of a run is stored. -/
def signalId (db : Db) (r : RunId) : SignalId :=
  Table.upsertId db.signals fun old => old.runRecordId == r

def recommendationOf (db : Db) (r : RunId) : RecommendationId :=
  Table.upsertId db.recommendations fun old => old.runRecordId == r

def linkSignal (db : Db) (r : RunId) (report : VerificationReport) : VerificationReport :=
  { report with directionalSignalId := some (signalId db r) }

def linkRecommendation (db : Db) (r : RunId) (report : VerificationReport) : VerificationReport :=
  { report with recommendationId := some (recommendationOf db r) }

/-- The transaction links the reports of a run to a row. -/
def linkReports (r : RunId) (links : Bool) (link : VerificationReport → VerificationReport) :
    Option (RunId × (VerificationReport → VerificationReport)) :=
  if links then some (r, link) else none

/-- The transactions of the operators, as far as rows about runs and the jobs that take them up are
concerned. -/
inductive Filed (db : Db) (input : OperatorInput) (phase : Phase) (txn : Txn) : Prop where
  | plain (hrecord : Unrecorded txn) (hdecisions : txn.newDecisions = [])
      (hjobs : ∀ job ∈ txn.newJobs, Unprompted job) : Filed db input phase txn
  | reported (r : RunId) (run : RunRecord) (verdict : Verdict) (events : List DomainEvent)
      (hrun : db.runs[r]? = some run)
      (h : { newReports := [reportFor run r verdict]
             newJobs := [enqueueNext db run.cycleId (handlerOf verdict) r], events } = txn)
  | declined (r : RunId) (run : RunRecord) (row : RemediationAction) (events : List DomainEvent)
      (htype : input.jobType = .autoRemediate) (hr : input.payload.runRecordId = some r)
      (hrun : db.runs[r]? = some run) (hrow : ActionFor run r none row)
      (h : { newActions := [row]
             newJobs := [enqueueNext db run.cycleId .verificationPostmortem r], events } = txn)
  | retried (r : RunId) (run : RunRecord) (row : RemediationAction) (events : List DomainEvent)
      (htype : input.jobType = .autoRemediate) (hr : input.payload.runRecordId = some r)
      (hrun : db.runs[r]? = some run) (hrow : ActionFor run r (some db.runs.length) row)
      (h : { newRuns := [retryRun run r], newActions := [row]
             newJobs := [enqueueNext db run.cycleId .executionSetup db.runs.length]
             events } = txn)
  | explained (r : RunId) (run : RunRecord) (row : FailurePostmortem) (events : List DomainEvent)
      (htype : input.jobType = .verificationPostmortem) (hr : input.payload.runRecordId = some r)
      (hrun : db.runs[r]? = some run)
      (hrow : row.runRecordId = r ∧ row.charterId = run.charterId ∧ row.cycleId = run.cycleId)
      (hreport : ∀ k, row.verificationReportId = some k →
        ∃ report, db.reports[k]? = some report ∧ report.runRecordId = r)
      (h : { newPostmortems := [row]
             newJobs := [createJob db (some run.cycleId) .recommend
               { runRecordId := some r, failed := true } 10], events } = txn)
  | unclassified (r : RunId) (run : RunRecord) (htype : input.jobType = .signalClassify)
      (hr : input.payload.runRecordId = some r) (hrun : db.runs[r]? = some run)
      (h : { newJobs := [enqueueNext db run.cycleId .recommend r] } = txn)
  | classified (r : RunId) (run : RunRecord) (row : DirectionalSignal)
      (links : Bool) (frontier : Option MetricFrontier) (events : List DomainEvent)
      (htype : input.jobType = .signalClassify) (hr : input.payload.runRecordId = some r)
      (hrun : db.runs[r]? = some run)
      (hrow : row.runRecordId = r ∧ row.charterId = run.charterId ∧ row.cycleId = run.cycleId ∧
        row.experimentSpecId = run.experimentSpecId)
      (h : { signal := some row
             reportUpdate := linkReports r links (linkSignal db r)
             frontier, newJobs := [enqueueNext db run.cycleId .recommend r], events } = txn)
  | recommended (r : RunId) (run : RunRecord) (row : RunRecommendation) (links : Bool)
      (jobs : List Job) (events : List DomainEvent) (htype : input.jobType = .recommend)
      (hr : input.payload.runRecordId = some r) (hrun : db.runs[r]? = some run)
      (hrow : row.runRecordId = r ∧ row.charterId = run.charterId ∧ row.cycleId = run.cycleId ∧
        row.experimentSpecId = run.experimentSpecId)
      (hjobs : ∀ job ∈ jobs, job = createJob db (some run.cycleId) .loopDecide
        { runRecordId := some r, recommendationId := some (recommendationOf db r) } 5)
      (h : { recommendation := some row
             reportUpdate := linkReports r links (linkRecommendation db r)
             newJobs := jobs, events } = txn)
  | decided (it : Iteration) (htype : input.jobType = .loopDecide) (hit : Opens db input it)
      (hsigned : Signed it txn)
  | gated (specId : SpecId) (spec : ExperimentSpec) (context : LoopContext) (row : LoopDecision)
      (htype : input.jobType = .protocolCompile) (hphase : phase = .compiled specId)
      (hspec : db.specs[specId]? = some spec)
      (hcontext : input.payload.loopContext = some context) (hrecord : Unrecorded txn)
      (hdecisions : txn.newDecisions = [row]) (hrow : row.runRecordId = context.runRecordId ∧
        row.recommendationId = context.recommendationId ∧ row.cycleId = spec.cycleId)
      (hjobs : ∀ job ∈ txn.newJobs, Unprompted job)

variable {db : Db} {input : OperatorInput} {phase : Phase} {world : External} {txn : Txn}
  {next : Core.Next} {it it' : Iteration} {spec : ExperimentSpec}

theorem filed_rejected (db : Db) (input : OperatorInput) (phase : Phase) :
    Filed db input phase {} :=
  .plain ⟨rfl, rfl, rfl, rfl, rfl, rfl⟩ rfl (List.forall_mem_nil _)

theorem plain_quiet (hrecord : Unrecorded txn) (hdecisions : txn.newDecisions = [])
    (hjobs : txn.newJobs = []) : Filed db input phase txn :=
  .plain hrecord hdecisions (by rw [hjobs]; exact List.forall_mem_nil _)

theorem plain_enqueues {job : Job} (hrecord : Unrecorded txn) (hdecisions : txn.newDecisions = [])
    (hjobs : txn.newJobs = [job]) (hjob : Unprompted job) : Filed db input phase txn :=
  .plain hrecord hdecisions (by rw [hjobs]; exact List.forall_mem_singleton.mpr hjob)

theorem filed_of_pure {out : Txn × Core.Next}
    (h : (pure out : Except String (Txn × Core.Next)) = .ok (txn, next))
    (hout : Filed db input phase out.1) : Filed db input phase txn := by
  rw [pure_eq_ok.mp h] at hout
  exact hout

/-! ### Verification and remediation -/

theorem verificationCheck_filed (h : verificationCheckOperator db input world = .ok (txn, next)) :
    Filed db input phase txn := by
  unfold verificationCheckOperator at h
  split at h
  · rename_i r _
    obtain ⟨run, hrun, h⟩ := bind_eq_ok.mp h
    have hrow := loadRunRecord_eq_ok hrun
    split at h
    · split at h
      · exact filed_of_pure h (.reported r run .failed _ hrow rfl)
      · split at h
        · exact filed_of_pure h (.reported r run .failed _ hrow rfl)
        · rename_i hpassed
          have hfiled := @Filed.reported db input phase _ r run world.verdict
            [.checkCompleted r world.verdict] hrow rfl
          rw [handlerOf, if_neg hpassed] at hfiled
          exact filed_of_pure h hfiled
    · exact filed_of_pure h (filed_rejected ..)
  · exact filed_of_pure h (filed_rejected ..)

theorem reportsOf_row {r : RunId} {found : Option (VerificationReport × Nat)}
    (h : Db.scalarOneOrNone (reportsOf db r) = .ok found) {k : Nat}
    (hk : found.map Prod.snd = some k) :
    ∃ report, db.reports[k]? = some report ∧ report.runRecordId = r := by
  obtain ⟨⟨report, place⟩, rfl, rfl⟩ := Option.map_eq_some_iff.mp hk
  have hmem : (report, place) ∈ reportsOf db r := by
    unfold Db.scalarOneOrNone at h
    split at h
    · exact absurd (Except.ok.inj h) nofun
    · rename_i row hrow
      rw [hrow, Option.some.inj (Except.ok.inj h)]
      exact List.mem_singleton_self _
    · exact absurd h nofun
  obtain ⟨hrow, hrun⟩ := List.mem_filter.mp hmem
  exact ⟨report, List.mk_mem_zipIdx_iff_getElem?.mp hrow, beq_iff_eq.mp hrun⟩

theorem verificationPostmortem_filed (htype : input.jobType = .verificationPostmortem)
    (h : verificationPostmortemOperator db input world = .ok (txn, next)) :
    Filed db input phase txn := by
  unfold verificationPostmortemOperator at h
  split at h
  · rename_i r hr
    obtain ⟨run, hrun, h⟩ := bind_eq_ok.mp h
    obtain ⟨report, hreport, h⟩ := bind_eq_ok.mp h
    exact filed_of_pure h (.explained r run _ _ htype hr (loadRunRecord_eq_ok hrun) ⟨rfl, rfl, rfl⟩
      (fun k hk => reportsOf_row hreport hk) rfl)
  · exact filed_of_pure h (filed_rejected ..)

theorem autoRemediate_filed (htype : input.jobType = .autoRemediate)
    (h : autoRemediateOperator db input world = .ok (txn, next)) : Filed db input phase txn := by
  cases autoRemediate_path h with
  | unnamed _ _ hstep =>
    obtain ⟨rfl, -⟩ := Prod.mk.inj hstep
    exact filed_rejected ..
  | exhausted r run _ hr hrun _ hstep | skipped r run _ hr hrun _ hstep
  | unfixed r run _ hr hrun _ hstep =>
    obtain ⟨rfl, -⟩ := Prod.mk.inj hstep
    exact .declined r run _ _ htype hr hrun ⟨rfl, rfl, rfl, rfl, rfl⟩ rfl
  | retried r run _ strat hr hrun _ _ _ hstep =>
    obtain ⟨rfl, -⟩ := Prod.mk.inj hstep
    exact .retried r run _ _ htype hr hrun ⟨rfl, rfl, rfl, rfl, rfl⟩ rfl

/-! ### Signals and recommendations -/

theorem linkReports_of {r : RunId} {Row : Type} (found : Option Row)
    (link : VerificationReport → VerificationReport) :
    (found.map fun _ => (r, link)) = linkReports r found.isSome link := by
  cases found <;> rfl

theorem signalClassify_filed (htype : input.jobType = .signalClassify)
    (h : signalClassifyOperator db input = .ok (txn, next)) : Filed db input phase txn := by
  unfold signalClassifyOperator at h
  split at h
  · rename_i r hr
    obtain ⟨run, hrun, h⟩ := bind_eq_ok.mp h
    obtain ⟨spec, -, h⟩ := bind_eq_ok.mp h
    have hrow := loadRunRecord_eq_ok hrun
    split at h
    · dsimp only at h
      split at h
      · split at h
        · obtain ⟨report, -, h⟩ := bind_eq_ok.mp h
          refine filed_of_pure h (.classified r run ?row report.isSome ?frontier ?events htype
            hr hrow ?fields ?step)
          case step =>
            rw [← linkReports_of]
            rfl
          case fields => exact ⟨rfl, rfl, rfl, rfl⟩
        · exact filed_of_pure h (.unclassified r run htype hr hrow rfl)
      · exact filed_of_pure h (.unclassified r run htype hr hrow rfl)
    · exact filed_of_pure h (.unclassified r run htype hr hrow rfl)
  · exact filed_of_pure h (filed_rejected ..)

theorem recommend_filed (htype : input.jobType = .recommend)
    (h : recommendOperator db input = .ok (txn, next)) : Filed db input phase txn := by
  unfold recommendOperator at h
  split at h
  · rename_i r hr
    obtain ⟨run, hrun, h⟩ := bind_eq_ok.mp h
    obtain ⟨spec, -, h⟩ := bind_eq_ok.mp h
    obtain ⟨report, -, h⟩ := bind_eq_ok.mp h
    have hrow := loadRunRecord_eq_ok hrun
    dsimp only at h
    split at h
    · refine filed_of_pure h (.recommended r run ?row report.isSome _ ?events htype hr hrow
        ?fields (List.forall_mem_singleton.mpr rfl) ?step)
      case step =>
        rw [← linkReports_of]
        rfl
      case fields => exact ⟨rfl, rfl, rfl, rfl⟩
    · refine filed_of_pure h (.recommended r run ?row' report.isSome _ ?events' htype hr hrow
        ?fields' (List.forall_mem_nil _) ?step')
      case step' =>
        rw [← linkReports_of]
        rfl
      case fields' => exact ⟨rfl, rfl, rfl, rfl⟩
  · exact filed_of_pure h (filed_rejected ..)

/-! ### Loop decisions -/

/-- The iterations are for one run and recommendation, and neither has recorded anything. -/
structure SameCase (it it' : Iteration) : Prop where
  runId : it'.runId = it.runId
  recId : it'.recId = it.recId
  cycle : it'.cycleId = it.cycleId
  record : Unrecorded it.txn → Unrecorded it'.txn
  jobs : it'.txn.newJobs = it.txn.newJobs

theorem SameCase.refl (it : Iteration) : SameCase it it := ⟨rfl, rfl, rfl, id, rfl⟩

theorem SameCase.trans {it'' : Iteration} (h : SameCase it it') (h' : SameCase it' it'') :
    SameCase it it'' :=
  ⟨h'.runId.trans h.runId, h'.recId.trans h.recId, h'.cycle.trans h.cycle,
    fun hrecord => h'.record (h.record hrecord), h'.jobs.trans h.jobs⟩

/-- The step rejects the job, or files what the iteration came to. -/
def Answers (it : Iteration) (step : Txn × Core.Next) : Prop :=
  Unrecorded it.txn → it.txn.newJobs = [] → (∃ error, step = rejectWith error) ∨ Signed it step.1

theorem Answers.of_same {step : Txn × Core.Next} (hsame : SameCase it it') (h : Answers it' step) :
    Answers it step := by
  intro hrecord hjobs
  refine (h (hsame.record hrecord) (hsame.jobs.trans hjobs)).imp_right fun hsigned => ?_
  refine ⟨hsigned.record, ?_, ?_⟩
  · rw [← hsame.runId, ← hsame.recId, ← hsame.cycle]
    exact hsigned.rows
  · rw [← hsame.runId, ← hsame.recId, ← hsame.cycle]
    exact hsigned.jobs

theorem signed_rows {decision : Decision} {reasoning : String} {gate : Option GateName}
    {nextCard : Option CardId} {nextAction : Option String} :
    ∀ row ∈ [decisionRow it decision reasoning gate nextCard nextAction],
      row.runRecordId = it.runId ∧ row.recommendationId = it.recId ∧ row.cycleId = it.cycleId :=
  List.forall_mem_singleton.mpr ⟨rfl, rfl, rfl⟩

theorem stopLoopWith_answers {decision : Decision} {reasoning : String} :
    Answers it (stopLoopWith db it decision reasoning) := fun hrecord _ =>
  .inr ⟨⟨hrecord.reports, hrecord.links, hrecord.postmortems, hrecord.actions, hrecord.signal,
    hrecord.recommendation⟩, signed_rows,
    List.forall_mem_singleton.mpr ⟨rfl, (by decide : JobType.loopReport ≠ .loopDecide), nofun⟩⟩

theorem pauseForGate_answers {gate : GateResult} : Answers it (pauseForGate it gate) :=
  fun hrecord hjobs =>
    .inr ⟨⟨hrecord.reports, hrecord.links, hrecord.postmortems, hrecord.actions, hrecord.signal,
      hrecord.recommendation⟩, signed_rows, fun job hjob => by
        change job ∈ it.txn.newJobs at hjob
        rw [hjobs] at hjob
        exact absurd hjob List.not_mem_nil⟩

theorem launchRun_answers {target : SpecId} {decision : Decision} {reasoning : String}
    {nextCard : Option CardId} : Answers it (launchRun db it target decision reasoning nextCard) :=
  fun hrecord _ =>
    .inr ⟨⟨hrecord.reports, hrecord.links, hrecord.postmortems, hrecord.actions, hrecord.signal,
      hrecord.recommendation⟩, signed_rows,
      List.forall_mem_singleton.mpr ⟨rfl, (by decide : JobType.executionSetup ≠ .loopDecide), nofun⟩⟩

theorem signed_compile {payload : Payload} (h : payload.loopContext = some (loopContext it)) :
    ∀ job ∈ [createJob db (some it.cycleId) .protocolCompile payload 10],
      takesUp job.jobType = false ∧ job.jobType ≠ .loopDecide ∧
        ∀ context, job.payload.loopContext = some context → context.runRecordId = it.runId ∧
          context.recommendationId = it.recId ∧ job.cycleId = some it.cycleId := by
  refine List.forall_mem_singleton.mpr ⟨rfl, (by decide : JobType.protocolCompile ≠ .loopDecide),
    fun context hcontext => ?_⟩
  obtain rfl := Option.some.inj (h.symm.trans hcontext)
  exact ⟨rfl, rfl, rfl⟩

theorem varyParameters_answers : Answers it (varyParameters db it spec) := by
  intro hrecord _
  unfold varyParameters
  split
  · exact .inl ⟨_, rfl⟩
  · exact .inr ⟨⟨hrecord.reports, hrecord.links, hrecord.postmortems, hrecord.actions,
      hrecord.signal, hrecord.recommendation⟩, signed_rows, signed_compile rfl⟩

/-- A change of the iteration that leaves its run, its recommendation and all but its events and
card statuses. -/
theorem sameCase_of_txn {statuses : List (CardId × CardStatus)} {events : List DomainEvent}
    (h : it' = { it with
      iterationNumber := it'.iterationNumber
      contextSummaryPath := it'.contextSummaryPath
      txn := { it.txn with cardStatuses := statuses, events := events } }) : SameCase it it' := by
  rw [h]
  exact ⟨rfl, rfl, rfl, fun hrecord => ⟨hrecord.reports, hrecord.links, hrecord.postmortems,
    hrecord.actions, hrecord.signal, hrecord.recommendation⟩, rfl⟩

theorem selectedCard_same (db : Db) (it : Iteration) (k : CardId) :
    SameCase it (selectedCard db it k) := sameCase_of_txn rfl

theorem answers_of_eq {out step : Txn × Core.Next} (h : out = step) (hout : Answers it out) :
    Answers it step := by
  rwa [h] at hout

theorem pivotHypothesis_answers {step : Txn × Core.Next} (h : pivotHypothesis db it = .ok step) :
    Answers it step := by
  cases pivotHypothesis_path h with
  | exhausted _ _ hstop =>
    have hsame : SameCase it (droppedCard db it) := sameCase_of_txn rfl
    exact answers_of_eq hstop (.of_same hsame stopLoopWith_answers)
  | paused _ k _ _ _ _ _ _ hpause =>
    exact answers_of_eq hpause (.of_same (selectedCard_same db it k) pauseForGate_answers)
  | launched _ k _ _ _ _ _ hlaunch =>
    exact answers_of_eq hlaunch (.of_same (selectedCard_same db it k) launchRun_answers)
  | sessionless _ k _ _ _ hstop =>
    exact answers_of_eq hstop (.of_same (selectedCard_same db it k) stopLoopWith_answers)
  | compiled _ k session _ _ hcompile =>
    obtain rfl := hcompile
    exact fun hrecord _ =>
      .inr ⟨⟨hrecord.reports, hrecord.links, hrecord.postmortems, hrecord.actions,
        hrecord.signal, hrecord.recommendation⟩,
        List.forall_mem_singleton.mpr ⟨rfl, rfl, rfl⟩, signed_compile rfl⟩

theorem actOnRecommendation_answers {step : Txn × Core.Next}
    (h : actOnRecommendation db it = .ok step) : Answers it step := by
  cases actOnRecommendation_path h with
  | stopped _ _ hstop => exact answers_of_eq hstop stopLoopWith_answers
  | repeated spec _ _ _ hvary =>
    exact answers_of_eq hvary (.of_same (sameCase_of_txn rfl) varyParameters_answers)
  | paused _ _ _ _ _ hpause => exact answers_of_eq hpause pauseForGate_answers
  | continued _ _ _ _ hlaunch => exact answers_of_eq hlaunch launchRun_answers
  | pivoted _ hpivot => exact pivotHypothesis_answers hpivot
  | varied _ _ _ hvary => exact answers_of_eq hvary varyParameters_answers

theorem proceed_answers {step : Txn × Core.Next} (h : proceed db it world = .ok step) :
    Answers it step := by
  obtain ⟨summarized, updated, hsummarized, hupdated, h⟩ := proceed_eq_ok.mp h
  have hsummary : SameCase it summarized := by
    rcases summarizeContext_cases hsummarized with rfl | ⟨path, rfl⟩
    · exact .refl summarized
    · exact sameCase_of_txn rfl
  have hupdate : SameCase summarized updated := by
    rcases updateHypothesisStatus_cases hupdated with rfl | ⟨id, card, status, -, -, rfl⟩
    · exact .refl updated
    · exact sameCase_of_txn rfl
  exact .of_same (hsummary.trans hupdate) (actOnRecommendation_answers h)

theorem countRun_same (db : Db) (it : Iteration) : SameCase it (countRun db it) := by
  unfold countRun
  split
  · exact .refl it
  · exact ⟨rfl, rfl, rfl, fun hrecord => ⟨hrecord.reports, hrecord.links, hrecord.postmortems,
      hrecord.actions, hrecord.signal, hrecord.recommendation⟩, rfl⟩

theorem decideFresh_answers {step : Txn × Core.Next} (h : decideFresh db it world = .ok step) :
    Answers it step := by
  have hsame := countRun_same db it
  cases decideFresh_path h with
  | exhausted _ _ hstop => exact answers_of_eq hstop (.of_same hsame stopLoopWith_answers)
  | paused _ _ _ hpause => exact answers_of_eq hpause (.of_same hsame pauseForGate_answers)
  | proceeds _ _ hproceed => exact .of_same hsame (proceed_answers hproceed)

theorem decideResumed_answers {gateDecision : LoopDecision} {step : Txn × Core.Next}
    (h : decideResumed db it gateDecision world = .ok step) : Answers it step := by
  unfold decideResumed at h
  dsimp only at h
  exact .of_same (sameCase_of_txn rfl) (proceed_answers h)

theorem filed_of_answers (htype : input.jobType = .loopDecide) (hit : Opens db input it)
    (h : Answers it (txn, next)) : Filed db input phase txn := by
  have htxn := hit.txn_eq
  rcases h (by rw [htxn]; exact ⟨rfl, rfl, rfl, rfl, rfl, rfl⟩) (by rw [htxn]) with
    ⟨error, hreject⟩ | hsigned
  · obtain ⟨rfl, -⟩ := Prod.mk.inj hreject
    exact filed_rejected ..
  · exact .decided it htype hit hsigned

theorem loopDecide_filed (htype : input.jobType = .loopDecide)
    (h : loopDecideOperator db input world = .ok (txn, next)) : Filed db input phase txn := by
  cases loopDecide_path h with
  | rejected _ hstep =>
    obtain ⟨rfl, -⟩ := Prod.mk.inj hstep
    exact filed_rejected ..
  | prepared r run _ _ hstep =>
    obtain ⟨rfl, -⟩ := Prod.mk.inj hstep
    have hjob : Unprompted (enqueueNext db run.cycleId .executionSetup r) := ⟨rfl, nofun, nofun⟩
    exact plain_enqueues ⟨rfl, rfl, rfl, rfl, rfl, rfl⟩ rfl rfl hjob
  | fresh it hopens _ hstep => exact filed_of_answers htype hopens (decideFresh_answers hstep)
  | resumed it _ hopens _ hstep => exact filed_of_answers htype hopens (decideResumed_answers hstep)

/-! ### The compiler -/

theorem loopGateDecision_row (db : Db) (spec : ExperimentSpec) (budget : AutonomyBudget)
    (context : Option LoopContext) (gate : GateResult) :
    loopGateDecision db spec budget context gate = [] ∨
      ∃ asked row, context = some asked ∧ loopGateDecision db spec budget context gate = [row] ∧
        row.runRecordId = asked.runRecordId ∧ row.recommendationId = asked.recommendationId ∧
          row.cycleId = spec.cycleId := by
  unfold loopGateDecision
  split
  · exact .inr ⟨_, _, rfl, rfl, rfl, rfl, rfl⟩
  · exact .inl rfl

theorem prepareRun_filed {specId : SpecId} (htype : input.jobType = .protocolCompile)
    (h : prepareRun db input specId = .ok (txn, next)) :
    Filed db input (.compiled specId) txn := by
  cases prepareRun_path h with
  | missing _ hreject =>
    obtain ⟨rfl, -⟩ := Prod.mk.inj hreject
    exact filed_rejected ..
  | gated spec gate hspec hgate hstep =>
    obtain ⟨rfl, -⟩ := Prod.mk.inj hstep
    have hjob : Unprompted (preparedJob db spec.cycleId db.runs.length) :=
      ⟨rfl, fun _ => rfl, nofun⟩
    rcases loopGateDecision_row db spec (loadOrCreateBudget db spec.cycleId)
      input.payload.loopContext gate with hnone | ⟨context, row, hcontext, hrow, hcolumns⟩
    · exact plain_enqueues ⟨rfl, rfl, rfl, rfl, rfl, rfl⟩ hnone rfl hjob
    · exact .gated specId spec context row htype rfl hspec hcontext ⟨rfl, rfl, rfl, rfl, rfl, rfl⟩
        hrow hcolumns (List.forall_mem_singleton.mpr hjob)
  | launched spec hspec hgate hstep =>
    obtain ⟨rfl, -⟩ := Prod.mk.inj hstep
    have hjob : Unprompted (enqueueNext db spec.cycleId .executionSetup db.runs.length) :=
      ⟨rfl, nofun, nofun⟩
    exact plain_enqueues ⟨rfl, rfl, rfl, rfl, rfl, rfl⟩ rfl rfl hjob

theorem compileSpecs_filed (h : compileSpecs db input world = .ok (txn, next)) :
    Filed db input phase txn := by
  cases compileSpecs_path h with
  | rejected _ hreject =>
    obtain ⟨rfl, -⟩ := Prod.mk.inj hreject
    exact filed_rejected ..
  | drafted _ _ _ _ _ _ _ _ hstep =>
    obtain ⟨rfl, -⟩ := Prod.mk.inj hstep
    exact plain_quiet ⟨rfl, rfl, rfl, rfl, rfl, rfl⟩ rfl rfl

/-! ### The other operators -/

theorem unprompted_next {c : CycleId} {t : JobType} {r : RunId} (hfresh : takesUp t = false)
    (ht : t ≠ .loopDecide) : Unprompted (enqueueNext db c t r) :=
  ⟨hfresh, fun h => absurd h ht, fun _ => rfl⟩

/-- The operators of the execution pipeline write runs, jobs and events. -/
theorem filed_of_jobs {out : Txn × Core.Next}
    (h : (pure out : Except String (Txn × Core.Next)) = .ok (txn, next))
    (hwrites : out.1 = { runUpdate := out.1.runUpdate, newJobs := out.1.newJobs
                         events := out.1.events })
    (hjobs : ∀ job ∈ out.1.newJobs, Unprompted job) : Filed db input phase txn := by
  refine filed_of_pure h (.plain ?_ ?_ hjobs)
  · rw [hwrites]
    exact ⟨rfl, rfl, rfl, rfl, rfl, rfl⟩
  · rw [hwrites]

theorem executionSetup_filed (h : executionSetupOperator db input world = .ok (txn, next)) :
    Filed db input phase txn := by
  unfold executionSetupOperator at h
  split at h
  · obtain ⟨run, -, h⟩ := bind_eq_ok.mp h
    split at h
    · split at h
      · exact filed_of_jobs h rfl (List.forall_mem_nil _)
      · obtain ⟨_, -, h⟩ := bind_eq_ok.mp h
        split at h
        · exact filed_of_jobs h rfl (List.forall_mem_nil _)
        · split at h
          · exact filed_of_jobs h rfl (List.forall_mem_nil _)
          · split at h
            · exact filed_of_jobs h rfl
                (List.forall_mem_singleton.mpr (unprompted_next rfl (by decide)))
            · exact filed_of_jobs h rfl (List.forall_mem_nil _)
            · exact filed_of_jobs h rfl
                (List.forall_mem_singleton.mpr (unprompted_next rfl (by decide)))
    · exact filed_of_jobs h rfl (List.forall_mem_nil _)
  · exact filed_of_jobs h rfl (List.forall_mem_nil _)

theorem executionRun_filed (h : executionRunOperator db input phase world = .ok (txn, next)) :
    Filed db input phase txn := by
  unfold executionRunOperator at h
  split at h
  · refine filed_of_jobs h ?_ ?_ <;> unfold executionRunLaunch <;> split <;>
      first | rfl | exact List.forall_mem_nil _
  · refine filed_of_jobs h ?_ ?_ <;> unfold executionRunPoll <;> split <;> try split
    all_goals first | rfl | exact List.forall_mem_nil _
  · refine filed_of_jobs h ?_ ?_ <;> unfold executionRunCheck <;> split <;>
      first | rfl | exact List.forall_mem_nil _
  · obtain ⟨run, -, h⟩ := bind_eq_ok.mp h
    unfold executionRunRecord at h
    split at h
    · exact filed_of_jobs h rfl (List.forall_mem_nil _)
    · exact filed_of_jobs h rfl (List.forall_mem_nil _)
    · dsimp only at h
      split at h <;> exact filed_of_jobs h rfl
        (List.forall_mem_singleton.mpr (unprompted_next rfl (by decide)))
  · unfold executionRunStart at h
    split at h
    · obtain ⟨run, -, h⟩ := bind_eq_ok.mp h
      split at h <;> exact filed_of_jobs h rfl (List.forall_mem_nil _)
    · exact filed_of_jobs h rfl (List.forall_mem_nil _)

theorem executionCapture_filed (h : executionCaptureOperator db input world = .ok (txn, next)) :
    Filed db input phase txn := by
  unfold executionCaptureOperator at h
  split at h
  · obtain ⟨run, -, h⟩ := bind_eq_ok.mp h
    split at h
    · split at h <;> exact filed_of_jobs h rfl
        (List.forall_mem_singleton.mpr (unprompted_next rfl (by decide)))
    · exact filed_of_jobs h rfl (List.forall_mem_nil _)
  · exact filed_of_jobs h rfl (List.forall_mem_nil _)

theorem loopReport_filed (h : loopReportOperator db input phase world = .ok (txn, next)) :
    Filed db input phase txn := by
  unfold loopReportOperator at h
  split at h
  · refine filed_of_jobs h rfl ?_
    unfold enqueueConsolidationJob
    dsimp only [succeedWith]
    split
    · exact List.forall_mem_singleton.mpr ⟨rfl, nofun, nofun⟩
    · exact List.forall_mem_nil _
  · unfold writeCompletionReport at h
    split at h
    · exact filed_of_jobs h rfl (List.forall_mem_nil _)
    · obtain ⟨_, -, h⟩ := bind_eq_ok.mp h
      exact filed_of_jobs h rfl (List.forall_mem_nil _)

/-- No pipeline operator is followed by one that takes up the rows of a run. -/
theorem relayOf_fresh {t t' : JobType} (h : (relayOf t).1 = some t') :
    takesUp t' = false ∧ t' ≠ .loopDecide ∧ t' ≠ .protocolCompile := by
  cases t <;> first
    | obtain rfl := Option.some.inj h
      decide
    | cases h

theorem relay_filed (h : relayOperator db input world = .ok (txn, next)) :
    Filed db input phase txn := by
  unfold relayOperator at h
  obtain ⟨_, -, h⟩ := bind_eq_ok.mp h
  refine filed_of_jobs h rfl fun job hjob => ?_
  obtain ⟨t, ht, rfl⟩ := List.mem_map.mp hjob
  obtain ⟨hfresh, hdecide, hcompile⟩ := relayOf_fresh (Option.mem_toList.mp ht)
  exact ⟨hfresh, fun h => absurd h hdecide, fun h => absurd h hcompile⟩

theorem handler_filed (h : handler db input phase world = .ok (txn, next)) :
    Filed db input phase txn := by
  unfold handler at h
  split at h
  · unfold protocolCompileOperator at h
    split at h
    · exact prepareRun_filed ‹_› h
    · exact compileSpecs_filed h
  · exact executionSetup_filed h
  · exact executionRun_filed h
  · exact executionCapture_filed h
  · exact verificationCheck_filed h
  · exact verificationPostmortem_filed ‹_› h
  · exact autoRemediate_filed ‹_› h
  · exact signalClassify_filed ‹_› h
  · exact recommend_filed ‹_› h
  · exact loopDecide_filed ‹_› h
  · exact loopReport_filed h
  · exact relay_filed h

theorem execute_filed (h : execute db input phase world = (txn, next)) :
    Filed db input phase txn := by
  rcases execute_cases h with h | ⟨error, h⟩
  · exact handler_filed h
  · obtain ⟨rfl, -⟩ := Prod.mk.inj h
    exact filed_rejected ..

end Synthetos.Worker
