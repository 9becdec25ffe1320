import Synthetos.Loop.Decisions

/-!
# What an operator step counts

A completed loop decision files one row, with the counters as it leaves them, and counts its run
when the run has a hypothesis card and no gate decision.
-/

namespace Synthetos.Loop

open Synthetos.Core Storage Lib Worker Autonomy Protocols

structure Shows (row : LoopDecision) (budget : AutonomyBudget) : Prop where
  total : row.snapshotTotalRuns = budget.totalRuns
  wallClock : row.snapshotWallClockElapsedS = budget.wallClockElapsedS
  perHypothesis : row.snapshotRunsPerHypothesis = budget.runsPerHypothesis

structure Records (it : Iteration) (row : LoopDecision) : Prop where
  run : row.runRecordId = it.runId
  cycle : row.cycleId = it.cycleId
  card : row.hypothesisCardId = it.cardId
  automatic : row.decision ≠ .stopManual
  shows : Shows row it.budget

/-- The loop context of these jobs, where there is one, is that of run `r`. -/
def Contexts (r : RunId) (jobs : List Job) : Prop :=
  ∀ job ∈ jobs, ∀ context, job.payload.loopContext = some context → context.runRecordId = r

/-- The transaction files the row of the iteration, stores its counters and counts nothing more. -/
structure Settles (it : Iteration) (txn : Txn) : Prop where
  files : ∃ row, txn.newDecisions = [row] ∧ Records it row
  budget : txn.budget = it.txn.budget
  charges : charges txn.events = charges it.txn.events
  contexts : it.txn.newJobs = [] → Contexts it.runId txn.newJobs

/-- The iterations account for the same run, on the same counters. -/
structure SameAccount (it it' : Iteration) : Prop where
  runId : it'.runId = it.runId
  cycle : it'.cycleId = it.cycleId
  card : it'.cardId = it.cardId
  counters : it'.budget = it.budget
  budget : it'.txn.budget = it.txn.budget
  charges : charges it'.txn.events = charges it.txn.events
  jobs : it'.txn.newJobs = it.txn.newJobs

variable {db : Db} {input : OperatorInput} {phase : Phase} {world : External} {txn : Txn}
  {next : Core.Next} {it it' : Iteration} {spec : ExperimentSpec}

theorem SameAccount.refl (it : Iteration) : SameAccount it it :=
  ⟨rfl, rfl, rfl, rfl, rfl, rfl, rfl⟩

theorem Settles.of_same (hsame : SameAccount it it') (h : Settles it' txn) : Settles it txn := by
  obtain ⟨⟨row, hrow, hrecords⟩, hbudget, hcharges, hcontexts⟩ := h
  refine ⟨⟨row, hrow, ?_⟩, hbudget.trans hsame.budget, hcharges.trans hsame.charges, fun hjobs => ?_⟩
  swap
  · rw [← hsame.runId]
    exact hcontexts (hsame.jobs.trans hjobs)
  exact ⟨hrecords.run.trans hsame.runId, hrecords.cycle.trans hsame.cycle,
    hrecords.card.trans hsame.card, hrecords.automatic, hsame.counters ▸ hrecords.shows⟩

theorem contexts_nil (r : RunId) : Contexts r [] := fun _ hjob => absurd hjob List.not_mem_nil

theorem contexts_singleton {r : RunId} {job : Job}
    (h : ∀ context, job.payload.loopContext = some context → context.runRecordId = r) :
    Contexts r [job] := by
  intro job' hjob
  obtain rfl := List.mem_singleton.mp hjob
  exact h

theorem contexts_loop {job : Job} (h : job.payload.loopContext = some (loopContext it)) :
    Contexts it.runId [job] := by
  refine contexts_singleton fun context hcontext => ?_
  obtain rfl := Option.some.inj (h.symm.trans hcontext)
  rfl

theorem decisionRow_records {decision : Decision} {reasoning : String} {gate : Option GateName}
    {nextCard : Option CardId} {nextAction : Option String} (h : decision ≠ .stopManual) :
    Records it (decisionRow it decision reasoning gate nextCard nextAction) :=
  ⟨rfl, rfl, rfl, h, rfl, rfl, rfl⟩

theorem stopLoopWith_settles {decision : Decision} {reasoning : String}
    (hmanual : decision ≠ .stopManual) : Settles it (stopLoopWith db it decision reasoning).1 := by
  refine ⟨⟨_, rfl, decisionRow_records hmanual⟩, rfl, ?_, fun _ => contexts_singleton nofun⟩
  dsimp only [stopLoopWith, succeedWith]
  rw [charges_append, charges_append]
  split <;> simp [charges, chargedRun]

theorem pauseForGate_settles {gate : GateResult} : Settles it (pauseForGate it gate).1 := by
  refine ⟨⟨_, rfl, decisionRow_records (by decide)⟩, rfl, ?_, fun hjobs => ?_⟩
  swap
  · change Contexts it.runId it.txn.newJobs
    rw [hjobs]
    exact contexts_nil _
  dsimp only [pauseForGate, succeedWith]
  rw [charges_append]
  exact List.append_nil _

theorem launchRun_settles {target : SpecId} {decision : Decision} {reasoning : String}
    {nextCard : Option CardId} (hmanual : decision ≠ .stopManual) :
    Settles it (launchRun db it target decision reasoning nextCard).1 := by
  refine ⟨⟨_, rfl, decisionRow_records hmanual⟩, rfl, ?_, fun _ => contexts_singleton nofun⟩
  dsimp only [launchRun, succeedWith]
  rw [charges_append]
  exact List.append_nil _

/-- The step rejects the job, or settles the iteration. -/
def Completes (it : Iteration) (step : Txn × Core.Next) : Prop :=
  (∃ error, step = rejectWith error) ∨ Settles it step.1

theorem Completes.of_same {step : Txn × Core.Next} (hsame : SameAccount it it')
    (h : Completes it' step) : Completes it step := h.imp_right (.of_same hsame)

theorem completes_of_eq {out step : Txn × Core.Next} (h : out = step) (hout : Settles it out.1) :
    Completes it step := by
  obtain rfl := h
  exact .inr hout

theorem varyParameters_completes : Completes it (varyParameters db it spec) := by
  unfold varyParameters
  split
  · exact .inl ⟨_, rfl⟩
  · refine .inr ⟨⟨_, rfl, decisionRow_records (by decide)⟩, rfl, ?_, fun _ => contexts_loop rfl⟩
    dsimp only [succeedWith]
    rw [charges_append]
    exact List.append_nil _

theorem dropped_same (db : Db) (it : Iteration) : SameAccount it (droppedCard db it) :=
  ⟨rfl, rfl, rfl, rfl, rfl, rfl, rfl⟩

theorem selected_same (db : Db) (it : Iteration) (k : CardId) :
    SameAccount it (selectedCard db it k) := by
  refine ⟨rfl, rfl, rfl, rfl, rfl, ?_, rfl⟩
  change charges (it.txn.events ++ [.hypothesisSelected k]) = charges it.txn.events
  rw [charges_append]
  exact List.append_nil _

theorem pivotHypothesis_completes (h : pivotHypothesis db it = .ok (txn, next)) :
    Completes it (txn, next) := by
  cases pivotHypothesis_path h with
  | exhausted reasoning _ hstop =>
    exact completes_of_eq hstop (.of_same (dropped_same db it) (stopLoopWith_settles (by decide)))
  | paused card k spec s gate _ _ _ hpause =>
    exact completes_of_eq hpause (.of_same (selected_same db it k) pauseForGate_settles)
  | launched card k spec s _ _ _ hlaunch =>
    exact completes_of_eq hlaunch (.of_same (selected_same db it k) (launchRun_settles (by decide)))
  | sessionless card k reasoning _ _ hstop =>
    exact completes_of_eq hstop (.of_same (selected_same db it k) (stopLoopWith_settles (by decide)))
  | compiled card k session _ _ hcompile =>
    refine completes_of_eq hcompile ⟨⟨_, rfl, rfl, rfl, rfl, ?_, rfl, rfl, rfl⟩, rfl, ?_,
      fun _ => contexts_loop rfl⟩
    · exact (by decide : Decision.pivotHypothesis ≠ .stopManual)
    · dsimp only [succeedWith, selectedCard, droppedCard]
      rw [charges_append, charges_append]
      simp [charges, chargedRun]

theorem actOnRecommendation_completes (h : actOnRecommendation db it = .ok (txn, next)) :
    Completes it (txn, next) := by
  cases actOnRecommendation_path h with
  | stopped reasoning _ hstop => exact completes_of_eq hstop (stopLoopWith_settles (by decide))
  | repeated spec _ _ _ hvary =>
    rw [← hvary]
    let repeated : Iteration := { it with txn := { it.txn with
      events := it.txn.events ++ [.repetitionDetected it.run.experimentSpecId] } }
    have hsame : SameAccount it repeated := by
      refine ⟨rfl, rfl, rfl, rfl, rfl, ?_, rfl⟩
      dsimp only [repeated]
      rw [charges_append]
      exact List.append_nil _
    exact Completes.of_same hsame varyParameters_completes
  | paused spec gate _ _ _ hpause => exact completes_of_eq hpause pauseForGate_settles
  | continued spec _ _ _ hlaunch =>
    exact completes_of_eq hlaunch (launchRun_settles (by decide))
  | pivoted _ hpivot => exact pivotHypothesis_completes hpivot
  | varied spec _ _ hvary =>
    rw [← hvary]
    exact varyParameters_completes

theorem summarizeContext_same (h : summarizeContext it world = .ok it') : SameAccount it it' := by
  rcases summarizeContext_cases h with rfl | ⟨path, rfl⟩
  · exact .refl it'
  · refine ⟨rfl, rfl, rfl, rfl, rfl, ?_, rfl⟩
    dsimp only
    rw [charges_append]
    exact List.append_nil _

theorem updateHypothesisStatus_same (h : updateHypothesisStatus db it = .ok it') :
    SameAccount it it' := by
  rcases updateHypothesisStatus_cases h with rfl | ⟨id, card, status, -, -, rfl⟩
  · exact .refl it'
  · refine ⟨rfl, rfl, rfl, rfl, rfl, ?_, rfl⟩
    dsimp only
    rw [charges_append]
    exact List.append_nil _

theorem proceed_completes (h : proceed db it world = .ok (txn, next)) :
    Completes it (txn, next) := by
  obtain ⟨summarized, updated, hsummarized, hupdated, h⟩ := proceed_eq_ok.mp h
  have hcompletes := actOnRecommendation_completes h
  exact .of_same (summarizeContext_same hsummarized)
    (.of_same (updateHypothesisStatus_same hupdated) hcompletes)

theorem decideFresh_completes (h : decideFresh db it world = .ok (txn, next)) :
    Completes (countRun db it) (txn, next) := by
  cases decideFresh_path h with
  | exhausted exceeded _ hstop => exact completes_of_eq hstop (stopLoopWith_settles (by decide))
  | paused gate _ _ hpause => exact completes_of_eq hpause pauseForGate_settles
  | proceeds _ _ hproceed => exact proceed_completes hproceed

theorem decideResumed_completes {gateDecision : LoopDecision}
    (h : decideResumed db it gateDecision world = .ok (txn, next)) : Completes it (txn, next) := by
  have hsame : SameAccount it (resumed it gateDecision) := by
    refine ⟨rfl, rfl, rfl, rfl, rfl, ?_, rfl⟩
    dsimp only [resumed]
    rw [charges_append]
    exact List.append_nil _
  exact .of_same hsame (proceed_completes h)

/-- The iteration after the run was counted, if this execution counts it. -/
def counted (db : Db) (it : Iteration) : Iteration :=
  if gateDecisionsOf db it.runId = [] then countRun db it else it

/-- How a step of the loop operators changes the books. -/
inductive Books (db : Db) (input : OperatorInput) (phase : Phase) (txn : Txn) : Prop where
  | closed (hbudget : txn.budget = none) (hdecisions : txn.newDecisions = [])
      (hcharges : charges txn.events = [])
  | decided (it : Iteration) (htype : input.jobType = .loopDecide)
      (hfresh : input.payload.preparedRunRecordId = none) (hit : iterationOf db input = some it)
      (hsettles : Settles (counted db it) txn)
  | prepared (specId : SpecId) (spec : ExperimentSpec) (htype : input.jobType = .protocolCompile)
      (hphase : phase = .compiled specId) (hspec : db.specs[specId]? = some spec)
      (hbudget : txn.budget = some (loadOrCreateBudget db spec.cycleId))
      (hdecisions : txn.newDecisions = [] ∨ ∃ context row,
        input.payload.loopContext = some context ∧ txn.newDecisions = [row] ∧
          row.runRecordId = context.runRecordId ∧ row.cycleId = spec.cycleId ∧
          row.hypothesisCardId = context.hypothesisCardId ∧
          Shows row (loadOrCreateBudget db spec.cycleId))
      (hcharges : charges txn.events = [])

theorem loopDecide_settles (hfresh : input.payload.preparedRunRecordId = none)
    (h : loopDecideOperator db input world = .ok (txn, next)) :
    txn = {} ∨ ∃ it, iterationOf db input = some it ∧ Settles (counted db it) txn := by
  have rejects {error : String} (h : (txn, next) = rejectWith error) : txn = {} :=
    (Prod.mk.inj h).1
  cases loopDecide_path h with
  | rejected error hreject => exact .inl (rejects hreject.symm)
  | prepared prepared run hprepared _ _ =>
    rw [hfresh] at hprepared
    cases hprepared
  | fresh it hopens hnone hstep =>
    rcases decideFresh_completes hstep with ⟨error, hreject⟩ | hsettles
    · exact .inl (rejects hreject)
    · refine .inr ⟨it, iterationOf_opens hopens, ?_⟩
      rwa [counted, if_pos hnone]
  | resumed it gateDecision hopens hone hstep =>
    rcases decideResumed_completes hstep with ⟨error, hreject⟩ | hsettles
    · exact .inl (rejects hreject)
    · refine .inr ⟨it, iterationOf_opens hopens, ?_⟩
      rwa [counted, if_neg (by rw [hone]; exact List.cons_ne_nil _ _)]

theorem loopDecide_books (htype : input.jobType = .loopDecide)
    (h : loopDecideOperator db input world = .ok (txn, next)) : Books db input phase txn := by
  cases loopDecide_path h with
  | rejected _ hstep | prepared _ _ _ _ hstep =>
    obtain ⟨rfl, -⟩ := Prod.mk.inj hstep
    exact .closed rfl rfl rfl
  | fresh _ hopens _ _ | resumed _ _ hopens _ _ =>
    rcases loopDecide_settles hopens.fresh h with rfl | ⟨it, hit, hsettles⟩
    · exact .closed rfl rfl rfl
    · exact .decided it htype hopens.fresh hit hsettles

theorem loopDecide_contexts (htype : input.jobType = .loopDecide)
    (hfresh : input.payload.preparedRunRecordId = none)
    (h : execute db input phase world = (txn, next)) (hjobs : txn.newJobs ≠ []) :
    ∃ it, iterationOf db input = some it ∧ Contexts it.runId txn.newJobs ∧
      Settles (counted db it) txn := by
  rcases execute_cases h with h | ⟨error, h⟩
  · unfold handler at h
    rw [htype] at h
    rcases loopDecide_settles hfresh h with rfl | ⟨it, hit, hsettles⟩
    · exact absurd rfl hjobs
    · obtain ⟨recId, runId, recommendation, run, cycle, -, -, -, -, -, rfl⟩ := iterationOf_cases hit
      have hrun := hsettles.contexts
      unfold counted countRun at hrun
      refine ⟨_, hit, ?_, hsettles⟩
      split at hrun
      · split at hrun
        · exact hrun rfl
        · exact hrun rfl
      · exact hrun rfl
  · obtain ⟨rfl, -⟩ := Prod.mk.inj h
    exact absurd rfl hjobs

theorem prepareRun_books {specId : SpecId} (htype : input.jobType = .protocolCompile)
    (h : prepareRun db input specId = .ok (txn, next)) :
    Books db input (.compiled specId) txn := by
  cases prepareRun_path h with
  | missing error hreject =>
    obtain ⟨rfl, -⟩ := Prod.mk.inj hreject
    exact .closed rfl rfl rfl
  | gated spec fired hspec _ hstep =>
    obtain ⟨rfl, -⟩ := Prod.mk.inj hstep
    refine .prepared specId spec htype rfl hspec rfl ?_ rfl
    dsimp only
    unfold loopGateDecision
    split
    · rename_i context cycle hcontext hcycle
      exact .inr ⟨context, _, hcontext, rfl, rfl, rfl, rfl, rfl, rfl, rfl⟩
    · exact .inl rfl
  | launched spec hspec _ hstep =>
    obtain ⟨rfl, -⟩ := Prod.mk.inj hstep
    exact .prepared specId spec htype rfl hspec rfl (.inl rfl) rfl

theorem execute_books (h : execute db input phase world = (txn, next)) :
    Books db input phase txn := by
  rcases execute_cases h with h | ⟨error, h⟩
  · rcases handler_plain h with hplain | ⟨htype, h⟩ | ⟨specId, rfl, htype, h⟩ | ⟨-, -, h⟩
    · exact .closed hplain.unbudgeted hplain.undecided hplain.uncharged
    · exact loopDecide_books htype h
    · exact prepareRun_books htype h
    · have hplain := compileSpecs_bare h
      exact .closed hplain.unbudgeted hplain.undecided hplain.uncharged
  · obtain ⟨rfl, -⟩ := Prod.mk.inj h
    exact .closed rfl rfl rfl

end Synthetos.Loop
