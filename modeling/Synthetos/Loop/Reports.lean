import Synthetos.Autonomy.CompletionReport
import Synthetos.Loop.Pivots

/-!
# Completion reports of reachable states

A remediation action has a retry run where its outcome says so, in every run of the system.
-/

namespace Synthetos.Loop

open Synthetos.Core Storage Lib Worker Autonomy Protocols Remediation

variable {settings : Settings} {start sys sys' : Runtime} {l : Label} {db : Db}
  {input : OperatorInput} {phase : Phase} {world : External} {txn : Txn} {next : Core.Next}
  {it it' : Iteration} {c : CycleId}

/-! ### The loop files no action -/

theorem varyParameters_actionless {spec : ExperimentSpec}
    (h : varyParameters db it spec = (txn, next)) (hnone : it.txn.newActions = []) :
    txn.newActions = [] := by
  unfold varyParameters at h
  split at h
  · obtain ⟨rfl, -⟩ := Prod.mk.inj h
    rfl
  · obtain ⟨rfl, -⟩ := Prod.mk.inj h
    exact hnone

theorem pivotHypothesis_actionless (h : pivotHypothesis db it = .ok (txn, next))
    (hnone : it.txn.newActions = []) : txn.newActions = [] := by
  cases pivotHypothesis_path h with
  | exhausted _ _ hstep | paused _ _ _ _ _ _ _ _ hstep | launched _ _ _ _ _ _ _ hstep
  | sessionless _ _ _ _ _ hstep | compiled _ _ _ _ _ hstep =>
    obtain ⟨rfl, -⟩ := Prod.mk.inj hstep
    exact hnone

theorem actOnRecommendation_actionless (h : actOnRecommendation db it = .ok (txn, next))
    (hnone : it.txn.newActions = []) : txn.newActions = [] := by
  cases actOnRecommendation_path h with
  | stopped _ _ hstep | paused _ _ _ _ _ hstep | continued _ _ _ _ hstep =>
    obtain ⟨rfl, -⟩ := Prod.mk.inj hstep
    exact hnone
  | repeated _ _ _ _ hvary => exact varyParameters_actionless hvary hnone
  | varied _ _ _ hvary => exact varyParameters_actionless hvary hnone
  | pivoted _ hpivot => exact pivotHypothesis_actionless hpivot hnone

theorem proceed_actionless (h : proceed db it world = .ok (txn, next))
    (hnone : it.txn.newActions = []) : txn.newActions = [] := by
  obtain ⟨summarized, updated, hsummarized, hupdated, h⟩ := proceed_eq_ok.mp h
  refine actOnRecommendation_actionless h ?_
  have hsame : summarized.txn.newActions = [] := by
    rcases summarizeContext_cases hsummarized with rfl | ⟨path, rfl⟩ <;> exact hnone
  rcases updateHypothesisStatus_cases hupdated with rfl | ⟨id, card, status, -, -, rfl⟩ <;>
    exact hsame

theorem decideFresh_actionless (h : decideFresh db it world = .ok (txn, next))
    (hnone : it.txn.newActions = []) : txn.newActions = [] := by
  have hcounted : (countRun db it).txn.newActions = [] := by
    unfold countRun
    split <;> exact hnone
  cases decideFresh_path h with
  | exhausted _ _ hstep | paused _ _ _ hstep =>
    obtain ⟨rfl, -⟩ := Prod.mk.inj hstep
    exact hcounted
  | proceeds _ _ hproceed => exact proceed_actionless hproceed hcounted

theorem loopDecide_actionless (h : loopDecideOperator db input world = .ok (txn, next)) :
    txn.newActions = [] := by
  cases loopDecide_path h with
  | rejected _ hstep | prepared _ _ _ _ hstep =>
    obtain ⟨rfl, -⟩ := Prod.mk.inj hstep
    rfl
  | fresh it hopens _ hstep => exact decideFresh_actionless hstep (by rw [hopens.txn_eq])
  | resumed it gateDecision hopens _ hstep =>
    have hnone : it.txn.newActions = [] := by rw [hopens.txn_eq]
    exact proceed_actionless hstep hnone

/-! ### Actions and their retries -/

def Retries (actions : List RemediationAction) : Prop :=
  ∀ action ∈ actions, action.outcome = .retryCreated ↔ action.retryRunId.isSome = true

theorem autoRemediate_retries (h : autoRemediateOperator db input world = .ok (txn, next)) :
    Retries txn.newActions := by
  intro action hmem
  cases autoRemediate_path h with
  | unnamed _ _ hstep =>
    obtain ⟨rfl, -⟩ := Prod.mk.inj hstep
    exact absurd hmem List.not_mem_nil
  | exhausted _ _ _ _ _ _ hstep | skipped _ _ _ _ _ _ hstep | unfixed _ _ _ _ _ _ hstep =>
    obtain ⟨rfl, -⟩ := Prod.mk.inj hstep
    obtain rfl := List.mem_singleton.mp hmem
    exact ⟨nofun, nofun⟩
  | retried _ _ _ _ _ _ _ _ _ hstep =>
    obtain ⟨rfl, -⟩ := Prod.mk.inj hstep
    obtain rfl := List.mem_singleton.mp hmem
    exact ⟨fun _ => rfl, fun _ => rfl⟩

theorem execute_retries (h : execute db input phase world = (txn, next)) :
    Retries txn.newActions := by
  have retries_nil (hnone : txn.newActions = []) : Retries txn.newActions := by
    rw [hnone]
    exact fun action hmem => absurd hmem List.not_mem_nil
  rcases execute_cases h with h | ⟨error, h⟩
  · rcases handler_bare h with hbare | h | ⟨-, h⟩ | ⟨specId, -, -, h⟩ | ⟨-, -, h⟩
    · exact retries_nil hbare.actionless
    · exact autoRemediate_retries h
    · exact retries_nil (loopDecide_actionless h)
    · cases prepareRun_path h with
      | missing _ hstep | gated _ _ _ _ hstep | launched _ _ _ hstep =>
        obtain ⟨rfl, -⟩ := Prod.mk.inj hstep
        exact retries_nil rfl
    · exact retries_nil (compileSpecs_bare h).actionless
  · obtain ⟨rfl, -⟩ := Prod.mk.inj h
    exact retries_nil rfl

theorem retriesFiled_step (hinv : RetriesFiled sys.db) (h : Step settings sys l sys') :
    RetriesFiled sys'.db := by
  intro action hmem
  rcases step_actions h with hsame | ⟨w, world, j, phase, job, txn, next, -, -, -, hout, hactions⟩
  · exact hinv action (hsame ▸ hmem)
  · rw [hactions] at hmem
    rcases List.mem_append.mp hmem with hold | hnew
    · exact hinv action hold
    · exact execute_retries hout action hnew

theorem retriesFiled_run (hactions : start.db.actions = [])
    (hrun : Reaches Unguarded (Runtime.step settings) start sys) : RetriesFiled sys.db := by
  refine hrun.invariant (fun sys => RetriesFiled sys.db)
    (fun _ _ _ hinv _ hstep => retriesFiled_step hinv (step_cases hstep)) ?_
  intro action hmem
  rw [hactions] at hmem
  exact absurd hmem List.not_mem_nil

/-- In every order the decisions may be read in, the report of a cycle says what happened where its
last decision has the greatest iteration number and its retries passed. -/
theorem reports_faithful_iff (hactions : start.db.actions = [])
    (hrun : Reaches Unguarded (Runtime.step settings) start sys) (charter : CharterId)
    (cycle : CycleId) :
    (∀ rows, ReadDecisions sys.db cycle rows →
      Faithful sys.db cycle (completionReport sys.db charter cycle rows)) ↔
        LastDecisionLeads sys.db cycle ∧ RetriesPassed sys.db cycle := by
  have hfiled := retriesFiled_run hactions hrun
  have hfinal := finalDecision_faithful_iff sys.db charter cycle
  constructor
  · intro h
    obtain ⟨rows, hrows⟩ := exists_orderedBy LoopDecision.iterationNumber (decisionsOf sys.db cycle)
    exact ⟨hfinal.mp fun rows hrows => (h rows hrows).finalDecision,
      (resolved_faithful_iff hfiled).mp (h rows hrows).resolved⟩
  · rintro ⟨hleads, hpassed⟩ rows hrows
    exact ⟨hfinal.mpr hleads rows hrows, (resolved_faithful_iff hfiled).mpr hpassed⟩

/-- A run is killed and its retry passes and waits at a gate: the report says so. -/
theorem reports_faithful_retried : ∃ sys : Runtime,
    (actionsOf sys.db 0).map RemediationAction.outcome = [.retryCreated] ∧
      (decisionsOf sys.db 0).map LoopDecision.decision = [.stopGate] ∧
      ∀ rows, ReadDecisions sys.db 0 rows →
        Faithful sys.db 0 (completionReport sys.db 0 0 rows) := by
  obtain ⟨sys, hrun, htest⟩ := Runtime.run_of_anyone
    (show (perform Runtime.anyone (Runtime.step {}) (gatedCycle { afterEveryRun := true })
      ([.receive 0 (.startRun 0), .respond 0] ++ killedRun ++ secondRun)).any (fun sys =>
        (actionsOf sys.db 0).map RemediationAction.outcome == [.retryCreated] &&
          (decisionsOf sys.db 0).map LoopDecision.decision == [.stopGate] &&
          (actionsOf sys.db 0).all (retryPassed sys.db)) = true by decide +kernel)
  simp only [Bool.and_eq_true, beq_iff_eq] at htest
  obtain ⟨⟨houtcomes, hdecisions⟩, hpassed⟩ := htest
  refine ⟨sys, houtcomes, hdecisions, (reports_faithful_iff rfl hrun 0 0).mpr ⟨?_, ?_⟩⟩
  · obtain ⟨row, hrow, -⟩ := List.map_eq_singleton_iff.mp hdecisions
    intro other hleads
    have hmem := hleads.mem
    rw [hrow, List.mem_singleton] at hmem
    rw [hmem, lastDecision, hrow]
    rfl
  · exact fun action hmem _ => List.all_eq_true.mp hpassed action hmem

open Synthetos.Runtime (work)

/-- A run fails, and so do its three retries; the gate behind it is approved, and the loop stops
because no card is left.  The report may show the gate as the final decision, and counts the retries
as resolved. -/
theorem report_shows_gate : ∃ sys : Runtime, ∃ rows,
    (gatedCycle { afterEveryRun := true }).Initial ∧
      Reaches Unguarded (Runtime.step {}) (gatedCycle { afterEveryRun := true }) sys ∧
      (sys.db.jobs.getLast?.any fun job => job.jobType == .loopReport) = true ∧
      ReadDecisions sys.db 0 rows ∧
      (completionReport sys.db 0 0 rows).finalDecision.decision = some .stopGate ∧
      (lastDecision sys.db 0).map LoopDecision.decision = some .stopExhausted ∧
      (completionReport sys.db 0 0 rows).remediation.resolved = 3 ∧
      (actionsOf sys.db 0).countP (retryPassed sys.db) = 0 := by
  obtain ⟨sys, hrun, htest⟩ := Runtime.run_of_anyone
    (show (perform Runtime.anyone (Runtime.step {}) (gatedCycle { afterEveryRun := true })
      ([.receive 0 (.startRun 0), .respond 0] ++ killedRun ++ killedRun ++ killedRun ++ killedRun ++
        work [{}] ++ work [{}] ++ work [{}] ++ resumeGate ++ work [{}] ++
        [.claim 0 [], .start 0])).any (fun sys =>
          (sys.db.jobs.getLast?.any fun job => job.jobType == .loopReport) &&
            (decisionsOf sys.db 0).map (fun row => (row.iterationNumber, row.decision)) ==
              [(1, .stopGate), (1, .stopExhausted)] &&
            ((actionsOf sys.db 0).filter fun action => action.outcome == .retryCreated).length == 3 &&
            (actionsOf sys.db 0).countP (retryPassed sys.db) == 0) = true by decide +kernel)
  simp only [Bool.and_eq_true, beq_iff_eq] at htest
  obtain ⟨⟨⟨hreport, hdecisions⟩, hresolved⟩, hpassed⟩ := htest
  obtain ⟨gate, rest, hrows, hgate, hrest⟩ := List.map_eq_cons_iff.mp hdecisions
  obtain ⟨stop, rfl, hstop⟩ := List.map_eq_singleton_iff.mp hrest
  obtain ⟨hgateNumber, hgate⟩ := Prod.mk.inj hgate
  obtain ⟨hstopNumber, hstop⟩ := Prod.mk.inj hstop
  refine ⟨sys, [stop, gate], gatedCycle_initial _, hrun, hreport, ⟨?_, ?_⟩, congrArg some hgate, ?_,
    hresolved, hpassed⟩
  · rw [hrows]
    exact List.Perm.swap gate stop []
  · simp [hgateNumber, hstopNumber]
  · rw [lastDecision, hrows]
    exact congrArg some hstop

end Synthetos.Loop
