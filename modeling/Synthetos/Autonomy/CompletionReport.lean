import Synthetos.Autonomy.Budget
import Synthetos.Autonomy.LoopReport
import Synthetos.Lib.Leader

/-!
# The contents of the completion report

`loop_report` reads the decisions of the cycle in the order of their iteration numbers, its budget,
its cards, the frontiers of the charter and the remediation counts, and `render_json` lays them out.
-/

namespace Synthetos.Autonomy

open Synthetos.Core Storage Remediation Lib

structure BudgetSection where
  totalRuns : Nat
  wallClockElapsedS : Rat
  runsPerHypothesis : List (CardId × Nat)

structure CardFrontier where
  bestMetricValue : Rat
  totalRuns : Nat
  runsSinceImprovement : Nat
  primaryMetricName : String

structure HypothesisSection where
  cardId : CardId
  title : String
  status : CardStatus
  frontier : Option CardFrontier

structure FrontierSection where
  hypothesisCardId : CardId
  bestMetricValue : Rat
  totalRuns : Nat
  successfulRuns : Nat
  runsSinceImprovement : Nat
  primaryMetricName : String
  primaryMetricDirection : String

structure DecisionSection where
  iteration : Nat
  decision : Decision
  reasoning : String
  gateTriggered : Option GateName
  nextAction : Option String
  hypothesisCardId : Option CardId
  nextHypothesisCardId : Option CardId
  contextSummaryPath : Option String

structure RemediationSection where
  totalAttempts : Nat
  resolved : Nat

structure FinalDecision where
  decision : Option Decision
  reasoning : Option String
  recommendationType : Option RecommendationType
  recommendationAction : Option String
  recommendationReasoning : Option String
  regenerationSuggested : Bool

structure CompletionReport where
  cycleId : CycleId
  budget : BudgetSection
  hypotheses : List HypothesisSection
  frontierProgression : List FrontierSection
  decisions : List DecisionSection
  remediation : RemediationSection
  finalDecision : FinalDecision
  generatedAt : Timestamp

def budgetSection (budget : Option AutonomyBudget) : BudgetSection where
  totalRuns := (budget.map AutonomyBudget.totalRuns).getD 0
  wallClockElapsedS := (budget.map AutonomyBudget.wallClockElapsedS).getD 0
  runsPerHypothesis := (budget.map AutonomyBudget.runsPerHypothesis).getD []

def hypothesisSection (frontierMap : List (CardId × MetricFrontier))
    (row : HypothesisCard × CardId) : HypothesisSection where
  cardId := row.2
  title := row.1.title
  status := row.1.status
  frontier := (frontierMap.lookup row.2).map fun frontier =>
    { bestMetricValue := frontier.bestMetricValue, totalRuns := frontier.totalRuns
      runsSinceImprovement := frontier.runsSinceImprovement
      primaryMetricName := frontier.primaryMetricName }

def frontierSection (entry : CardId × MetricFrontier) : FrontierSection where
  hypothesisCardId := entry.1
  bestMetricValue := entry.2.bestMetricValue
  totalRuns := entry.2.totalRuns
  successfulRuns := entry.2.successfulRuns
  runsSinceImprovement := entry.2.runsSinceImprovement
  primaryMetricName := entry.2.primaryMetricName
  primaryMetricDirection := entry.2.primaryMetricDirection

def decisionSection (row : LoopDecision) : DecisionSection where
  iteration := row.iterationNumber
  decision := row.decision
  reasoning := row.reasoning
  gateTriggered := row.gateTriggered
  nextAction := row.nextAction
  hypothesisCardId := row.hypothesisCardId
  nextHypothesisCardId := row.nextHypothesisCardId
  contextSummaryPath := row.contextSummaryPath

def finalDecision (row : Option LoopDecision) (recommendation : Option RunRecommendation) :
    FinalDecision where
  decision := row.map LoopDecision.decision
  reasoning := row.map LoopDecision.reasoning
  recommendationType := recommendation.map RunRecommendation.recommendationType
  recommendationAction := recommendation.map RunRecommendation.action
  recommendationReasoning := recommendation.map RunRecommendation.reasoning
  regenerationSuggested := row.any fun row => row.decision == .stopExhausted

/-- `decisions[-1]` is the final decision. -/
def renderJson (cycle : CycleId) (budget : Option AutonomyBudget) (decisions : List LoopDecision)
    (cards : List (HypothesisCard × CardId)) (frontierMap : List (CardId × MetricFrontier))
    (remediationTotal remediationResolved : Nat) (finalRecommendation : Option RunRecommendation)
    (now : Timestamp) : CompletionReport where
  cycleId := cycle
  budget := budgetSection budget
  hypotheses := cards.map (hypothesisSection frontierMap)
  frontierProgression := frontierMap.map frontierSection
  decisions := decisions.map decisionSection
  remediation := { totalAttempts := remediationTotal, resolved := remediationResolved }
  finalDecision := finalDecision decisions.getLast? finalRecommendation
  generatedAt := now

def actionsOf (db : Db) (cycle : CycleId) : List RemediationAction :=
  db.actions.filter fun action => action.cycleId == cycle

/-- What `loop_report` gathers for a cycle, given the order its decisions were read in. -/
def completionReport (db : Db) (charter : CharterId) (cycle : CycleId)
    (decisions : List LoopDecision) : CompletionReport :=
  renderJson cycle (budgetOf db cycle) decisions
    (db.cards.zipIdx.filter fun row => row.1.cycleId == cycle)
    ((db.frontiers.filter fun frontier => frontier.charterId == charter).map fun frontier =>
      (frontier.hypothesisCardId, frontier))
    (actionsOf db cycle).length
    ((actionsOf db cycle).filter fun action => action.outcome == .retryCreated).length
    (decisions.getLast?.bind fun row => db.recommendations[row.recommendationId]?)
    db.now

/-- `select(LoopDecision).where(cycle_id == ...).order_by(iteration_number)` -/
def ReadDecisions (db : Db) (cycle : CycleId) : List LoopDecision → Prop :=
  OrderedBy LoopDecision.iterationNumber (decisionsOf db cycle)

/-! ### What the report should say -/

def passedVerification (db : Db) (run : RunId) : Bool :=
  db.reports.any fun report => report.runRecordId == run && report.verdict == .passed

def retryPassed (db : Db) (action : RemediationAction) : Bool :=
  action.retryRunId.any (passedVerification db)

/-- Rows are in the order of their creation. -/
def lastDecision (db : Db) (cycle : CycleId) : Option LoopDecision :=
  (decisionsOf db cycle).getLast?

structure Faithful (db : Db) (cycle : CycleId) (report : CompletionReport) : Prop where
  finalDecision : report.finalDecision.decision =
    (lastDecision db cycle).map LoopDecision.decision
  resolved : report.remediation.resolved = (actionsOf db cycle).countP (retryPassed db)

/-- No decision has a greater iteration number. -/
def Leading (db : Db) (cycle : CycleId) : LoopDecision → Prop :=
  Leads (fun a b => b.iterationNumber < a.iterationNumber) (decisionsOf db cycle)

/-- The decisions with the greatest iteration number decided what the last one did. -/
def LastDecisionLeads (db : Db) (cycle : CycleId) : Prop :=
  ∀ row, Leading db cycle row →
    some row.decision = (lastDecision db cycle).map LoopDecision.decision

def RetriesPassed (db : Db) (cycle : CycleId) : Prop :=
  ∀ action ∈ actionsOf db cycle, action.outcome = .retryCreated → retryPassed db action = true

/-- Retries are the actions with a retry run. -/
def RetriesFiled (db : Db) : Prop :=
  ∀ action ∈ db.actions, action.outcome = .retryCreated ↔ action.retryRunId.isSome = true

variable {db : Db} {cycle : CycleId}

theorem finalDecision_faithful_iff (db : Db) (charter : CharterId) (cycle : CycleId) :
    (∀ rows, ReadDecisions db cycle rows →
      (completionReport db charter cycle rows).finalDecision.decision =
        (lastDecision db cycle).map LoopDecision.decision) ↔ LastDecisionLeads db cycle := by
  refine forall_last_iff (P := fun row => row.map LoopDecision.decision =
    (lastDecision db cycle).map LoopDecision.decision) fun hnil => ?_
  rw [lastDecision, hnil]
  rfl

theorem retryPassed_filed (hfiled : RetriesFiled db) {action : RemediationAction}
    (hmem : action ∈ db.actions) (h : retryPassed db action = true) :
    action.outcome = .retryCreated := by
  obtain ⟨run, hrun, -⟩ := (Option.any_eq_true _ _).mp h
  exact (hfiled action hmem).mpr (by rw [hrun]; rfl)

theorem resolved_faithful_iff (hfiled : RetriesFiled db) :
    ((actionsOf db cycle).filter fun action => action.outcome == .retryCreated).length =
      (actionsOf db cycle).countP (retryPassed db) ↔ RetriesPassed db cycle := by
  have hinside : (actionsOf db cycle).filter (retryPassed db) =
      ((actionsOf db cycle).filter fun action => action.outcome == .retryCreated).filter
        (retryPassed db) := by
    rw [List.filter_filter]
    refine List.filter_congr fun action hmem => ?_
    cases hpassed : retryPassed db action with
    | false => rfl
    | true =>
      have hretry := retryPassed_filed hfiled (List.mem_of_mem_filter hmem) hpassed
      rw [hretry, beq_self_eq_true, Bool.and_self]
  rw [List.countP_eq_length_filter, hinside, eq_comm, List.length_filter_eq_length_iff]
  simp only [List.mem_filter, beq_iff_eq, and_imp]
  exact Iff.rfl

end Synthetos.Autonomy
