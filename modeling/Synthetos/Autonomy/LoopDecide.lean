import Synthetos.Autonomy.Budget
import Synthetos.Autonomy.Gates
import Synthetos.Autonomy.Lifecycle
import Synthetos.Remediation.Recommend

/-!
# The loop decision

`loop_decide` consumes a recommendation and continues, varies, pivots or stops the loop.  It
counts the run in the budget, evaluates the checkpoint gates and moves the hypothesis card.
-/

namespace Synthetos.Autonomy

open Synthetos.Core Storage Lib Remediation

/-- The local variables of one loop iteration; `txn` holds what it has written so far. -/
structure Iteration where
  jobId : JobId
  runId : RunId
  run : RunRecord
  recId : RecommendationId
  recommendation : RunRecommendation
  spec : Option ExperimentSpec
  policy : AutonomyPolicy
  budget : AutonomyBudget
  iterationNumber : Nat
  contextSummaryPath : Option String := none
  txn : Txn := {}

namespace Iteration

def cardId (it : Iteration) : Option CardId := it.spec.map ExperimentSpec.hypothesisCardId

def cycleId (it : Iteration) : CycleId := it.run.cycleId

end Iteration

/-- The row `_persist_decision` adds. -/
def decisionRow (it : Iteration) (decision : Decision) (reasoning : String)
    (gate : Option GateName) (nextCard : Option CardId) (nextAction : Option String) :
    LoopDecision :=
  { cycleId := it.cycleId, charterId := it.run.charterId, runRecordId := it.runId
    recommendationId := it.recId, iterationNumber := it.iterationNumber, decision
    gateTriggered := gate, snapshotTotalRuns := it.budget.totalRuns
    snapshotWallClockElapsedS := it.budget.wallClockElapsedS
    snapshotRunsPerHypothesis := it.budget.runsPerHypothesis
    hypothesisCardId := it.cardId, nextHypothesisCardId := nextCard, nextAction
    contextSummaryPath := it.contextSummaryPath, reasoning }

def stopLoopWith (db : Db) (it : Iteration) (decision : Decision) (reasoning : String) :
    Txn × Next :=
  let exceeded :=
    if decision = .stopBudget then [DomainEvent.budgetExceeded it.runId reasoning] else []
  succeedWith
    { it.txn with
      newDecisions := [decisionRow it decision reasoning none none none]
      newJobs := [createJob db (some it.cycleId) .loopReport { cycleId := some it.cycleId } 5]
      events := it.txn.events ++ exceeded ++
        [.loopCompleted it.cycleId it.iterationNumber decision] }
    (some .reporting)

/-- Pause the loop at a checkpoint gate: the job pauses itself and the cycle keeps its status. -/
def pauseForGate (it : Iteration) (gate : GateResult) : Txn × Next :=
  succeedWith
    { it.txn with
      pausedJob := some it.jobId
      newDecisions := [decisionRow it .stopGate gate.reason (some gate.gateName) none none]
      events := it.txn.events ++ [.gateTriggered it.cycleId gate.gateName none] }
    none

/-- `coalesce(max(run_number), 0) + 1` over the runs of a spec. -/
def nextRunNumber (db : Db) (spec : SpecId) : Nat :=
  ((db.runs.filter fun run => run.experimentSpecId == spec).map RunRecord.runNumber).foldl max 0
    + 1

/-- Create a RunRecord for `spec`, enqueue `execution_setup` and record the decision. -/
def launchRun (db : Db) (it : Iteration) (spec : SpecId) (decision : Decision)
    (reasoning : String) (nextCard : Option CardId) : Txn × Next :=
  succeedWith
    { it.txn with
      newRuns := [{
        experimentSpecId := spec, charterId := it.run.charterId, cycleId := it.cycleId
        runNumber := nextRunNumber db spec }]
      newJobs := [enqueueNext db it.cycleId .executionSetup db.runs.length]
      newDecisions := [decisionRow it decision reasoning none nextCard (some "rerun_spec")]
      events := it.txn.events ++ [.loopDecisionMade it.cycleId it.iterationNumber decision] }
    (some .running)

def continueCurrent (db : Db) (it : Iteration) (spec : ExperimentSpec) : Txn × Next :=
  launchRun db it it.run.experimentSpecId .continueCurrent
    s!"Continuing with {spec.title}; rerunning same spec." none

/-- `select(HypothesisSession).where(cycle_id == ...).limit(1)` -/
def sessionOf (db : Db) (cycle : CycleId) : Option SessionId :=
  db.sessions.findIdx? fun session => session.cycleId == cycle

/-- `loop_context` of the compile jobs the loop enqueues. -/
def loopContext (it : Iteration) : LoopContext :=
  { runRecordId := it.runId, recommendationId := it.recId, hypothesisCardId := it.cardId
    contextSummaryPath := it.contextSummaryPath
    currentHardwareProfile := it.spec.bind ExperimentSpec.hardwareProfile }

def varyParameters (db : Db) (it : Iteration) (spec : ExperimentSpec) : Txn × Next :=
  match sessionOf db it.cycleId with
  | none => rejectWith "no hypothesis session found for cycle"
  | some session =>
    let variation := (db.specs.filter fun row =>
      row.hypothesisCardId == spec.hypothesisCardId && row.cycleId == it.cycleId).length + 1
    succeedWith
      { it.txn with
        newJobs := [createJob db (some it.cycleId) .protocolCompile
          { hypothesisSessionId := some session
            hypothesisCardIds := [spec.hypothesisCardId]
            fromLoop := true
            loopContext := some (loopContext it)
            hardwareProfile := spec.hardwareProfile.filter fun profile => !profile.isEmpty
            baseImage := spec.baseImage.filter fun image => image != "" } 10]
        newDecisions := [decisionRow it .varyParameters
          s!"Varying parameters for {spec.title}; variation #{variation}."
          none none (some "recompile_spec")]
        events := it.txn.events ++
          [.loopDecisionMade it.cycleId it.iterationNumber .varyParameters] }
      (some .running)

/-- `rank ASC NULLS LAST` -/
def rankLe : Option Int → Option Int → Bool
  | some a, some b => decide (a ≤ b)
  | some _, none => true
  | none, some _ => false
  | none, none => true

def viable (cycle : CycleId) (card : HypothesisCard) : Bool :=
  card.cycleId == cycle &&
    (card.status == .candidate || card.status == .compiled || card.status == .deferred)

def nextViableCard (cards : List HypothesisCard) (cycle : CycleId) :
    Option (HypothesisCard × CardId) :=
  ((cards.zipIdx.filter fun row => viable cycle row.1).insertionSort
    fun a b => rankLe a.1.rank b.1.rank = true).head?

def validatedSpecOf (db : Db) (card : CardId) : Option (ExperimentSpec × SpecId) :=
  (db.specs.zipIdx.filter fun row =>
    row.1.hypothesisCardId == card && row.1.status == .validated).getLast?

/-- Gate context of a launch: no runs are counted since the last gate. -/
def launchContext (current : Option Dict) (preview : NextSpecPreview) : GateContext :=
  { runsSinceLastGate := 0, currentHardwareProfile := current
    nextHardwareProfile := preview.hardwareProfile, hasNetworkAccess := preview.hasNetworkAccess }

/-- The gate a launch of `next` pauses at, if the first gate that fires is one of those. -/
def launchGate (policy : AutonomyPolicy) (current : Option Dict) (next : ExperimentSpec) :
    Except String (Option GateResult) := do
  let result ← evaluateGates policy (launchContext current (previewNextSpec next))
  return result.filter fun gate => stopsLaunch gate.gateName

/-- `current_card.status = "deprioritized"`, unless the card is out of the race already. -/
def deprioritizeCurrent (cards : List HypothesisCard) (card : Option CardId) :
    List (CardId × CardStatus) :=
  match card with
  | none => []
  | some id =>
    match cards[id]? with
    | none => []
    | some row =>
      if row.status = .deprioritized ∨ row.status = .rejected then [] else [(id, .deprioritized)]

def pivotHypothesis (db : Db) (it : Iteration) : Except String (Txn × Next) := do
  let cards := Db.setCardStatuses db.cards it.txn.cardStatuses
  let dropped := deprioritizeCurrent cards it.cardId
  let it := { it with txn := { it.txn with cardStatuses := it.txn.cardStatuses ++ dropped } }
  let some (next, nextId) := nextViableCard (Db.setCardStatuses cards dropped) it.cycleId
    | return stopLoopWith db it .stopExhausted "No remaining viable hypotheses for pivot."
  let it := { it with txn := { it.txn with
    events := it.txn.events ++ [.hypothesisSelected nextId] } }
  let existing := if next.status = .compiled then validatedSpecOf db nextId else none
  match existing with
  | some (spec, specId) =>
    let current := it.spec.bind ExperimentSpec.hardwareProfile
    match ← launchGate it.policy current spec with
    | some gate => return pauseForGate it gate
    | none =>
      return launchRun db it specId .pivotHypothesis
        s!"Pivoting to {next.title} (already compiled)." (some nextId)
  | none =>
    match sessionOf db it.cycleId with
    | none =>
      return stopLoopWith db it .stopExhausted "No hypothesis session found for compilation."
    | some session =>
      return succeedWith
        { it.txn with
          newJobs := [createJob db (some it.cycleId) .protocolCompile
            { hypothesisSessionId := some session, hypothesisCardIds := [nextId]
              fromLoop := true, loopContext := some (loopContext it) } 10]
          newDecisions := [decisionRow it .pivotHypothesis
            s!"Pivoting to {next.title} (needs compilation)." none (some nextId)
            (some "compile_new_hypothesis")]
          events := it.txn.events ++
            [.loopDecisionMade it.cycleId it.iterationNumber .pivotHypothesis] }
        (some .running)

def gateDecisionsOf (db : Db) (run : RunId) : List LoopDecision :=
  db.decisions.filter fun row => row.runRecordId == run && row.decision == .stopGate

/-- `total_runs` in the snapshot of the cycle's latest gate decision. -/
def lastGateTotalRuns (db : Db) (cycle : CycleId) : Nat :=
  ((db.decisions.filter fun row =>
    row.cycleId == cycle && row.decision == .stopGate).getLast?.map
      LoopDecision.snapshotTotalRuns).getD 0

/-- The card's next lifecycle status under the iteration's recommendation. -/
def potentialStatus (db : Db) (it : Iteration) (card : HypothesisCard) :
    Except String (Option CardStatus) :=
  let frontier := it.cardId.bind fun id => loadFrontier db it.run.charterId id
  computeLifecycleStatus card.status ((signalOf db it.runId).map DirectionalSignal.signal)
    frontier it.recommendation.recommendationType it.spec

def isResultPromotion (db : Db) (it : Iteration) : Except String Bool :=
  match it.cardId.bind fun id => db.cards[id]? with
  | none => .ok false
  | some card => do return (← potentialStatus db it card) == some .validated

/-- The gate a fresh iteration pauses at before it acts. -/
def freshGate (db : Db) (it : Iteration) : Except String (Option GateResult) := do
  let promotion ← isResultPromotion db it
  let profile := it.spec.bind ExperimentSpec.hardwareProfile
  evaluateGates it.policy
    { runsSinceLastGate := max 0 ((it.budget.totalRuns : Int) - lastGateTotalRuns db it.cycleId)
      currentHardwareProfile := profile, nextHardwareProfile := profile
      isResultPromotion := promotion }

def shouldGenerateSummary (totalRuns : Nat) (summaryInterval : Int) : Bool :=
  decide (0 < summaryInterval) && decide (0 < totalRuns) && (totalRuns : Int) % summaryInterval == 0

def summarizeContext (it : Iteration) (world : External) : Except String Iteration :=
  if it.contextSummaryPath.isNone && shouldGenerateSummary it.budget.totalRuns
      it.policy.summaryInterval then do
    let path ← world.summaryPath
    return { it with
      contextSummaryPath := some path
      txn := { it.txn with events := it.txn.events ++ [.contextSummarized it.cycleId path] } }
  else .ok it

def updateHypothesisStatus (db : Db) (it : Iteration) : Except String Iteration :=
  match it.cardId with
  | none => .ok it
  | some id =>
    match db.cards[id]? with
    | none => .ok it
    | some card => do
      match ← potentialStatus db it card with
      | none => return it
      | some status =>
        if status = card.status then return it
        else
          return { it with txn := { it.txn with
            cardStatuses := it.txn.cardStatuses ++ [(id, status)]
            events := it.txn.events ++ [.hypothesisStatusChanged id card.status status] } }

/-- A repeated spec escalates `continue_current` to `parameter_variation`. -/
def repeats (db : Db) (it : Iteration) (spec : ExperimentSpec) : Bool :=
  isDuplicate db it.cycleId it.run.experimentSpecId spec

/-- `continue_current`: pause if the rerun needs approval, otherwise launch it. -/
def continueOrPause (db : Db) (it : Iteration) (spec : ExperimentSpec) :
    Except String (Txn × Next) := do
  match ← launchGate it.policy spec.hardwareProfile spec with
  | some gate => return pauseForGate it gate
  | none => return continueCurrent db it spec

def actOnRecommendation (db : Db) (it : Iteration) : Except String (Txn × Next) :=
  match it.recommendation.recommendationType, it.spec with
  | .halt, _ => .ok (stopLoopWith db it .stopHalt it.recommendation.reasoning)
  | .continueCurrent, some spec =>
    if repeats db it spec then
      let it := { it with txn := { it.txn with
        events := it.txn.events ++ [.repetitionDetected it.run.experimentSpecId] } }
      .ok (varyParameters db it spec)
    else continueOrPause db it spec
  | .hypothesisPivot, _ => pivotHypothesis db it
  | .parameterVariation, some spec => .ok (varyParameters db it spec)
  | _, none => .ok (stopLoopWith db it .stopHalt "No viable spec or recommendation path.")

/-- Steps 6 to 8, shared by fresh iterations and resumed ones. -/
def proceed (db : Db) (it : Iteration) (world : External) : Except String (Txn × Next) := do
  let it ← summarizeContext it world
  let it ← updateHypothesisStatus db it
  actOnRecommendation db it

def countRun (db : Db) (it : Iteration) : Iteration :=
  match it.cardId with
  | none => it
  | some card =>
    let budget := incrementBudget db.now it.budget card
    { it with
      budget := budget
      txn := { it.txn with
        budget := some budget
        events := it.txn.events ++ [.budgetUpdated it.runId budget.totalRuns] } }

def exhaustedBudget (it : Iteration) : Option BudgetExceeded :=
  match checkBudget it.policy it.budget with
  | some exceeded => some exceeded
  | none => it.cardId.bind fun card => checkPerHypothesisBudget it.policy it.budget card

/-- A run that reaches the loop for the first time: check the budget, then the gates. -/
def decideFresh (db : Db) (it : Iteration) (world : External) : Except String (Txn × Next) :=
  let it := countRun db it
  match exhaustedBudget it with
  | some exceeded => .ok (stopLoopWith db it .stopBudget exceeded.detail)
  | none => do
    match ← freshGate db it with
    | some gate => return pauseForGate it gate
    | none => proceed db it world

/-- A run whose gate pause was resumed: neither counted nor checked again. -/
def decideResumed (db : Db) (it : Iteration) (gateDecision : LoopDecision) (world : External) :
    Except String (Txn × Next) :=
  let it : Iteration :=
    { it with
      iterationNumber := gateDecision.iterationNumber
      contextSummaryPath := gateDecision.contextSummaryPath
      txn := { it.txn with events := it.txn.events ++ [.gateResumed it.cycleId (some it.runId)] } }
  proceed db it world

def decidePrepared (db : Db) (prepared : RunId) : Txn × Next :=
  match db.runs[prepared]? with
  | none => rejectWith s!"prepared run record {prepared} not found"
  | some run =>
    succeedWith { newJobs := [enqueueNext db run.cycleId .executionSetup prepared] } (some .running)

def loopDecideOperator (db : Db) (input : OperatorInput) (world : External) :
    Except String (Txn × Next) :=
  match input.payload.preparedRunRecordId with
  | some prepared => .ok (decidePrepared db prepared)
  | none =>
    match input.payload.recommendationId, input.payload.runRecordId with
    | some recId, some runId =>
      match db.recommendations[recId]?, db.runs[runId]? with
      | none, _ => .ok (rejectWith s!"recommendation {recId} not found")
      | some _, none => .ok (rejectWith s!"run record {runId} not found")
      | some recommendation, some run =>
        match db.cycles[run.cycleId]? with
        | none => .ok (rejectWith "cycle not found")
        | some cycle =>
          let budget := loadOrCreateBudget db run.cycleId
          let it : Iteration :=
            { jobId := input.jobId, runId, run, recId, recommendation
              spec := db.specs[run.experimentSpecId]?, policy := cycle.autonomy, budget
              iterationNumber := (decisionsOf db run.cycleId).length + 1
              txn := { budget := some budget } }
          match gateDecisionsOf db runId with
          | [] => decideFresh db it world
          | [gateDecision] => decideResumed db it gateDecision world
          | _ => .error "MultipleResultsFound"
    | _, _ => .ok (rejectWith "loop_decide payload missing recommendation_id or run_record_id")

end Synthetos.Autonomy
