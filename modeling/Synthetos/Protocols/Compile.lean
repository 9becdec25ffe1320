import Synthetos.Autonomy.LoopDecide

/-!
# Protocol compilation

`protocol_compile` turns hypotheses into experiment specs.  From the loop it continues with a
second transaction that prepares a run for the first compiled spec, paused when a gate fires.
-/

namespace Synthetos.Protocols

open Synthetos.Core Storage Lib Autonomy Remediation

def isTruthy (value : Option Json) : Bool := value.any Json.truthy

/-- `m.get("direction") in ("maximize", "minimize")` -/
def hasDirection (metric : Dict) : Bool :=
  match metric.get? "direction" with
  | some (.str s) => s == "maximize" || s == "minimize"
  | _ => false

def metricErrors (index : Nat) (metric : Dict) : List String :=
  (if isTruthy (metric.get? "name") then [] else [s!"metric[{index}] missing 'name'"]) ++
  (if hasDirection metric then []
   else [s!"metric[{index}] 'direction' must be 'maximize' or 'minimize'"])

def codePlanErrors (codePlan : Dict) : List String :=
  if codePlan.isEmpty then ["code_plan is required"]
  else
    (if isTruthy (codePlan.get? "entry_point") then [] else ["code_plan missing 'entry_point'"]) ++
    (if isTruthy (codePlan.get? "files") then [] else ["code_plan has no files"])

/-- The errors `validate_spec` reports; a spec without errors is valid. -/
def validateSpec (spec : CompiledSpec) : List String :=
  (if isTruthy (spec.baseline.get? "description") then []
   else ["baseline must be defined with a description"]) ++
  (if spec.metrics.isEmpty then ["at least one metric must be defined"] else []) ++
  (spec.metrics.zipIdx.flatMap fun row => metricErrors row.2 row.1) ++
  codePlanErrors spec.codePlan

/-- Hypotheses to compile: the explicit ids, all in scope, or the five best ranked. -/
def selectCards (db : Db) (payload : Payload) (sessionId : SessionId)
    (session : HypothesisSession) : Except String (List (HypothesisCard × CardId)) :=
  if payload.hypothesisCardIds.isEmpty then
    let ranked := db.cards.zipIdx.filter fun row =>
      row.1.hypothesisSessionId == sessionId &&
        (row.1.status == .candidate || row.1.status == .selected)
    .ok ((ranked.insertionSort fun a b => rankLe a.1.rank b.1.rank = true).take 5)
  else
    let cards := db.cards.zipIdx.filter fun row =>
      payload.hypothesisCardIds.contains row.2 && row.1.hypothesisSessionId == sessionId &&
        row.1.cycleId == session.cycleId && row.1.charterId == session.charterId
    if cards.length = payload.hypothesisCardIds.length then .ok cards
    else .error
      "one or more hypothesis_card_ids are out of scope for this hypothesis session, cycle, or charter"

def specRow (session : HypothesisSession) (payload : Payload) (card : CardId)
    (drafted : CompiledSpec) : ExperimentSpec :=
  let errors := validateSpec drafted
  { hypothesisCardId := card, charterId := session.charterId, cycleId := session.cycleId
    title := drafted.title
    status := if errors.isEmpty then .validated else .rejected
    rejectionReason := if errors.isEmpty then none else some ("; ".intercalate errors)
    baseline := drafted.baseline, controls := some drafted.controls, metrics := drafted.metrics
    stopConditions := drafted.stopConditions, codePlan := some drafted.codePlan
    hardwareProfile := payload.hardwareProfile
    baseImage := (drafted.baseImage.filter fun image => image != "").or payload.baseImage }

def selectedCards (cards : List (HypothesisCard × CardId)) : List (CardId × CardStatus) :=
  (cards.filter fun row => row.1.status == .candidate).map fun row => (row.2, .selected)

/-- First transaction: persist the drafted specs of the selected cards. -/
def compileSpecs (db : Db) (input : OperatorInput) (world : External) :
    Except String (Txn × Next) :=
  match input.payload.hypothesisSessionId with
  | none => .ok (rejectWith "missing hypothesis_session_id in payload")
  | some sessionId =>
    match db.sessions[sessionId]? with
    | none => .ok (rejectWith "hypothesis session not found")
    | some session =>
      match selectCards db input.payload sessionId session with
      | .error e => .ok (rejectWith e)
      | .ok [] => .ok (rejectWith "no hypotheses available to compile")
      | .ok cards =>
        match world.compiledSpecs with
        | .error e => .ok (rejectWith s!"protocol compilation failed: {e}")
        | .ok drafted =>
          let rows := (cards.zip drafted).map fun row =>
            specRow session input.payload row.1.2 row.2
          let valid := rows.zipIdx.filter fun row => row.1.status == .validated
          let rejectedCount := rows.length - valid.length
          let txn : Txn :=
            { newSpecs := rows
              cardStatuses := selectedCards cards ++
                valid.map fun row => (row.1.hypothesisCardId, .compiled)
              events := rows.zipIdx.map (fun row =>
                  if row.1.status = .validated then
                    .specCompiled (db.specs.length + row.2) row.1.hypothesisCardId
                  else
                    .specRejected (db.specs.length + row.2) row.1.hypothesisCardId
                      row.1.rejectionReason.toList) ++
                [.compilationCompleted valid.length rejectedCount] }
          match valid with
          | [] => .ok (txn, .finish (.failure
              s!"all {rejectedCount} specs were rejected as under-specified"))
          | first :: _ =>
            if input.payload.fromLoop then
              .ok (txn, .suspend (.compiled (db.specs.length + first.2)))
            else .ok (succeedWith txn (some .protocolReady))

/-- `_persist_loop_gate` -/
def loopGateDecision (db : Db) (spec : ExperimentSpec) (budget : AutonomyBudget)
    (context : Option LoopContext) (gate : GateResult) : List LoopDecision :=
  match context, db.cycles[spec.cycleId]? with
  | some context, some _ =>
    [{ cycleId := spec.cycleId, charterId := spec.charterId
       runRecordId := context.runRecordId, recommendationId := context.recommendationId
       iterationNumber := (decisionsOf db spec.cycleId).length + 1, decision := .stopGate
       gateTriggered := some gate.gateName, snapshotTotalRuns := budget.totalRuns
       snapshotWallClockElapsedS := budget.wallClockElapsedS
       snapshotRunsPerHypothesis := budget.runsPerHypothesis
       hypothesisCardId := context.hypothesisCardId
       nextHypothesisCardId := some spec.hypothesisCardId, nextAction := some "execution_setup"
       contextSummaryPath := context.contextSummaryPath, reasoning := gate.reason }]
  | _, _ => []

def policyOf (db : Db) (cycle : CycleId) : AutonomyPolicy :=
  (db.cycles[cycle]?.map ResearchCycle.autonomy).getD {}

def preparedJob (db : Db) (cycle : CycleId) (run : RunId) : Job :=
  { createJob db (some cycle) .loopDecide { preparedRunRecordId := some run } 10 with
    status := .paused }

def currentProfile (payload : Payload) : Option Dict :=
  payload.loopContext.bind LoopContext.currentHardwareProfile

/-- Second transaction, from the loop: create a run for the spec and launch it, or leave a paused
job when a launch gate fires. -/
def prepareRun (db : Db) (input : OperatorInput) (specId : SpecId) :
    Except String (Txn × Next) :=
  match db.specs[specId]? with
  | none => .ok (rejectWith "compiled spec not found")
  | some spec => do
    let runId := db.runs.length
    let budget := loadOrCreateBudget db spec.cycleId
    let txn : Txn :=
      { newRuns := [{
          experimentSpecId := specId, charterId := spec.charterId, cycleId := spec.cycleId
          runNumber := nextRunNumber db specId }]
        budget := some budget }
    match ← launchGate (policyOf db spec.cycleId) (currentProfile input.payload) spec with
    | some gate =>
      return succeedWith
        { txn with
          newJobs := [preparedJob db spec.cycleId runId]
          newDecisions := loopGateDecision db spec budget input.payload.loopContext gate
          events := [.gateTriggered spec.cycleId gate.gateName (some runId)] }
        (some .loopDeciding)
    | none =>
      return succeedWith
        { txn with newJobs := [enqueueNext db spec.cycleId .executionSetup runId] }
        none

def protocolCompileOperator (db : Db) (input : OperatorInput) (phase : Phase) (world : External) :
    Except String (Txn × Next) :=
  match phase with
  | .compiled specId => prepareRun db input specId
  | _ => compileSpecs db input world

end Synthetos.Protocols
