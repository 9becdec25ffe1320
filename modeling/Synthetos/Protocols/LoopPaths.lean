import Synthetos.Protocols.Compile
import Synthetos.Lib.Except

/-!
# The paths through the loop operators

What a returned step of the loop, or of the compiler it calls, was made of.
-/

namespace Synthetos.Protocols

open Synthetos.Core Storage Lib Autonomy Remediation

variable {db : Db} {input : OperatorInput} {world : External} {it it' : Iteration} {txn : Txn}
  {next : Next} {prepared : RunId} {specId : SpecId}

theorem summarizeContext_cases (h : summarizeContext it world = .ok it') :
    it' = it ∨ ∃ path, it' = { it with
      contextSummaryPath := some path
      txn := { it.txn with events := it.txn.events ++ [.contextSummarized it.cycleId path] } } := by
  unfold summarizeContext at h
  split at h
  · obtain ⟨path, -, h⟩ := bind_eq_ok.mp h
    exact .inr ⟨path, (pure_eq_ok.mp h).symm⟩
  · exact .inl (Except.ok.inj h).symm

/-- The lifecycle update leaves the iteration as it is, or writes the card it is about. -/
theorem updateHypothesisStatus_cases (h : updateHypothesisStatus db it = .ok it') :
    it' = it ∨ ∃ id card status, it.cardId = some id ∧ db.cards[id]? = some card ∧
      it' = { it with txn := { it.txn with
        cardStatuses := it.txn.cardStatuses ++ [(id, status)]
        events := it.txn.events ++ [.hypothesisStatusChanged id card.status status] } } := by
  unfold updateHypothesisStatus at h
  split at h
  · exact .inl (Except.ok.inj h).symm
  · rename_i id hid
    split at h
    · exact .inl (Except.ok.inj h).symm
    · rename_i card hcard
      obtain ⟨status, -, h⟩ := bind_eq_ok.mp h
      split at h
      · exact .inl (pure_eq_ok.mp h).symm
      · rename_i status
        split at h
        · exact .inl (pure_eq_ok.mp h).symm
        · exact .inr ⟨id, card, status, hid, hcard, (pure_eq_ok.mp h).symm⟩

/-- The cards as a pivot selects among them: the writes of the iteration, and then its own card. -/
def pivotCards (db : Db) (it : Iteration) : List HypothesisCard :=
  let cards := Db.setCardStatuses db.cards it.txn.cardStatuses
  Db.setCardStatuses cards (deprioritizeCurrent cards it.cardId)

def droppedCard (db : Db) (it : Iteration) : Iteration :=
  let cards := Db.setCardStatuses db.cards it.txn.cardStatuses
  { it with txn := { it.txn with
    cardStatuses := it.txn.cardStatuses ++ deprioritizeCurrent cards it.cardId } }

def selectedCard (db : Db) (it : Iteration) (k : CardId) : Iteration :=
  let it := droppedCard db it
  { it with txn := { it.txn with events := it.txn.events ++ [.hypothesisSelected k] } }

/-- A pivot finds no card or no session to compile it in, or pauses, launches or compiles. -/
inductive PivotPath (db : Db) (it : Iteration) (step : Txn × Next) : Prop where
  | exhausted (reasoning : String) (hnone : nextViableCard (pivotCards db it) it.cycleId = none)
      (h : stopLoopWith db (droppedCard db it) .stopExhausted reasoning = step)
  | paused (card : HypothesisCard) (k : CardId) (spec : ExperimentSpec) (s : SpecId)
      (gate : GateResult) (hcard : nextViableCard (pivotCards db it) it.cycleId = some (card, k))
      (hspec : validatedSpecOf db k = some (spec, s))
      (hgate : launchGate it.policy (it.spec.bind ExperimentSpec.hardwareProfile) spec =
        .ok (some gate))
      (h : pauseForGate (selectedCard db it k) gate = step)
  | launched (card : HypothesisCard) (k : CardId) (spec : ExperimentSpec) (s : SpecId)
      (hcard : nextViableCard (pivotCards db it) it.cycleId = some (card, k))
      (hspec : validatedSpecOf db k = some (spec, s))
      (hgate : launchGate it.policy (it.spec.bind ExperimentSpec.hardwareProfile) spec = .ok none)
      (h : launchRun db (selectedCard db it k) s .pivotHypothesis
        s!"Pivoting to {card.title} (already compiled)." (some k) = step)
  | sessionless (card : HypothesisCard) (k : CardId) (reasoning : String)
      (hcard : nextViableCard (pivotCards db it) it.cycleId = some (card, k))
      (hsession : sessionOf db it.cycleId = none)
      (h : stopLoopWith db (selectedCard db it k) .stopExhausted reasoning = step)
  | compiled (card : HypothesisCard) (k : CardId) (session : SessionId)
      (hcard : nextViableCard (pivotCards db it) it.cycleId = some (card, k))
      (hsession : sessionOf db it.cycleId = some session)
      (h : succeedWith
        { (selectedCard db it k).txn with
          newJobs := [createJob db (some it.cycleId) .protocolCompile
            { hypothesisSessionId := some session, hypothesisCardIds := [k]
              fromLoop := true, loopContext := some (loopContext it) } 10]
          newDecisions := [decisionRow (selectedCard db it k) .pivotHypothesis
            s!"Pivoting to {card.title} (needs compilation)." none (some k)
            (some "compile_new_hypothesis")]
          events := (selectedCard db it k).txn.events ++
            [.loopDecisionMade it.cycleId it.iterationNumber .pivotHypothesis] }
        (some .running) = step)

theorem pivotHypothesis_path {step : Txn × Next} (h : pivotHypothesis db it = .ok step) :
    PivotPath db it step := by
  unfold pivotHypothesis at h
  dsimp only at h
  split at h
  · rename_i card k hcard
    split at h
    · rename_i spec s hexisting
      have hspec : validatedSpecOf db k = some (spec, s) := by
        split at hexisting
        · exact hexisting
        · cases hexisting
      obtain ⟨gate, hgate, h⟩ := bind_eq_ok.mp h
      cases gate with
      | none => exact .launched card k spec s hcard hspec hgate (pure_eq_ok.mp h)
      | some gate => exact .paused card k spec s gate hcard hspec hgate (pure_eq_ok.mp h)
    · split at h
      · rename_i hsession
        exact .sessionless card k _ hcard hsession (pure_eq_ok.mp h)
      · rename_i session hsession
        exact .compiled card k session hcard hsession (pure_eq_ok.mp h)
  · rename_i hnone
    refine .exhausted _ ?_ (pure_eq_ok.mp h)
    cases hselected : nextViableCard (pivotCards db it) it.cycleId with
    | none => rfl
    | some row => exact absurd hselected (hnone row.1 row.2)

inductive ActPath (db : Db) (it : Iteration) (step : Txn × Next) : Prop where
  | stopped (reasoning : String)
      (htype : it.recommendation.recommendationType ≠ .hypothesisPivot)
      (h : stopLoopWith db it .stopHalt reasoning = step)
  | repeated (spec : ExperimentSpec)
      (htype : it.recommendation.recommendationType = .continueCurrent)
      (hspec : it.spec = some spec) (hrepeats : repeats db it spec = true)
      (h : varyParameters db
        { it with txn := { it.txn with
          events := it.txn.events ++ [.repetitionDetected it.run.experimentSpecId] } } spec = step)
  | paused (spec : ExperimentSpec) (gate : GateResult)
      (htype : it.recommendation.recommendationType = .continueCurrent)
      (hspec : it.spec = some spec)
      (hgate : launchGate it.policy spec.hardwareProfile spec = .ok (some gate))
      (h : pauseForGate it gate = step)
  | continued (spec : ExperimentSpec)
      (htype : it.recommendation.recommendationType = .continueCurrent)
      (hspec : it.spec = some spec)
      (hgate : launchGate it.policy spec.hardwareProfile spec = .ok none)
      (h : continueCurrent db it spec = step)
  | pivoted (htype : it.recommendation.recommendationType = .hypothesisPivot)
      (h : pivotHypothesis db it = .ok step)
  | varied (spec : ExperimentSpec)
      (htype : it.recommendation.recommendationType = .parameterVariation)
      (hspec : it.spec = some spec) (h : varyParameters db it spec = step)

theorem actOnRecommendation_path {step : Txn × Next} (h : actOnRecommendation db it = .ok step) :
    ActPath db it step := by
  unfold actOnRecommendation at h
  split at h
  · rename_i htype
    exact .stopped _ (by rw [htype]; decide) (Except.ok.inj h)
  · rename_i spec htype hspec
    split at h
    · exact .repeated spec htype hspec ‹_› (Except.ok.inj h)
    · unfold continueOrPause at h
      obtain ⟨gate, hgate, h⟩ := bind_eq_ok.mp h
      cases gate with
      | none => exact .continued spec htype hspec hgate (pure_eq_ok.mp h)
      | some gate => exact .paused spec gate htype hspec hgate (pure_eq_ok.mp h)
  · exact .pivoted ‹_› h
  · rename_i spec htype hspec
    exact .varied spec htype hspec (Except.ok.inj h)
  · exact .stopped _ ‹_› (Except.ok.inj h)

theorem proceed_eq_ok {step : Txn × Next} : proceed db it world = .ok step ↔
    ∃ summarized updated, summarizeContext it world = .ok summarized ∧
      updateHypothesisStatus db summarized = .ok updated ∧
      actOnRecommendation db updated = .ok step := by
  unfold proceed
  constructor
  · intro h
    obtain ⟨summarized, hsummarized, h⟩ := bind_eq_ok.mp h
    obtain ⟨updated, hupdated, h⟩ := bind_eq_ok.mp h
    exact ⟨summarized, updated, hsummarized, hupdated, h⟩
  · rintro ⟨summarized, updated, hsummarized, hupdated, h⟩
    exact bind_eq_ok.mpr ⟨summarized, hsummarized, bind_eq_ok.mpr ⟨updated, hupdated, h⟩⟩

/-- A fresh iteration whose run was counted stops, pauses or proceeds. -/
inductive FreshPath (db : Db) (it : Iteration) (world : External) (step : Txn × Next) : Prop where
  | exhausted (exceeded : BudgetExceeded) (hbudget : exhaustedBudget it = some exceeded)
      (h : stopLoopWith db it .stopBudget exceeded.detail = step)
  | paused (gate : GateResult) (hbudget : exhaustedBudget it = none)
      (hgate : freshGate db it = .ok (some gate)) (h : pauseForGate it gate = step)
  | proceeds (hbudget : exhaustedBudget it = none) (hgate : freshGate db it = .ok none)
      (h : proceed db it world = .ok step)

theorem decideFresh_path {step : Txn × Next} (h : decideFresh db it world = .ok step) :
    FreshPath db (countRun db it) world step := by
  unfold decideFresh at h
  dsimp only at h
  split at h
  · rename_i exceeded hbudget
    exact .exhausted exceeded hbudget (Except.ok.inj h)
  · rename_i hbudget
    obtain ⟨gate, hgate, h⟩ := bind_eq_ok.mp h
    cases gate with
    | none => exact .proceeds hbudget hgate h
    | some gate => exact .paused gate hbudget hgate (pure_eq_ok.mp h)

/-- The iteration `loop_decide` opens, when no prepared run is named and its rows are found. -/
inductive Opens (db : Db) (input : OperatorInput) : Iteration → Prop where
  | rows (recId : RecommendationId) (runId : RunId) (recommendation : RunRecommendation)
      (run : RunRecord) (cycle : ResearchCycle)
      (hfresh : input.payload.preparedRunRecordId = none)
      (hrec : input.payload.recommendationId = some recId)
      (hr : input.payload.runRecordId = some runId)
      (hrow : db.recommendations[recId]? = some recommendation)
      (hrun : db.runs[runId]? = some run) (hcycle : db.cycles[run.cycleId]? = some cycle) :
      Opens db input
        { jobId := input.jobId, runId, run, recId, recommendation
          spec := db.specs[run.experimentSpecId]?, policy := cycle.autonomy
          budget := loadOrCreateBudget db run.cycleId
          iterationNumber := (decisionsOf db run.cycleId).length + 1
          txn := { budget := some (loadOrCreateBudget db run.cycleId) } }

theorem Opens.fresh (h : Opens db input it) : input.payload.preparedRunRecordId = none := by
  cases h with
  | rows recId runId recommendation run cycle hfresh => exact hfresh

/-- Until its run is counted or its pause is resumed, an iteration has written its budget alone. -/
theorem Opens.txn_eq (h : Opens db input it) : it.txn = { budget := some it.budget } := by
  cases h with
  | rows => rfl

/-- The operator is refused, launches a prepared run, or opens an iteration and decides it. -/
inductive DecidePath (db : Db) (input : OperatorInput) (world : External) (step : Txn × Next) :
    Prop where
  | rejected (error : String) (h : rejectWith error = step)
  | prepared (prepared : RunId) (run : RunRecord)
      (hprepared : input.payload.preparedRunRecordId = some prepared)
      (hrun : db.runs[prepared]? = some run)
      (h : succeedWith { newJobs := [enqueueNext db run.cycleId .executionSetup prepared] }
        (some .running) = step)
  | fresh (it : Iteration) (hopens : Opens db input it) (hnone : gateDecisionsOf db it.runId = [])
      (h : decideFresh db it world = .ok step)
  | resumed (it : Iteration) (gateDecision : LoopDecision) (hopens : Opens db input it)
      (hone : gateDecisionsOf db it.runId = [gateDecision])
      (h : decideResumed db it gateDecision world = .ok step)

theorem loopDecide_path {step : Txn × Next} (h : loopDecideOperator db input world = .ok step) :
    DecidePath db input world step := by
  unfold loopDecideOperator at h
  split at h
  · rename_i prepared hprepared
    have h := Except.ok.inj h
    unfold decidePrepared at h
    split at h
    · exact .rejected _ h
    · exact .prepared prepared _ hprepared ‹_› h
  rename_i hfresh
  split at h
  case h_2 => exact .rejected _ (Except.ok.inj h)
  rename_i recId runId hrec hr
  split at h
  · exact .rejected _ (Except.ok.inj h)
  · exact .rejected _ (Except.ok.inj h)
  rename_i recommendation run hrow hrun
  split at h
  · exact .rejected _ (Except.ok.inj h)
  rename_i cycle hcycle
  have hopens := Opens.rows recId runId recommendation run cycle hfresh hrec hr hrow hrun hcycle
  dsimp only at h
  split at h
  · exact .fresh _ hopens ‹_› h
  · exact .resumed _ _ hopens ‹_› h
  · exact absurd h nofun

def preparedTxn (db : Db) (specId : SpecId) (spec : ExperimentSpec) : Txn where
  newRuns := [{
    experimentSpecId := specId, charterId := spec.charterId, cycleId := spec.cycleId
    runNumber := nextRunNumber db specId }]
  budget := some (loadOrCreateBudget db spec.cycleId)

/-- The run of a compiled spec waits at a gate, or is launched. -/
inductive PreparePath (db : Db) (input : OperatorInput) (specId : SpecId) (step : Txn × Next) :
    Prop where
  | missing (error : String) (h : rejectWith error = step)
  | gated (spec : ExperimentSpec) (gate : GateResult) (hspec : db.specs[specId]? = some spec)
      (hgate : launchGate (policyOf db spec.cycleId) (currentProfile input.payload) spec =
        .ok (some gate))
      (h : succeedWith
        { preparedTxn db specId spec with
          newJobs := [preparedJob db spec.cycleId db.runs.length]
          newDecisions := loopGateDecision db spec (loadOrCreateBudget db spec.cycleId)
            input.payload.loopContext gate
          events := [.gateTriggered spec.cycleId gate.gateName (some db.runs.length)] }
        (some .loopDeciding) = step)
  | launched (spec : ExperimentSpec) (hspec : db.specs[specId]? = some spec)
      (hgate : launchGate (policyOf db spec.cycleId) (currentProfile input.payload) spec = .ok none)
      (h : succeedWith
        { preparedTxn db specId spec with
          newJobs := [enqueueNext db spec.cycleId .executionSetup db.runs.length] } none = step)

theorem prepareRun_path {step : Txn × Next} (h : prepareRun db input specId = .ok step) :
    PreparePath db input specId step := by
  unfold prepareRun at h
  split at h
  · exact .missing _ (Except.ok.inj h)
  · rename_i spec hspec
    dsimp only at h
    obtain ⟨gate, hgate, h⟩ := bind_eq_ok.mp h
    cases gate with
    | none => exact .launched spec hspec hgate (pure_eq_ok.mp h)
    | some gate => exact .gated spec gate hspec hgate (pure_eq_ok.mp h)

def compiledRows (session : HypothesisSession) (payload : Payload)
    (cards : List (HypothesisCard × CardId)) (drafted : List CompiledSpec) :
    List ExperimentSpec :=
  (cards.zip drafted).map fun row => specRow session payload row.1.2 row.2

def validRows (rows : List ExperimentSpec) : List (ExperimentSpec × Nat) :=
  rows.zipIdx.filter fun row => row.1.status == .validated

def specEvent (db : Db) (row : ExperimentSpec × Nat) : DomainEvent :=
  if row.1.status = .validated then
    .specCompiled (db.specs.length + row.2) row.1.hypothesisCardId
  else
    .specRejected (db.specs.length + row.2) row.1.hypothesisCardId
      row.1.rejectionReason.toList

def compiledTxn (db : Db) (cards : List (HypothesisCard × CardId)) (rows : List ExperimentSpec) :
    Txn where
  newSpecs := rows
  cardStatuses := selectedCards cards ++
    (validRows rows).map fun row => (row.1.hypothesisCardId, .compiled)
  events := rows.zipIdx.map (specEvent db) ++
    [.compilationCompleted (validRows rows).length (rows.length - (validRows rows).length)]

def compiledNext (db : Db) (payload : Payload) (rows : List ExperimentSpec) : Next :=
  match validRows rows with
  | [] => .finish (.failure
      s!"all {rows.length - (validRows rows).length} specs were rejected as under-specified")
  | first :: _ =>
    if payload.fromLoop then .suspend (.compiled (db.specs.length + first.2))
    else .finish { success := true, statePatch := some .protocolReady }

theorem compiledNext_nil (db : Db) (payload : Payload) {rows : List ExperimentSpec}
    (h : validRows rows = []) :
    compiledNext db payload rows = .finish (.failure
      s!"all {rows.length - (validRows rows).length} specs were rejected as under-specified") := by
  unfold compiledNext
  split
  · rfl
  · rename_i first rest hvalid
    exact absurd (h.symm.trans hvalid) (List.cons_ne_nil first rest).symm

theorem compiledNext_cons (db : Db) (payload : Payload) {rows : List ExperimentSpec}
    {first : ExperimentSpec × Nat} {rest : List (ExperimentSpec × Nat)}
    (h : validRows rows = first :: rest) :
    compiledNext db payload rows =
      if payload.fromLoop then .suspend (.compiled (db.specs.length + first.2))
      else .finish { success := true, statePatch := some .protocolReady } := by
  unfold compiledNext
  rw [h]

/-- A compilation is refused before the language model is asked or answered, or writes one row
for each drafted spec. -/
inductive CompilePath (db : Db) (input : OperatorInput) (world : External) (step : Txn × Next) :
    Prop where
  | rejected (error : String) (h : rejectWith error = step)
  | drafted (sessionId : SessionId) (session : HypothesisSession)
      (cards : List (HypothesisCard × CardId)) (drafted : List CompiledSpec)
      (hsessionId : input.payload.hypothesisSessionId = some sessionId)
      (hsession : db.sessions[sessionId]? = some session)
      (hcards : selectCards db input.payload sessionId session = .ok cards)
      (hdrafted : world.compiledSpecs = .ok drafted)
      (h : (compiledTxn db cards (compiledRows session input.payload cards drafted),
        compiledNext db input.payload (compiledRows session input.payload cards drafted)) = step)

theorem compileSpecs_path {step : Txn × Next} (h : compileSpecs db input world = .ok step) :
    CompilePath db input world step := by
  unfold compileSpecs at h
  split at h
  · exact .rejected _ (Except.ok.inj h)
  rename_i sessionId hsessionId
  split at h
  · exact .rejected _ (Except.ok.inj h)
  rename_i session hsession
  split at h
  · exact .rejected _ (Except.ok.inj h)
  · exact .rejected _ (Except.ok.inj h)
  rename_i cards _ hcards
  split at h
  · exact .rejected _ (Except.ok.inj h)
  rename_i drafted hdrafted
  refine .drafted sessionId session cards drafted hsessionId hsession hcards hdrafted ?_
  dsimp only at h
  split at h
  · rw [compiledNext_nil db input.payload ‹_›]
    exact Except.ok.inj h
  · rw [compiledNext_cons db input.payload ‹_›]
    split at h
    · rw [if_pos ‹_›]
      exact Except.ok.inj h
    · rw [if_neg ‹_›]
      exact Except.ok.inj h

end Synthetos.Protocols
