import Synthetos.Worker.Exits

/-!
# Resuming the loop

After a gate pause `loop_decide` is executed again and proceeds with its recommendation.  It acts
when nothing goes wrong and the launch it comes to meets no further gate.
-/

namespace Synthetos.Loop

open Synthetos.Core Storage Lib Worker Autonomy

/-- The transaction takes no gate decision. -/
def GateFree (txn : Txn) : Prop := ∀ row ∈ txn.newDecisions, row.decision ≠ .stopGate

/-- The step launches the next run, directly or through the compiler, or stops the loop. -/
inductive Advances : Txn × Next → Prop where
  | launches (txn : Txn) (job : Job) (hjobs : txn.newJobs = [job])
      (htype : job.jobType = .executionSetup ∨ job.jobType = .protocolCompile)
      (hpause : txn.pausedJob = none) (hfree : GateFree txn) :
      Advances (txn, done (some .running))
  | stops (txn : Txn) (job : Job) (hjobs : txn.newJobs = [job])
      (htype : job.jobType = .loopReport) (hpause : txn.pausedJob = none)
      (hfree : GateFree txn) : Advances (txn, done (some .reporting))

/-- The computation returns a step that advances the loop. -/
def Acts (out : Except String (Txn × Next)) : Prop := ∃ step, out = .ok step ∧ Advances step

/-- The iteration `loop_decide` works on, when it finds its rows. -/
def iterationOf (db : Db) (input : OperatorInput) : Option Iteration := do
  let recId ← input.payload.recommendationId
  let runId ← input.payload.runRecordId
  let recommendation ← db.recommendations[recId]?
  let run ← db.runs[runId]?
  let cycle ← db.cycles[run.cycleId]?
  let budget := loadOrCreateBudget db run.cycleId
  return {
    jobId := input.jobId, runId, run, recId, recommendation
    spec := db.specs[run.experimentSpecId]?, policy := cycle.autonomy, budget
    iterationNumber := (Remediation.decisionsOf db run.cycleId).length + 1
    txn := { budget := some budget } }

/-- The cards a pivot chooses from: its own card is out of the race. -/
def otherCards (db : Db) (it : Iteration) : List HypothesisCard :=
  Db.setCardStatuses db.cards (it.cardId.toList.map fun id => (id, .deprioritized))

def pivotTarget (db : Db) (it : Iteration) : Option ExperimentSpec := do
  let (next, id) ← nextViableCard (otherCards db it) it.cycleId
  if next.status = .compiled then (validatedSpecOf db id).map Prod.fst else none

/-- The spec the recommendation launches without another compilation. -/
def launchTarget (db : Db) (it : Iteration) : Option ExperimentSpec :=
  match it.recommendation.recommendationType, it.spec with
  | .continueCurrent, some spec => if repeats db it spec then none else some spec
  | .hypothesisPivot, _ => pivotTarget db it
  | _, _ => none

/-- The recommendation has the current spec compiled again. -/
def recompiles (db : Db) (it : Iteration) : Bool :=
  match it.recommendation.recommendationType, it.spec with
  | .continueCurrent, some spec => repeats db it spec
  | .parameterVariation, some _ => true
  | _, _ => false

/-- The gates at the launch of `spec`. -/
def gateBefore (it : Iteration) (spec : ExperimentSpec) : Except String (Option GateResult) :=
  launchGate it.policy (it.spec.bind ExperimentSpec.hardwareProfile) spec

/-- No gate fires at the launch the iteration comes to. -/
def Ungated (db : Db) (it : Iteration) : Prop :=
  ∀ spec gate, launchTarget db it = some spec → gateBefore it spec ≠ .ok (some gate)

/-- Nothing is raised before the iteration acts, and a spec to compile has a session. -/
structure Undisturbed (db : Db) (it : Iteration) (world : External) : Prop where
  raised : world.raised = none
  summary : it.contextSummaryPath = none →
    shouldGenerateSummary it.budget.totalRuns it.policy.summaryInterval = true →
      ∃ path, world.summaryPath = .ok path
  status : ∀ id card, it.cardId = some id → db.cards[id]? = some card →
    ∃ status, potentialStatus db it card = .ok status
  gates : ∀ spec, launchTarget db it = some spec → ∃ gate, gateBefore it spec = .ok gate
  session : recompiles db it = true → (sessionOf db it.cycleId).isSome = true

def resumed (it : Iteration) (gateDecision : LoopDecision) : Iteration :=
  { it with
    iterationNumber := gateDecision.iterationNumber
    contextSummaryPath := gateDecision.contextSummaryPath
    txn := { it.txn with events := it.txn.events ++ [.gateResumed it.cycleId (some it.runId)] } }

variable {db : Db} {input : OperatorInput} {phase : Phase} {world : External} {it it' : Iteration}
  {spec : ExperimentSpec}

theorem gateFree_single {txn : Txn} {row : LoopDecision} (h : txn.newDecisions = [row])
    (hdecision : row.decision ≠ .stopGate) : GateFree txn := by
  intro row' hrow
  rw [h] at hrow
  obtain rfl := List.mem_singleton.mp hrow
  exact hdecision

/-! ### Steps that do not advance -/

theorem not_advances_rejectWith (error : String) : ¬ Advances (rejectWith error) := by
  intro h
  generalize hout : rejectWith error = out at h
  cases h with
  | launches | stops => exact absurd hout nofun

theorem not_advances_pauseForGate (gate : GateResult) : ¬ Advances (pauseForGate it gate) := by
  intro h
  generalize hout : pauseForGate it gate = out at h
  cases h with
  | launches | stops => exact absurd hout nofun

theorem acts_pure {step : Txn × Next} : Acts (pure step) ↔ Advances step := by
  constructor
  · rintro ⟨step', hstep, h⟩
    obtain rfl := pure_eq_ok.mp hstep
    exact h
  · intro h
    exact ⟨step, rfl, h⟩

theorem acts_bind {α : Type} {x : Except String α} {f : α → Except String (Txn × Next)} :
    Acts (x >>= f) ↔ ∃ a, x = .ok a ∧ Acts (f a) := by
  constructor
  · rintro ⟨step, hstep, h⟩
    obtain ⟨a, ha, hf⟩ := bind_eq_ok.mp hstep
    exact ⟨a, ha, step, hf, h⟩
  · rintro ⟨a, ha, step, hf, h⟩
    exact ⟨step, bind_eq_ok.mpr ⟨a, ha, hf⟩, h⟩

/-! ### The card of a pivot -/

/-- The iteration has written to no job, and to no card but its own. -/
structure OwnWrites (it : Iteration) : Prop where
  pause : it.txn.pausedJob = none
  cards : ∀ change ∈ it.txn.cardStatuses, it.cardId = some change.1

theorem getElem?_setCardStatuses {cards : List HypothesisCard}
    {changes : List (CardId × CardStatus)} {id : CardId}
    (h : ∀ change ∈ changes, change.1 ≠ id) :
    (Db.setCardStatuses cards changes)[id]? = cards[id]? := by
  induction changes generalizing cards with
  | nil => rfl
  | cons change rest ih =>
    rw [Db.setCardStatuses, List.foldl_cons, ← Db.setCardStatuses,
      ih fun change hmem => h change (List.mem_cons_of_mem _ hmem)]
    exact Table.getElem?_update_ne (h change List.mem_cons_self)

theorem length_setCardStatuses {cards : List HypothesisCard}
    {changes : List (CardId × CardStatus)} :
    (Db.setCardStatuses cards changes).length = cards.length := by
  induction changes generalizing cards with
  | nil => rfl
  | cons change rest ih =>
    rw [Db.setCardStatuses, List.foldl_cons, ← Db.setCardStatuses, ih]
    exact Table.length_update

theorem deprioritizeCurrent_status (cards : List HypothesisCard) {id : CardId} {row : HypothesisCard}
    (h : (Db.setCardStatuses cards (deprioritizeCurrent cards (some id)))[id]? = some row) :
    row.status = .deprioritized ∨ row.status = .rejected := by
  unfold deprioritizeCurrent at h
  dsimp only at h
  split at h
  · rename_i hnone
    exact absurd (hnone.symm.trans h) nofun
  · rename_i card hcard
    split at h
    · rename_i hstatus
      obtain rfl := Option.some.inj (hcard.symm.trans h)
      exact hstatus
    · obtain ⟨old, -, rfl⟩ := Table.exists_of_getElem?_update h
      left
      simp

theorem deprioritized_not_viable (cards : List HypothesisCard) {id : CardId}
    {row : HypothesisCard}
    (h : (Db.setCardStatuses cards (deprioritizeCurrent cards (some id)))[id]? = some row)
    (cycle : CycleId) : viable cycle row = false := by
  unfold viable
  rcases deprioritizeCurrent_status cards h with hstatus | hstatus <;> simp [hstatus]

theorem nextViableCard_pivot (db : Db) (hown : OwnWrites it) :
    nextViableCard (Db.setCardStatuses (Db.setCardStatuses db.cards it.txn.cardStatuses)
      (deprioritizeCurrent (Db.setCardStatuses db.cards it.txn.cardStatuses) it.cardId)) it.cycleId =
      nextViableCard (otherCards db it) it.cycleId := by
  have hlength : (Db.setCardStatuses (Db.setCardStatuses db.cards it.txn.cardStatuses)
      (deprioritizeCurrent (Db.setCardStatuses db.cards it.txn.cardStatuses) it.cardId)).length =
      (otherCards db it).length := by
    rw [otherCards, length_setCardStatuses, length_setCardStatuses, length_setCardStatuses]
  unfold nextViableCard
  rw [Table.filter_zipIdx_congr]
  intro k
  by_cases hk : it.cardId = some k
  case neg =>
    left
    have hdropped : ∀ cards, ∀ change ∈ deprioritizeCurrent cards it.cardId, change.1 ≠ k := by
      intro cards change hmem
      unfold deprioritizeCurrent at hmem
      split at hmem
      · exact absurd hmem List.not_mem_nil
      · rename_i id hid
        split at hmem
        · exact absurd hmem List.not_mem_nil
        · split at hmem
          · exact absurd hmem List.not_mem_nil
          · obtain rfl := List.mem_singleton.mp hmem
            rintro rfl
            exact hk hid
    rw [getElem?_setCardStatuses (hdropped _), otherCards, getElem?_setCardStatuses,
      getElem?_setCardStatuses]
    · intro change hmem
      obtain ⟨id, hid, rfl⟩ := List.mem_map.mp hmem
      rintro rfl
      exact hk (Option.mem_toList.mp hid)
    · intro change hmem heq
      exact hk (heq ▸ hown.cards change hmem)
  case pos =>
    cases hrow : (otherCards db it)[k]? with
    | none =>
      left
      rw [List.getElem?_eq_none_iff] at hrow ⊢
      omega
    | some other =>
      right
      have hlt := Table.lt_length_of_getElem? hrow
      rw [← hlength] at hlt
      refine ⟨_, other, List.getElem?_eq_getElem hlt, rfl, ?_, ?_⟩
      · apply deprioritized_not_viable (Db.setCardStatuses db.cards it.txn.cardStatuses)
        rw [← hk]
        exact List.getElem?_eq_getElem hlt
      · rw [otherCards, hk] at hrow
        obtain ⟨old, -, rfl⟩ := Table.exists_of_getElem?_update hrow
        simp [viable]

end Synthetos.Loop
