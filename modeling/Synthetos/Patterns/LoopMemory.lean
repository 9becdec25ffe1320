import Synthetos.Loop.Lifecycle
import Synthetos.Patterns.Artifacts

/-!
# Loop decisions in pattern memory

The rows `loop_decide` writes, as consolidation reads them.
-/

namespace Synthetos.Patterns

open Lib Synthetos.Core

/-- The kinds of decision as they are stored. -/
def decisionKind : Decision → String
  | .continueCurrent => "continue_current"
  | .varyParameters => "vary_parameters"
  | .pivotHypothesis => "pivot_hypothesis"
  | .stopBudget => "stop_budget"
  | .stopGate => "stop_gate"
  | .stopHalt => "stop_halt"
  | .stopExhausted => "stop_exhausted"
  | .stopManual => "stop_manual"

def gateName : GateName → String
  | .afterEveryRun => "after_every_run"
  | .afterEveryNRuns => "after_every_n_runs"
  | .beforeHardwareEscalation => "before_hardware_escalation"
  | .beforeResultPromotion => "before_result_promotion"
  | .beforeNetworkExecution => "before_network_execution"

def nullable (text : Option String) : Json := (text.map Json.str).getD .null

/-- Row `id` of `loop_decisions`, as consolidation reads it. -/
def readDecision (row : Storage.LoopDecision) (id : Id) (createdAt : Timestamp) : LoopDecision where
  id := id
  charterId := row.charterId
  cycleId := row.cycleId
  decision := decisionKind row.decision
  gateTriggered := nullable (row.gateTriggered.map gateName)
  nextAction := nullable row.nextAction
  reasoning := row.reasoning.toList
  createdAt := createdAt

def candidateOf (host : Host) (row : Storage.LoopDecision) (id : Id) (createdAt : Timestamp) :
    Option PatternCandidate :=
  extractRetrievalHeuristic host (readDecision row id createdAt)

def Changes (row : Storage.LoopDecision) : Prop :=
  row.decision = .varyParameters ∨ row.decision = .pivotHypothesis

/-- Every decision that varied or pivoted has a candidate and no other has, and two of their
candidates share a key exactly where kind, gate and next action agree. -/
structure Remembered (host : Host) (history : List Storage.LoopDecision) : Prop where
  candidates : ∀ row ∈ history, ∀ id createdAt,
    (candidateOf host row id createdAt).isSome = true ↔ Changes row
  keys : ∀ row ∈ history, ∀ row' ∈ history, Changes row → Changes row' →
    ∀ id createdAt id' createdAt',
      ((candidateOf host row id createdAt).map PatternCandidate.contentKey =
          (candidateOf host row' id' createdAt').map PatternCandidate.contentKey ↔
        row.decision = row'.decision ∧ row.gateTriggered = row'.gateTriggered ∧
          row.nextAction = row'.nextAction)

variable {host : Host} {row : Storage.LoopDecision} {history : List Storage.LoopDecision}

theorem candidateOf_eq_none (host : Host) (row : Storage.LoopDecision) (id : Id)
    (createdAt : Timestamp) : candidateOf host row id createdAt = none := by
  have hkind : decisionKind row.decision ∉ ["parameter_variation", "hypothesis_pivot"] := by
    cases row.decision <;> decide
  exact if_neg hkind

/-- A history is remembered as it should be exactly where no decision of it varied or pivoted. -/
theorem remembered_iff (host : Host) (history : List Storage.LoopDecision) :
    Remembered host history ↔ ∀ row ∈ history, ¬ Changes row := by
  constructor
  · intro h row hrow hchanges
    have hsome := (h.candidates row hrow 0 0).mpr hchanges
    rw [candidateOf_eq_none] at hsome
    cases hsome
  · intro h
    constructor
    · intro row hrow id createdAt
      rw [candidateOf_eq_none]
      exact iff_of_false (by simp) (h row hrow)
    · intro row hrow _ _ hchanges
      exact absurd hchanges (h row hrow)

/-- A loop that varies the parameters after its first run leaves nothing to consolidate. -/
theorem variation_not_remembered : ∃ sys : Runtime,
    Loop.twinCycle.Initial ∧ Reaches Unguarded (Runtime.step {}) Loop.twinCycle sys ∧
      (∃ row ∈ sys.db.decisions, row.decision = .varyParameters ∧
        ∀ host id createdAt, candidateOf host row id createdAt = none) ∧
      ∀ host, ¬ Remembered host sys.db.decisions := by
  obtain ⟨sys, hrun, htest⟩ := Runtime.run_of_anyone
    (show (perform Runtime.anyone (Runtime.step {}) Loop.twinCycle
      (Loop.firstRun ++ Runtime.work [{}])).any (fun sys =>
        sys.db.decisions.any fun row => row.decision == .varyParameters) = true
        by decide +kernel)
  obtain ⟨row, hrow, hvary⟩ := List.any_eq_true.mp htest
  have hvary : row.decision = .varyParameters := beq_iff_eq.mp hvary
  refine ⟨sys, { Loop.gatedCycle_initial {} with }, hrun,
    ⟨row, hrow, hvary, fun host => candidateOf_eq_none host row⟩, fun host h => ?_⟩
  have hsome := (h.candidates row hrow 0 0).mpr (.inl hvary)
  rw [candidateOf_eq_none] at hsome
  cases hsome

end Synthetos.Patterns
