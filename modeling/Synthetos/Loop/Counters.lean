import Synthetos.Loop.Accounting
import Synthetos.Loop.Ledger

/-!
# Counters and the runs they count

The budget of a cycle against the events that count its runs.
-/

namespace Synthetos.Loop

open Synthetos.Core Storage Lib Worker Autonomy Protocols

def chargedTo (db : Db) (r : RunId) : Option (CycleId × CardId) := do
  let run ← db.runs[r]?
  let spec ← db.specs[run.experimentSpecId]?
  return (run.cycleId, spec.hypothesisCardId)

def totalOf (db : Db) (c : CycleId) : Nat :=
  ((budgetOf db c).map AutonomyBudget.totalRuns).getD 0

def countOf (db : Db) (c : CycleId) (card : CardId) : Nat :=
  ((budgetOf db c).map fun budget => countFor budget.runsPerHypothesis card).getD 0

def CountersGrow (old new : Db) : Prop :=
  ∀ c, totalOf old c ≤ totalOf new c ∧ ∀ card, countOf old c card ≤ countOf new c card

/-- The row shows the counters of its cycle in `db`. -/
structure ShowsCounters (row : LoopDecision) (db : Db) : Prop where
  total : row.snapshotTotalRuns = totalOf db row.cycleId
  wallClock : row.snapshotWallClockElapsedS =
    ((budgetOf db row.cycleId).map AutonomyBudget.wallClockElapsedS).getD 0
  perHypothesis : row.snapshotRunsPerHypothesis =
    ((budgetOf db row.cycleId).map AutonomyBudget.runsPerHypothesis).getD []

variable {db new : Db} {txn : Txn} {c : CycleId} {card : CardId} {r : RunId} {now : Timestamp}
  {budget : AutonomyBudget} {row : LoopDecision} {p : CycleId × CardId}

theorem sum_bump (card : CardId) (counts : List (CardId × Nat)) :
    ((bump card counts).map Prod.snd).sum = (counts.map Prod.snd).sum + 1 := by
  induction counts with
  | nil => rfl
  | cons entry rest ih =>
    unfold bump
    split
    · simp only [List.map_cons, List.sum_cons]
      omega
    · simp only [List.map_cons, List.sum_cons, ih]
      omega

theorem CountersGrow.refl (db : Db) : CountersGrow db db :=
  fun _ => ⟨Nat.le_refl _, fun _ => Nat.le_refl _⟩

theorem CountersGrow.trans {a b d : Db} (hab : CountersGrow a b) (hbd : CountersGrow b d) :
    CountersGrow a d :=
  fun c => ⟨(hab c).1.trans (hbd c).1, fun card => ((hab c).2 card).trans ((hbd c).2 card)⟩

/-! ### The budget row of a cycle -/

theorem budgetOf_congr (h : new.budgets = db.budgets) (c : CycleId) :
    budgetOf new c = budgetOf db c := by
  rw [budgetOf, h]
  rfl

theorem budgetOf_commit_none (db : Db) (h : txn.budget = none) (c : CycleId) :
    budgetOf (db.commit txn) c = budgetOf db c := by
  refine budgetOf_congr ?_ c
  change Db.upsertBudget db.budgets txn.budget = db.budgets
  rw [h]
  rfl

theorem budgetOf_commit (db : Db) (h : txn.budget = some budget) (c : CycleId) :
    budgetOf (db.commit txn) c = if budget.cycleId = c then some budget else budgetOf db c := by
  have hbudgets : (db.commit txn).budgets =
      Table.upsert db.budgets (fun old => old.cycleId == budget.cycleId) budget := by
    change Db.upsertBudget db.budgets txn.budget = _
    rw [h]
    rfl
  rw [budgetOf, hbudgets]
  by_cases hc : budget.cycleId = c
  · rw [if_pos hc, ← hc]
    exact Table.find?_upsert (beq_self_eq_true _)
  · rw [if_neg hc]
    refine Table.find?_upsert_ne (fun old hold => ?_) ?_
    · rw [beq_iff_eq] at hold
      simpa [hold] using hc
    · simpa using hc

theorem budgetOf_cycle (h : budgetOf db c = some budget) : budget.cycleId = c := by
  have hfound := List.find?_some h
  exact beq_iff_eq.mp hfound

theorem loadOrCreateBudget_cycle (db : Db) (c : CycleId) : (loadOrCreateBudget db c).cycleId = c := by
  unfold loadOrCreateBudget
  cases h : budgetOf db c with
  | none => rfl
  | some budget => exact budgetOf_cycle h

theorem totalOf_eq (db : Db) (c : CycleId) : totalOf db c = (loadOrCreateBudget db c).totalRuns := by
  unfold totalOf loadOrCreateBudget
  cases budgetOf db c <;> rfl

theorem countOf_eq (db : Db) (c : CycleId) (card : CardId) :
    countOf db c card = countFor (loadOrCreateBudget db c).runsPerHypothesis card := by
  unfold countOf loadOrCreateBudget
  cases budgetOf db c <;> rfl

theorem totalOf_stored (h : budgetOf db c = some budget) : totalOf db c = budget.totalRuns := by
  rw [totalOf, h]
  rfl

theorem countOf_stored (h : budgetOf db c = some budget) :
    countOf db c card = countFor budget.runsPerHypothesis card := by
  rw [countOf, h]
  rfl

theorem showsCounters_stored (h : Shows row budget) (hbudget : budgetOf db row.cycleId = some budget) :
    ShowsCounters row db := by
  constructor
  · rw [totalOf_stored hbudget, h.total]
  · rw [hbudget, h.wallClock]
    rfl
  · rw [hbudget, h.perHypothesis]
    rfl

/-! ### Runs -/

theorem chargedTo_grows (hgrows : Grows db new) (h : chargedTo db r = some p) :
    chargedTo new r = some p := by
  simp only [chargedTo, Option.bind_eq_bind, Option.bind_eq_some_iff] at h
  obtain ⟨run, hrun, spec, hspec, h⟩ := h
  obtain ⟨run', hrun', hsame⟩ := hgrows.runs r run hrun
  obtain ⟨spec', hspec', hsameSpec⟩ := hgrows.specs _ spec hspec
  have hcard : spec'.hypothesisCardId = spec.hypothesisCardId := by rw [hsameSpec]
  rw [← hsame.spec] at hspec'
  simp only [chargedTo, hrun', hspec', Option.bind_eq_bind, Option.bind_some, hcard, hsame.cycle]
  exact h

theorem counted_budget (db : Db) {it : Iteration} (hcard : it.cardId = some card) :
    (countRun db it).budget = incrementBudget db.now it.budget card ∧
      (countRun db it).txn.budget = some (incrementBudget db.now it.budget card) ∧
      (countRun db it).txn.events =
        it.txn.events ++ [.budgetUpdated it.runId (it.budget.totalRuns + 1)] := by
  unfold countRun
  rw [hcard]
  exact ⟨rfl, rfl, rfl⟩

end Synthetos.Loop
