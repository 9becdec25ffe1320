import Synthetos.Storage.Session

/-!
# Budget tracking

Run count, wall-clock time and per-hypothesis run counts of a cycle.
-/

namespace Synthetos.Autonomy

open Synthetos.Core Storage Lib

/-- Which limit is exhausted, with the text the loop records for it. -/
structure BudgetExceeded where
  limitName : String
  detail : String

def budgetOf (db : Db) (cycle : CycleId) : Option AutonomyBudget :=
  db.budgets.find? fun budget => budget.cycleId == cycle

def loadOrCreateBudget (db : Db) (cycle : CycleId) : AutonomyBudget :=
  (budgetOf db cycle).getD { cycleId := cycle, startedAt := db.now }

def countFor (counts : List (CardId × Nat)) (card : CardId) : Nat :=
  (counts.lookup card).getD 0

def bump (card : CardId) : List (CardId × Nat) → List (CardId × Nat)
  | [] => [(card, 1)]
  | (c, n) :: rest => if c == card then (c, n + 1) :: rest else (c, n) :: bump card rest

/-- `(now - started_at).total_seconds()`; timestamps count microseconds. -/
def secondsBetween (start now : Timestamp) : Rat := ((now : Rat) - (start : Rat)) / 1000000

def incrementBudget (now : Timestamp) (budget : AutonomyBudget) (card : CardId) :
    AutonomyBudget :=
  { budget with
    totalRuns := budget.totalRuns + 1
    lastRunCompletedAt := some now
    wallClockElapsedS := secondsBetween budget.startedAt now
    runsPerHypothesis := bump card budget.runsPerHypothesis }

def checkBudget (policy : AutonomyPolicy) (budget : AutonomyBudget) : Option BudgetExceeded :=
  if policy.maxTotalRuns.any fun limit => limit ≤ (budget.totalRuns : Int) then
    some ⟨"max_total_runs",
      s!"Total runs ({budget.totalRuns}) reached limit ({policy.maxTotalRuns.getD 0})."⟩
  else if policy.maxWallClockHours.any fun limit => limit ≤ budget.wallClockElapsedS / 3600 then
    some ⟨"max_wall_clock_hours",
      s!"Wall-clock time ({budget.wallClockElapsedS / 3600}h) reached limit ({policy.maxWallClockHours.getD 0}h)."⟩
  else none

def checkPerHypothesisBudget (policy : AutonomyPolicy) (budget : AutonomyBudget) (card : CardId) :
    Option BudgetExceeded :=
  let count := countFor budget.runsPerHypothesis card
  if policy.maxRunsPerHypothesis.any fun limit => limit ≤ (count : Int) then
    some ⟨"max_runs_per_hypothesis",
      s!"Hypothesis {card} has {count} runs, limit is {policy.maxRunsPerHypothesis.getD 0}."⟩
  else none

/-- The run a `budget_updated` event counts. -/
def chargedRun : DomainEvent → Option RunId
  | .budgetUpdated run _ => some run
  | _ => none

/-- The runs the events count, one entry for each time. -/
def charges (events : List DomainEvent) : List RunId := events.filterMap chargedRun

@[simp] theorem charges_nil : charges [] = [] := rfl

@[simp] theorem charges_append (a b : List DomainEvent) :
    charges (a ++ b) = charges a ++ charges b := List.filterMap_append

theorem charges_logged {events : List DomainEvent} {event : DomainEvent}
    (h : chargedRun event = none) : charges (events ++ [event]) = charges events := by
  rw [charges_append]
  simp [charges, h]

@[simp] theorem incrementBudget_cycleId (now : Timestamp) (budget : AutonomyBudget)
    (card : CardId) : (incrementBudget now budget card).cycleId = budget.cycleId := rfl

@[simp] theorem incrementBudget_totalRuns (now : Timestamp) (budget : AutonomyBudget)
    (card : CardId) : (incrementBudget now budget card).totalRuns = budget.totalRuns + 1 := rfl

theorem countFor_bump (counts : List (CardId × Nat)) (card other : CardId) :
    countFor (bump card counts) other
      = countFor counts other + if other = card then 1 else 0 := by
  induction counts with
  | nil =>
    by_cases same : other = card
    · subst same
      simp [bump, countFor]
    · have differs : (other == card) = false := by simpa using same
      simp [bump, countFor, same]
  | cons entry rest ih =>
    obtain ⟨c, n⟩ := entry
    unfold countFor at ih ⊢
    by_cases hit : c = card
    · subst hit
      by_cases same : other = c
      · subst same
        simp [bump]
      · have differs : (other == c) = false := by simpa using same
        simp [bump, List.lookup_cons, same, differs]
    · have miss : (c == card) = false := by simpa using hit
      by_cases same : other = c
      · subst same
        simp [bump, miss, hit]
      · have differs : (other == c) = false := by simpa using same
        simp only [bump, miss, List.lookup_cons, differs, Bool.false_eq_true, if_false]
        exact ih

end Synthetos.Autonomy
