import Synthetos.Core.JobService

/-!
# The cycle state machine

`allowedTransitions` is the directed graph of cycle statuses; `validateTransition` guards the
writers that consult it.
-/

namespace Synthetos.Core

open Storage Lib

def allowedTransitions : CycleStatus → List CycleStatus
  | .created => [.discoveryReady]
  | .discoveryReady => [.discoveryScreened]
  | .discoveryScreened => [.analysisReady]
  | .analysisReady => [.analysisReady, .evidenceReady]
  | .evidenceReady => [.portfolioReady]
  | .portfolioReady => [.protocolReady]
  | .protocolReady => [.running]
  | .running => [.verifying, .running]
  | .verifying => [.reporting, .running, .loopDeciding]
  | .loopDeciding => [.running, .reporting]
  | .reporting => [.closed]
  | .closed => []

def validTransition (current target : CycleStatus) : Bool :=
  (allowedTransitions current).contains target

def invalidTransitionError (current target : CycleStatus) : String :=
  s!"Cannot transition from {current.value} to {target.value}"

/-- `cycle.status = target` with the timestamps that go with it, and the transition event. -/
def setCycleStatus (db : Db) (c : CycleId) (seen target : CycleStatus) : Db :=
  emit
    { db with cycles := Table.update db.cycles c fun cycle =>
        { cycle with
          status := ormSet seen target cycle.status
          updatedAt := db.now
          startedAt :=
            if target = .discoveryReady ∧ cycle.startedAt = none then some db.now
            else cycle.startedAt
          completedAt := if target = .closed then some db.now else cycle.completedAt } }
    [.cycleTransitioned c seen target]

/-- `cycle.status = target` without validation, timestamps of phases or event. -/
def assignCycleStatus (db : Db) (c : CycleId) (seen target : CycleStatus) : Db :=
  { db with cycles := Table.update db.cycles c fun cycle =>
      { cycle with status := ormSet seen target cycle.status, updatedAt := db.now } }

theorem ormSet_of_eq {α : Type} [DecidableEq α] {seen target current : α}
    (fresh : current = seen) : ormSet seen target current = target := by
  unfold ormSet
  split
  · rw [fresh, ‹seen = target›]
  · rfl

end Synthetos.Core
