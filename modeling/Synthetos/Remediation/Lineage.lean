import Synthetos.Lib.ParentChain
import Synthetos.Worker.ExecutionExits

/-!
# Retry lineages

Retries link to the run they repeat.  Every execution of `auto_remediate` files one action, so the
actions of a lineage count its retries.
-/

namespace Synthetos.Remediation

open Synthetos.Core Storage Lib Worker

def parentOf (runs : List RunRecord) (r : RunId) : Option RunId :=
  runs[r]?.bind RunRecord.parentRunId

variable {db db' : Db} {input : OperatorInput} {world : External} {txn : Txn} {next : Core.Next}
  {r p : RunId} {run : RunRecord} {action : RemediationAction}

theorem lineageUp_eq (runs : List RunRecord) (fuel : Nat) (r : Option RunId) :
    lineageUp runs fuel r = walkUp (parentOf runs) fuel r := by
  induction fuel generalizing r with
  | zero => cases r <;> rfl
  | succ fuel ih =>
    cases r with
    | none => rfl
    | some r => exact congrArg (r :: ·) (ih _)

theorem loadLineageRunIds_eq (h : Descending (parentOf db.runs)) (r : RunId) :
    loadLineageRunIds db r = path (parentOf db.runs) r := by
  rw [loadLineageRunIds, lineageUp_eq]
  rcases Nat.lt_or_ge r db.runs.length with hin | hout
  · rw [walkUp_fuel h (Nat.le_of_lt hin)]
    rfl
  · have hnone : parentOf db.runs r = none := by
      rw [parentOf, List.getElem?_eq_none hout]
      rfl
    rw [path_root hnone]
    cases db.runs.length <;> simp [walkUp, hnone]

/-! ### One execution -/

/-- The action an execution for run `r` files. -/
structure Files (db : Db) (r : RunId) (run : RunRecord) (action : RemediationAction) : Prop where
  target : action.runRecordId = r
  failureClass : action.failureClass = run.failureClass.getD "unknown"
  attempt : action.attemptNumber = countLineageAttempts db r + 1

/-- What an execution for run `r` does: it declines or retries. -/
inductive Remediated (db : Db) (r : RunId) (run : RunRecord) (action : RemediationAction)
    (txn : Txn) : Core.Next → Prop where
  | declined (hjobs : txn.newJobs = [enqueueNext db run.cycleId .verificationPostmortem r])
      (hruns : txn.newRuns = []) (hretry : action.retryRunId = none)
      (hout : action.outcome =
        if defaultMaxAttempts ≤ countLineageAttempts db r then .exhausted else .skipped) :
      Remediated db r run action txn (.finish { success := true, statePatch := none })
  | retried (spec : ExperimentSpec) (world : External) (strat : StrategyResult)
      (hjobs : txn.newJobs = [enqueueNext db run.cycleId .executionSetup db.runs.length])
      (hruns : txn.newRuns = [retryRun run r]) (hout : action.outcome = .retryCreated)
      (hretry : action.retryRunId = some db.runs.length)
      (hcount : countLineageAttempts db r < defaultMaxAttempts)
      (hstrat : selectStrategy (strategyInputs db run r spec world) = .ok strat)
      (hremediable : strat.remediable = true) (hstrategy : action.strategy = strat.strategy)
      (htier : action.strategyTier = strat.strategyTier) :
      Remediated db r run action txn (.finish { success := true, statePatch := some .running })

theorem autoRemediate_cases (h : autoRemediateOperator db input world = .ok (txn, next))
    (hr : input.payload.runRecordId = some r) :
    ∃ run action, db.runs[r]? = some run ∧ txn.newActions = [action] ∧ txn.runUpdate = none ∧
      Files db r run action ∧ Remediated db r run action txn next := by
  cases autoRemediate_path h with
  | unnamed _ hnone => exact absurd (hnone.symm.trans hr) nofun
  | exhausted r' run _ hr' hrun hmax hstep =>
    obtain rfl := Option.some.inj (hr'.symm.trans hr)
    obtain ⟨rfl, rfl⟩ := Prod.mk.inj hstep
    exact ⟨run, _, hrun, rfl, rfl, ⟨rfl, rfl, rfl⟩, .declined rfl rfl rfl (if_pos hmax).symm⟩
  | skipped r' run _ hr' hrun hmax hstep | unfixed r' run _ hr' hrun hmax hstep =>
    obtain rfl := Option.some.inj (hr'.symm.trans hr)
    obtain ⟨rfl, rfl⟩ := Prod.mk.inj hstep
    exact ⟨run, _, hrun, rfl, rfl, ⟨rfl, rfl, rfl⟩, .declined rfl rfl rfl (if_neg hmax).symm⟩
  | retried r' run spec strat hr' hrun hmax hstrat hremediable hstep =>
    obtain rfl := Option.some.inj (hr'.symm.trans hr)
    obtain ⟨rfl, rfl⟩ := Prod.mk.inj hstep
    exact ⟨run, _, hrun, rfl, rfl, ⟨rfl, rfl, rfl⟩,
      .retried spec world strat rfl rfl rfl rfl (Nat.lt_of_not_le hmax) hstrat hremediable rfl rfl⟩

/-! ### Strategies -/

theorem selectStrategy_escalates {inputs : StrategyInputs} {strat : StrategyResult}
    (h : selectStrategy inputs = .ok strat) (hremediable : strat.remediable = true)
    (hprior : needsEscalation inputs = true) : strat.strategy = "debug_broad" := by
  have skipped {reasoning : String} (h : (Except.ok (skipResult reasoning) : Except String _) = .ok strat) :
      strat.strategy = "debug_broad" := by
    obtain rfl := Except.ok.inj h
    exact absurd hremediable nofun
  have broad {reasoning : String}
      (h : (Except.ok (broadDebugResult reasoning) : Except String _) = .ok strat) :
      strat.strategy = "debug_broad" := by
    obtain rfl := Except.ok.inj h
    rfl
  unfold selectStrategy at h
  split at h
  · exact skipped h
  · split at h
    · rw [dependencyStrategy, if_pos hprior] at h
      exact broad h
    · split at h
      · rw [oomStrategy, if_pos hprior] at h
        exact broad h
      · split at h
        · rw [timeoutStrategy, if_pos hprior] at h
          exact broad h
        · split at h
          · rw [artifactStrategy, if_pos hprior] at h
            exact broad h
          · split at h
            · exact broad h
            · exact skipped h

end Synthetos.Remediation
