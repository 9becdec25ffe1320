import Synthetos.Autonomy.Policy
import Synthetos.Lib.Json

/-!
# The policy endpoints

`GET` and `PUT` of a cycle's autonomy policy.  The policy is one entry of the cycle's JSON column
`config`; the object-relational mapper writes the column when the assigned object differs from the
loaded one at the flush.
-/

namespace Synthetos.Api

open Synthetos.Core Lib Autonomy

/-- `AutonomyPolicyRead`, with the fields of the policy that the loop does not read. -/
structure PolicyRead extends AutonomyPolicy where
  maxWallTimePerRunS : Option Int := none
  costBudgetNote : String :=
    "Phase 5 cost budgeting is deferred; only run-count and wall-clock limits are enforced."

structure GatesUpdate where
  afterEveryRun : Option Bool := none
  afterEveryNRuns : Option Int := none
  beforeHardwareEscalation : Option Bool := none
  beforeResultPromotion : Option Bool := none
  beforeNetworkExecution : Option Bool := none

/-- `AutonomyPolicyUpdate`: every field is optional, and `null` leaves it out. -/
structure PolicyUpdate where
  mode : Option AutonomyMode := none
  maxTotalRuns : Option Int := none
  maxWallClockHours : Option Rat := none
  maxRunsPerHypothesis : Option Int := none
  maxWallTimePerRunS : Option Int := none
  summaryInterval : Option Int := none
  checkpointGates : Option GatesUpdate := none

def GatesUpdate.over (gates : GatesUpdate) (base : CheckpointGateConfig) : CheckpointGateConfig where
  afterEveryRun := gates.afterEveryRun.getD base.afterEveryRun
  afterEveryNRuns := gates.afterEveryNRuns.or base.afterEveryNRuns
  beforeHardwareEscalation := gates.beforeHardwareEscalation.getD base.beforeHardwareEscalation
  beforeResultPromotion := gates.beforeResultPromotion.getD base.beforeResultPromotion
  beforeNetworkExecution := gates.beforeNetworkExecution.getD base.beforeNetworkExecution

/-! ### The body as a dictionary -/

/-- One field of a dump without its `None` values. -/
def dumped (key : String) (value : Option Json) : Dict :=
  match value with
  | some v => [(key, v)]
  | none => []

def modeText : AutonomyMode → String
  | .supervised => "supervised"
  | .autonomous => "autonomous"

/-- `CheckpointGateConfigRead` as it is dumped: the gates left out have taken their defaults. -/
def dumpGates (gates : CheckpointGateConfig) : Dict :=
  dumped "after_every_run" (some (.bool gates.afterEveryRun)) ++
  dumped "after_every_n_runs" (gates.afterEveryNRuns.map .int) ++
  dumped "before_hardware_escalation" (some (.bool gates.beforeHardwareEscalation)) ++
  dumped "before_result_promotion" (some (.bool gates.beforeResultPromotion)) ++
  dumped "before_network_execution" (some (.bool gates.beforeNetworkExecution))

/-- `body.model_dump(exclude_none=True)` -/
def dumpUpdate (body : PolicyUpdate) : Dict :=
  dumped "mode" (body.mode.map fun mode => .str (modeText mode)) ++
  dumped "max_total_runs" (body.maxTotalRuns.map .int) ++
  dumped "max_wall_clock_hours" (body.maxWallClockHours.map .float) ++
  dumped "max_runs_per_hypothesis" (body.maxRunsPerHypothesis.map .int) ++
  dumped "max_wall_time_per_run_s" (body.maxWallTimePerRunS.map .int) ++
  dumped "summary_interval" (body.summaryInterval.map .int) ++
  dumped "checkpoint_gates" (body.checkpointGates.map fun gates => .obj (dumpGates (gates.over {})))

/-! ### Validation -/

/-- How the validation library reads a JSON value as a field of each type; `none` rejects it. -/
structure Readers where
  mode : Json → Option AutonomyMode
  optionalInt : Json → Option (Option Int)
  optionalFloat : Json → Option (Option Rat)
  int : Json → Option Int
  bool : Json → Option Bool
  str : Json → Option String

/-- A value of the field's own type is read as itself. -/
structure Readers.Plain (readers : Readers) : Prop where
  mode : ∀ mode, readers.mode (.str (modeText mode)) = some mode
  optionalInt : ∀ n, readers.optionalInt (.int n) = some (some n)
  optionalFloat : ∀ q, readers.optionalFloat (.float q) = some (some q)
  int : ∀ n, readers.int (.int n) = some n
  bool : ∀ b, readers.bool (.bool b) = some b

def readField {α : Type} (reader : Json → Option α) (fields : Dict) (key : String) (default : α) :
    Option α :=
  match fields.get? key with
  | none => some default
  | some v => reader v

def validateGates (readers : Readers) : Json → Option CheckpointGateConfig
  | .obj fields => do
    let afterEveryRun ← readField readers.bool fields "after_every_run" false
    let afterEveryNRuns ← readField readers.optionalInt fields "after_every_n_runs" none
    let beforeHardwareEscalation ← readField readers.bool fields "before_hardware_escalation" false
    let beforeResultPromotion ← readField readers.bool fields "before_result_promotion" false
    let beforeNetworkExecution ← readField readers.bool fields "before_network_execution" false
    return { afterEveryRun, afterEveryNRuns, beforeHardwareEscalation, beforeResultPromotion,
             beforeNetworkExecution }
  | _ => none

def validatePolicy (readers : Readers) : Json → Option PolicyRead
  | .obj fields => do
    let default : PolicyRead := {}
    let mode ← readField readers.mode fields "mode" default.mode
    let maxTotalRuns ← readField readers.optionalInt fields "max_total_runs" none
    let maxWallClockHours ← readField readers.optionalFloat fields "max_wall_clock_hours" none
    let maxRunsPerHypothesis ← readField readers.optionalInt fields "max_runs_per_hypothesis" none
    let maxWallTimePerRunS ← readField readers.optionalInt fields "max_wall_time_per_run_s" none
    let summaryInterval ← readField readers.int fields "summary_interval" default.summaryInterval
    let checkpointGates ← readField (validateGates readers) fields "checkpoint_gates" {}
    let costBudgetNote ← readField readers.str fields "cost_budget_note" default.costBudgetNote
    return { mode, maxTotalRuns, maxWallClockHours, maxRunsPerHypothesis, maxWallTimePerRunS,
             summaryInterval, checkpointGates, costBudgetNote }
  | _ => none

/-! ### The endpoints -/

/-- The column `config` of a cycle: `NULL` or an object. -/
abbrev Config := Option Dict

def Config.fields (config : Config) : Dict := config.getD []

/-- `get_autonomy_policy`; `loop_decide` reads the same expression. -/
def getPolicy (readers : Readers) (config : Config) : Option PolicyRead :=
  validatePolicy readers (config.fields.getD "autonomy" (.obj []))

/-- Equality of two values of the column, whatever the order of their keys. -/
def sameConfig : Config → Config → Bool
  | none, none => true
  | some a, some b => (Json.obj a).canonical.same (Json.obj b).canonical
  | _, _ => false

/-- The row after the flush: the column is part of the `UPDATE` when the assigned object differs
from the loaded one, which is compared as it is now. -/
def flushConfig (row loaded assigned : Config) : Config :=
  if sameConfig assigned loaded then row else assigned

/-- `update_autonomy_policy`: the row it leaves and its response. -/
def putPolicy (readers : Readers) (config : Config) (body : PolicyUpdate) :
    Except String (Config × PolicyRead) :=
  match config.fields.getD "autonomy" (.obj []) with
  | .obj current =>
    let updated := Json.obj (Dict.update current (dumpUpdate body))
    -- `config` is a shallow copy: an existing entry is updated inside the loaded object as well
    let loaded := if (config.fields.get? "autonomy").isSome then
        config.map fun fields => fields.set "autonomy" updated
      else config
    let row := flushConfig config loaded (some (config.fields.set "autonomy" updated))
    match validatePolicy readers updated with
    | some policy => .ok (row, policy)
    | none => .error "ValidationError"
  | _ => .error "AttributeError: object has no attribute 'update'"

/-- The row after the request; an exception rolls the session back. -/
def afterPut (readers : Readers) (config : Config) (body : PolicyUpdate) : Config :=
  match putPolicy readers config body with
  | .ok (row, _) => row
  | .error _ => config

end Synthetos.Api
