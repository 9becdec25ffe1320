import Synthetos.Remediation.Recommend

/-!
# The completion report

`loop_report` writes the report of a stopped loop and closes the cycle.  Consolidation is
enqueued in a transaction of its own, whose failure is logged and ignored.
-/

namespace Synthetos.Autonomy

open Synthetos.Core Storage Remediation

def writeCompletionReport (db : Db) (input : OperatorInput) (world : External) :
    Except String (Txn × Next) :=
  match input.payload.cycleId with
  | none => .ok (rejectWith "missing cycle_id in payload")
  | some cycle => do
    world.writeReport
    return ({ events := [.completionReportGenerated cycle (decisionsOf db cycle).length] },
      .suspend .reported)

/-- Second transaction: enqueue the consolidation of the cycle's patterns. -/
def enqueueConsolidationJob (db : Db) (input : OperatorInput) (world : External) : Txn × Next :=
  let jobs :=
    if world.enqueueConsolidation then
      [createJob db input.payload.cycleId .consolidatePatterns
        { cycleId := input.payload.cycleId } 0]
    else []
  succeedWith { newJobs := jobs } (some .closed)

def loopReportOperator (db : Db) (input : OperatorInput) (phase : Phase) (world : External) :
    Except String (Txn × Next) :=
  match phase with
  | .reported => .ok (enqueueConsolidationJob db input world)
  | _ => writeCompletionReport db input world

end Synthetos.Autonomy
