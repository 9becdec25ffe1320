import Synthetos.Autonomy.LoopReport
import Synthetos.Execution.Operators
import Synthetos.Protocols.Compile

/-!
# The dispatcher

Job types map to operators.  An operator that raises leaves the database as it was and yields an
error result.
-/

namespace Synthetos.Worker

open Synthetos.Core Storage Lib Autonomy Execution Protocols Remediation Verification

/-- Successor and status patch of the discovery, analysis, ideation and maintenance operators,
whose own tables are not modelled. -/
def relayOf : JobType → Option JobType × Option CycleStatus
  | .discoveryIntake => (some .discoverySearch, some .discoveryReady)
  | .discoverySearch => (some .discoveryRerank, none)
  | .discoveryRerank => (some .discoveryAnalyze, none)
  | .discoveryAnalyze => (some .discoveryFinalize, none)
  | .discoveryFinalize => (none, some .discoveryScreened)
  | .analysisIngest => (some .analysisChunk, none)
  | .analysisChunk => (some .analysisGraphExtract, none)
  | .analysisGraphExtract => (some .analysisCoverage, none)
  | .analysisCoverage => (some .analysisReview, none)
  | .analysisReview => (some .analysisEvidence, none)
  | .hypothesisGenerate => (some .hypothesisCritique, none)
  | .hypothesisCritique => (some .hypothesisRank, none)
  | .hypothesisRank => (none, some .portfolioReady)
  | _ => (none, none)

/-- A pipeline operator: enqueue the successor with the same payload and patch the cycle. -/
def relayOperator (db : Db) (input : OperatorInput) (world : External) :
    Except String (Txn × Next) := do
  world.relay
  let (next, patch) := relayOf input.jobType
  return succeedWith
    { newJobs := next.toList.map fun jobType =>
        createJob db input.cycleId jobType input.payload 10 }
    patch

def handler (db : Db) (input : OperatorInput) (phase : Phase) (world : External) :
    Except String (Txn × Next) :=
  match input.jobType with
  | .protocolCompile => protocolCompileOperator db input phase world
  | .executionSetup => executionSetupOperator db input world
  | .executionRun => executionRunOperator db input phase world
  | .executionCapture => executionCaptureOperator db input world
  | .verificationCheck => verificationCheckOperator db input world
  | .verificationPostmortem => verificationPostmortemOperator db input world
  | .autoRemediate => autoRemediateOperator db input world
  | .signalClassify => signalClassifyOperator db input
  | .recommend => recommendOperator db input
  | .loopDecide => loopDecideOperator db input world
  | .loopReport => loopReportOperator db input phase world
  | _ => relayOperator db input world

/-- Exceptions inside the container loop are handled by the operator itself. -/
def Phase.guarded : Phase → Bool
  | .polling _ | .checking _ => true
  | _ => false

/-- Run the handler up to its next transaction; whatever it raises becomes an error result. -/
def execute (db : Db) (input : OperatorInput) (phase : Phase) (world : External) : Txn × Next :=
  let outcome : Except String (Txn × Next) :=
    match world.raised, Phase.guarded phase with
    | some e, false => .error e
    | _, _ => handler db input phase world
  match outcome with
  | .ok out => out
  | .error e => rejectWith s!"Handler for '{input.jobType.value}' raised: {e}"

end Synthetos.Worker
