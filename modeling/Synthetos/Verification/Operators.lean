import Synthetos.Core.Operators

/-!
# Verification operators

`verification_check` files a report for a finished run and routes failures to remediation;
`verification_postmortem` records why a run failed.
-/

namespace Synthetos.Verification

open Synthetos.Core Storage Lib

def reportFor (run : RunRecord) (runId : RunId) (verdict : Verdict) : VerificationReport :=
  { runRecordId := runId, charterId := run.charterId, cycleId := run.cycleId, verdict }

def fileReport (db : Db) (run : RunRecord) (runId : RunId) (verdict : Verdict)
    (nextJobType : JobType) : Txn × Next :=
  succeedWith
    { newReports := [reportFor run runId verdict]
      newJobs := [enqueueNext db run.cycleId nextJobType runId]
      events := [.checkCompleted runId verdict] }
    none

/-- A failed run is reported failed without comparison; the verdict of any other run is the
outcome of the metric and artifact checks. -/
def verificationCheckOperator (db : Db) (input : OperatorInput) (world : External) :
    Except String (Txn × Next) := do
  let some runId := input.payload.runRecordId
    | return rejectWith s!"job {input.jobId} payload is missing required 'run_record_id'"
  let run ← loadRunRecord db runId
  let some _ := db.specs[run.experimentSpecId]?
    | return rejectWith "experiment spec not found"
  if run.status = .failed then
    return fileReport db run runId .failed .autoRemediate
  else if world.verdict = .failed then
    return fileReport db run runId .failed .autoRemediate
  else
    return fileReport db run runId world.verdict .signalClassify

def reportsOf (db : Db) (runId : RunId) : List (VerificationReport × Nat) :=
  db.reports.zipIdx.filter fun row => row.1.runRecordId == runId

def verificationPostmortemOperator (db : Db) (input : OperatorInput) (world : External) :
    Except String (Txn × Next) := do
  let some runId := input.payload.runRecordId
    | return rejectWith s!"job {input.jobId} payload is missing required 'run_record_id'"
  let run ← loadRunRecord db runId
  let report ← Db.scalarOneOrNone (reportsOf db runId)
  let postmortem : FailurePostmortem :=
    { runRecordId := runId, verificationReportId := report.map Prod.snd
      charterId := run.charterId, cycleId := run.cycleId
      failureClass := run.failureClass.getD "unknown", rootCause := world.postmortemRootCause }
  return succeedWith
    { newPostmortems := [postmortem]
      newJobs := [createJob db (some run.cycleId) .recommend
        { runRecordId := some runId, failed := true } 10]
      events := [.postmortemGenerated runId] }
    none

end Synthetos.Verification
