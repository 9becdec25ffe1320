import Synthetos.Remediation.Bounded
import Synthetos.Remediation.Recommend

/-!
# Failed runs that reach `recommend`

The failed path reads whether the lineage is exhausted.  Every other way remediation declines looks
to `recommend` as if it had resolved the failure.
-/

namespace Synthetos.Remediation

open Synthetos.Core Storage Lib Worker

def ClaimsResolved (row : RunRecommendation) : Prop :=
  row.recommendationType = .continueCurrent ∧
    row.action = "Remediation resolved the failure. Continue with current approach."

/-- The run or a retry of it passed verification. -/
def Verified (db : Db) (r : RunId) : Prop :=
  ∃ report ∈ db.reports, report.verdict ≠ .failed ∧ r ∈ loadLineageRunIds db report.runRecordId

/-- The lineage of the run has an exhausted action. -/
def Exhausted (db : Db) (r : RunId) : Prop :=
  ∃ action ∈ loadLineageActions db r, action.outcome = .exhausted

variable {db later : Db} {input : OperatorInput} {world : External} {txn : Txn} {next : Core.Next}
  {r : RunId} {inputs : RecommendationInputs}

theorem claimsResolved_iff : (computeRecommendation inputs).recommendationType = .continueCurrent ∧
    (computeRecommendation inputs).action =
      "Remediation resolved the failure. Continue with current approach." ↔
    inputs.failed = true ∧ inputs.remediationExhausted = false := by
  unfold computeRecommendation
  cases hfailed : inputs.failed with
  | true =>
    rw [if_pos rfl]
    unfold recommendFailed
    cases hexhausted : inputs.remediationExhausted with
    | true =>
      rw [if_pos rfl]
      split <;> simp
    | false => simp
  | false =>
    simp only [Bool.false_eq_true, if_false, false_and, iff_false]
    split
    · simp
    · split <;> simp
    · split <;> simp
    · simp
    · simp
    · simp

theorem recommend_row {row : RunRecommendation}
    (h : recommendOperator db input = .ok (txn, next)) (hr : input.payload.runRecordId = some r)
    (hrow : txn.recommendation = some row) :
    ClaimsResolved row ↔ input.payload.failed = true ∧ ¬ Exhausted db r := by
  unfold recommendOperator at h
  rw [hr] at h
  dsimp only at h
  obtain ⟨run, -, h⟩ := bind_eq_ok.mp h
  obtain ⟨spec, -, h⟩ := bind_eq_ok.mp h
  obtain ⟨report, -, h⟩ := bind_eq_ok.mp h
  have hstored : ClaimsResolved row ↔
      (recommendationInputs db run r spec input.payload.failed).failed = true ∧
        (recommendationInputs db run r spec input.payload.failed).remediationExhausted = false := by
    rw [← claimsResolved_iff]
    split at h
    · obtain ⟨rfl, -⟩ := Prod.mk.inj (pure_eq_ok.mp h)
      obtain rfl := Option.some.inj hrow
      rfl
    · obtain ⟨rfl, -⟩ := Prod.mk.inj (pure_eq_ok.mp h)
      obtain rfl := Option.some.inj hrow
      rfl
  rw [hstored]
  refine and_congr_right fun _ => ?_
  change (loadLineageActions db r).any (fun action => action.outcome == .exhausted) = false ↔ _
  rw [List.any_eq_false]
  simp [Exhausted]

theorem exhausted_after_decline (h : autoRemediateOperator db input world = .ok (txn, next))
    (hr : input.payload.runRecordId = some r) (hdeclined : txn.newRuns = [])
    (hlater : loadLineageActions later r = loadLineageActions (db.commit txn) r) :
    Exhausted later r ↔ defaultMaxAttempts ≤ countLineageAttempts db r ∨ Exhausted db r := by
  obtain ⟨run, action, -, hnew, hupdate, hfiles, hdone⟩ := autoRemediate_cases h hr
  have hruns : (db.commit txn).runs = db.runs := by
    rw [Db.commit_runs, hupdate, hdeclined, List.append_nil]
    rfl
  have hself : (loadLineageRunIds db r).contains r = true := by
    rw [List.contains_iff_mem, loadLineageRunIds, List.mem_reverse]
    cases db.runs.length <;> simp [lineageUp]
  have hactions : loadLineageActions (db.commit txn) r = loadLineageActions db r ++ [action] := by
    unfold loadLineageActions
    rw [loadLineageRunIds, hruns, ← loadLineageRunIds]
    change (db.actions ++ txn.newActions).filter _ = _
    rw [hnew, List.filter_append, List.filter_cons_of_pos (by rw [hfiles.target]; exact hself),
      List.filter_nil]
  have hout : action.outcome = .exhausted ↔ defaultMaxAttempts ≤ countLineageAttempts db r := by
    cases hdone with
    | declined hjobs hruns hretry hout =>
      rw [hout]
      split <;> simp_all
    | retried spec world' strat hjobs hruns =>
      rw [hdeclined] at hruns
      exact absurd hruns fun h => by cases h
  unfold Exhausted
  rw [hlater, hactions, ← hout]
  simp only [List.mem_append, List.mem_singleton]
  constructor
  · rintro ⟨filed, hmem | rfl, hexhausted⟩
    · exact .inr ⟨filed, hmem, hexhausted⟩
    · exact .inl hexhausted
  · rintro (hexhausted | ⟨filed, hmem, hexhausted⟩)
    · exact ⟨action, .inr rfl, hexhausted⟩
    · exact ⟨filed, .inl hmem, hexhausted⟩

/-- A run whose remediation was declined is recommended truthfully exactly when its lineage had no
attempt left or was exhausted before. -/
theorem resolved_claim_truthful {db later : Db} {input request : OperatorInput} {world : External}
    {txn txn' : Txn} {next next' : Core.Next} {r : RunId} {row : RunRecommendation}
    (hremediate : autoRemediateOperator db input world = .ok (txn, next))
    (hr : input.payload.runRecordId = some r) (hdeclined : txn.newRuns = [])
    (hlater : loadLineageActions later r = loadLineageActions (db.commit txn) r)
    (hrecommend : recommendOperator later request = .ok (txn', next'))
    (hr' : request.payload.runRecordId = some r) (hfailed : request.payload.failed = true)
    (hrow : txn'.recommendation = some row) :
    (ClaimsResolved row → Verified later r) ↔
      defaultMaxAttempts ≤ countLineageAttempts db r ∨ Exhausted db r ∨ Verified later r := by
  rw [recommend_row hrecommend hr' hrow, exhausted_after_decline hremediate hr hdeclined hlater,
    ← or_assoc]
  constructor
  · intro htruthful
    by_cases hexhausted : defaultMaxAttempts ≤ countLineageAttempts db r ∨ Exhausted db r
    · exact .inl hexhausted
    · exact .inr (htruthful ⟨hfailed, hexhausted⟩)
  · rintro (hexhausted | hverified) ⟨-, hnot⟩
    · exact absurd hexhausted hnot
    · exact hverified

/-! ### A metric parse failure -/

/-- A failed run whose failure is not remediable. -/
def metricParseFailure : Db :=
  { cycles := [{ charterId := 0 }]
    specs := [{ hypothesisCardId := 0, charterId := 0, cycleId := 0 }]
    runs := [{ experimentSpecId := 0, charterId := 0, cycleId := 0, runNumber := 1
               status := .failed, failureClass := some "metric_parse" }] }

def jobOf (jobType : JobType) (failed : Bool) : OperatorInput :=
  ⟨some 0, 0, jobType, { runRecordId := some 0, failed }⟩

/-- Check, remediate and explain the run: the database `recommend` reads, and its row. -/
def failedPath (db : Db) : Option (Db × RunRecommendation) := do
  let check ← (Verification.verificationCheckOperator db (jobOf .verificationCheck false) {}).toOption
  let checked := db.commit check.1
  let remedy ← (autoRemediateOperator checked (jobOf .autoRemediate false) {}).toOption
  let declined := checked.commit remedy.1
  let explained ← (Verification.verificationPostmortemOperator declined
    (jobOf .verificationPostmortem false) {}).toOption
  let later := declined.commit explained.1
  let out ← (recommendOperator later (jobOf .recommend true)).toOption
  let row ← out.1.recommendation
  return (later, row)

/-- The failure is declined as not remediable, and the recommendation says it is resolved. -/
theorem skipped_run_claimed_resolved : ∃ later row, failedPath metricParseFailure = some (later, row) ∧
    ClaimsResolved row ∧ ¬ Verified later 0 := by
  obtain ⟨⟨later, row⟩, hpath, htest⟩ := (Option.any_eq_true _ _).mp
    (show (failedPath metricParseFailure).any (fun (later, row) =>
      row.recommendationType == .continueCurrent &&
        row.action == "Remediation resolved the failure. Continue with current approach." &&
        later.reports.all fun report => report.verdict == .failed) = true by decide +kernel)
  simp only [Bool.and_eq_true, beq_iff_eq, List.all_eq_true] at htest
  refine ⟨later, row, hpath, htest.1, ?_⟩
  rintro ⟨report, hmem, hverdict, -⟩
  exact hverdict (htest.2 report hmem)

def spentAttempt : RemediationAction :=
  { runRecordId := 0, retryRunId := none, charterId := 0, cycleId := 0, experimentSpecId := 0
    failureClass := "oom", strategy := "increase_memory", strategyTier := "focused"
    outcome := .skipped, attemptNumber := 1, reasoning := "" }

def spentFailure : Db :=
  { metricParseFailure with actions := [spentAttempt, spentAttempt, spentAttempt] }

/-- A run without attempts left is not claimed resolved. -/
theorem resolved_claim_truthful_exhausted : ∃ later : Db, ∃ row : RunRecommendation,
    ¬ Verified later 0 ∧ ¬ ClaimsResolved row := by
  obtain ⟨out, hout, htest⟩ := (Option.any_eq_true _ _).mp
    (show (autoRemediateOperator spentFailure (jobOf .autoRemediate false) {}).toOption.any
      (fun out => out.1.newRuns.isEmpty && (spentFailure.commit out.1).reports.isEmpty &&
        (recommendOperator (spentFailure.commit out.1) (jobOf .recommend true)).toOption.any
          fun last => last.1.recommendation.isSome) = true by decide +kernel)
  rw [Bool.and_eq_true, Bool.and_eq_true, List.isEmpty_iff, List.isEmpty_iff,
    Option.any_eq_true] at htest
  obtain ⟨⟨hruns, hreports⟩, last, hlast, hrow⟩ := htest
  obtain ⟨row, hrow⟩ := Option.isSome_iff_exists.mp hrow
  have hunverified : ¬ Verified (spentFailure.commit out.1) 0 := by
    rintro ⟨report, hreport, -⟩
    rw [hreports] at hreport
    exact absurd hreport List.not_mem_nil
  have hmax : defaultMaxAttempts ≤ countLineageAttempts spentFailure 0 := by decide +kernel
  have htruthful := (resolved_claim_truthful (toOption_eq_some.mp hout) rfl hruns rfl
    (toOption_eq_some.mp hlast) rfl rfl hrow).mpr (.inl hmax)
  exact ⟨_, row, hunverified, fun hclaims => hunverified (htruthful hclaims)⟩

end Synthetos.Remediation
