import Synthetos.Runtime.Growth
import Synthetos.Worker.Filings

/-!
# The rows about a run

Every report, remediation action, postmortem, signal, recommendation and decision names a run and
rests on an earlier row about it.
-/

namespace Synthetos.Runs

open Synthetos.Core Storage Lib Worker Api

/-- Run `r` exists, with columns that satisfy `p`. -/
def Names (db : Db) (r : RunId) (p : RunRecord → Prop) : Prop :=
  ∃ run, db.runs[r]? = some run ∧ p run

/-- A report about run `r` has a verdict that satisfies `p`. -/
def Reported (db : Db) (r : RunId) (p : Verdict → Prop) : Prop :=
  ∃ (k : Nat) (report : VerificationReport), db.reports[k]? = some report ∧
    report.runRecordId = r ∧ p report.verdict

def Failed (db : Db) (r : RunId) : Prop := Reported db r (· = .failed)

def Assessed (db : Db) (r : RunId) : Prop := Reported db r (· ≠ .failed)

/-- Remediation has given run `r` up. -/
def Declined (db : Db) (r : RunId) : Prop :=
  ∃ row ∈ db.actions, row.runRecordId = r ∧ row.retryRunId = none

def Explained (db : Db) (r : RunId) : Prop := ∃ row ∈ db.postmortems, row.runRecordId = r

def Signalled (db : Db) (r : RunId) (k : SignalId) : Prop :=
  ∃ row, db.signals[k]? = some row ∧ row.runRecordId = r

def Recommended (db : Db) (r : RunId) (k : RecommendationId) : Prop :=
  ∃ row, db.recommendations[k]? = some row ∧ row.runRecordId = r

/-- What a recommendation for run `r` rests on. -/
def Judged (db : Db) (r : RunId) : Prop := Assessed db r ∨ Explained db r

structure ReportGrounds (db : Db) (row : VerificationReport) : Prop where
  run : Names db row.runRecordId fun run =>
    row.charterId = run.charterId ∧ row.cycleId = run.cycleId
  signal : ∀ k, row.directionalSignalId = some k → Signalled db row.runRecordId k
  recommendation : ∀ k, row.recommendationId = some k → Recommended db row.runRecordId k

structure ActionGrounds (db : Db) (row : RemediationAction) : Prop where
  run : Names db row.runRecordId fun run =>
    row.charterId = run.charterId ∧ row.cycleId = run.cycleId ∧
      row.experimentSpecId = run.experimentSpecId
  cause : Failed db row.runRecordId
  retry : ∀ k, row.retryRunId = some k → Names db k fun run =>
    run.parentRunId = some row.runRecordId

structure PostmortemGrounds (db : Db) (row : FailurePostmortem) : Prop where
  run : Names db row.runRecordId fun run =>
    row.charterId = run.charterId ∧ row.cycleId = run.cycleId
  cause : Declined db row.runRecordId
  report : ∀ k, row.verificationReportId = some k →
    ∃ report, db.reports[k]? = some report ∧ report.runRecordId = row.runRecordId

structure SignalGrounds (db : Db) (row : DirectionalSignal) : Prop where
  run : Names db row.runRecordId fun run =>
    row.charterId = run.charterId ∧ row.cycleId = run.cycleId ∧
      row.experimentSpecId = run.experimentSpecId
  cause : Assessed db row.runRecordId

structure RecommendationGrounds (db : Db) (row : RunRecommendation) : Prop where
  run : Names db row.runRecordId fun run =>
    row.charterId = run.charterId ∧ row.cycleId = run.cycleId ∧
      row.experimentSpecId = run.experimentSpecId
  cause : Judged db row.runRecordId

structure DecisionGrounds (db : Db) (row : LoopDecision) : Prop where
  run : Names db row.runRecordId fun run => row.cycleId = run.cycleId
  cause : Recommended db row.runRecordId row.recommendationId

structure Archive (db : Db) : Prop where
  reports : ∀ row ∈ db.reports, ReportGrounds db row
  actions : ∀ row ∈ db.actions, ActionGrounds db row
  postmortems : ∀ row ∈ db.postmortems, PostmortemGrounds db row
  signals : ∀ row ∈ db.signals, SignalGrounds db row
  recommendations : ∀ row ∈ db.recommendations, RecommendationGrounds db row
  decisions : ∀ row ∈ db.decisions, DecisionGrounds db row

/-! ### What persists -/

/-- The columns of a report that never change. -/
structure SameReport (old new : VerificationReport) : Prop where
  run : new.runRecordId = old.runRecordId
  charter : new.charterId = old.charterId
  cycle : new.cycleId = old.cycleId
  verdict : new.verdict = old.verdict

theorem SameReport.refl (report : VerificationReport) : SameReport report report :=
  ⟨rfl, rfl, rfl, rfl⟩

structure Keeps (old new : Db) : Prop where
  runs : ∀ (r : RunId) (run : RunRecord), old.runs[r]? = some run →
    ∃ now, new.runs[r]? = some now ∧ SameRun run now
  reports : ∀ (k : Nat) (row : VerificationReport), old.reports[k]? = some row →
    ∃ now, new.reports[k]? = some now ∧ SameReport row now
  actions : ∀ row ∈ old.actions, row ∈ new.actions
  postmortems : ∀ row ∈ old.postmortems, row ∈ new.postmortems
  signals : ∀ (k : SignalId) (row : DirectionalSignal), old.signals[k]? = some row →
    ∃ now, new.signals[k]? = some now ∧ now.runRecordId = row.runRecordId
  recommendations : ∀ (k : RecommendationId) (row : RunRecommendation),
    old.recommendations[k]? = some row →
      ∃ now, new.recommendations[k]? = some now ∧ now.runRecordId = row.runRecordId

variable {old new : Db} {r : RunId} {k : Nat}

theorem Names.keeps {p : RunRecord → Prop} (h : Names old r p) (hkeeps : Keeps old new)
    (hp : ∀ run now, SameRun run now → p run → p now) : Names new r p := by
  obtain ⟨run, hrun, hcolumns⟩ := h
  obtain ⟨now, hnow, hsame⟩ := hkeeps.runs r run hrun
  exact ⟨now, hnow, hp run now hsame hcolumns⟩

theorem Reported.keeps {p : Verdict → Prop} (h : Reported old r p) (hkeeps : Keeps old new) :
    Reported new r p := by
  obtain ⟨k, report, hreport, hrun, hverdict⟩ := h
  obtain ⟨now, hnow, hsame⟩ := hkeeps.reports k report hreport
  exact ⟨k, now, hnow, hsame.run.trans hrun, hsame.verdict ▸ hverdict⟩

theorem Declined.keeps (h : Declined old r) (hkeeps : Keeps old new) : Declined new r := by
  obtain ⟨row, hrow, hcolumns⟩ := h
  exact ⟨row, hkeeps.actions row hrow, hcolumns⟩

theorem Explained.keeps (h : Explained old r) (hkeeps : Keeps old new) : Explained new r := by
  obtain ⟨row, hrow, hrun⟩ := h
  exact ⟨row, hkeeps.postmortems row hrow, hrun⟩

theorem Judged.keeps (h : Judged old r) (hkeeps : Keeps old new) : Judged new r :=
  h.imp (·.keeps hkeeps) (·.keeps hkeeps)

theorem Signalled.keeps (h : Signalled old r k) (hkeeps : Keeps old new) : Signalled new r k := by
  obtain ⟨row, hrow, hrun⟩ := h
  obtain ⟨now, hnow, hsame⟩ := hkeeps.signals k row hrow
  exact ⟨now, hnow, hsame.trans hrun⟩

theorem Recommended.keeps (h : Recommended old r k) (hkeeps : Keeps old new) :
    Recommended new r k := by
  obtain ⟨row, hrow, hrun⟩ := h
  obtain ⟨now, hnow, hsame⟩ := hkeeps.recommendations k row hrow
  exact ⟨now, hnow, hsame.trans hrun⟩

theorem ReportGrounds.keeps {row : VerificationReport} (h : ReportGrounds old row)
    (hkeeps : Keeps old new) : ReportGrounds new row where
  run := h.run.keeps hkeeps fun _ _ hsame hrow =>
    ⟨hrow.1.trans hsame.charter.symm, hrow.2.trans hsame.cycle.symm⟩
  signal k hk := (h.signal k hk).keeps hkeeps
  recommendation k hk := (h.recommendation k hk).keeps hkeeps

theorem ActionGrounds.keeps {row : RemediationAction} (h : ActionGrounds old row)
    (hkeeps : Keeps old new) : ActionGrounds new row where
  run := h.run.keeps hkeeps fun _ _ hsame hrow =>
    ⟨hrow.1.trans hsame.charter.symm, hrow.2.1.trans hsame.cycle.symm,
      hrow.2.2.trans hsame.spec.symm⟩
  cause := h.cause.keeps hkeeps
  retry k hk := (h.retry k hk).keeps hkeeps fun _ _ hsame hparent => hsame.parent.trans hparent

theorem PostmortemGrounds.keeps {row : FailurePostmortem} (h : PostmortemGrounds old row)
    (hkeeps : Keeps old new) : PostmortemGrounds new row where
  run := h.run.keeps hkeeps fun _ _ hsame hrow =>
    ⟨hrow.1.trans hsame.charter.symm, hrow.2.trans hsame.cycle.symm⟩
  cause := h.cause.keeps hkeeps
  report k hk := by
    obtain ⟨report, hreport, hrun⟩ := h.report k hk
    obtain ⟨now, hnow, hsame⟩ := hkeeps.reports k report hreport
    exact ⟨now, hnow, hsame.run.trans hrun⟩

theorem SignalGrounds.keeps {row : DirectionalSignal} (h : SignalGrounds old row)
    (hkeeps : Keeps old new) : SignalGrounds new row where
  run := h.run.keeps hkeeps fun _ _ hsame hrow =>
    ⟨hrow.1.trans hsame.charter.symm, hrow.2.1.trans hsame.cycle.symm,
      hrow.2.2.trans hsame.spec.symm⟩
  cause := h.cause.keeps hkeeps

theorem RecommendationGrounds.keeps {row : RunRecommendation} (h : RecommendationGrounds old row)
    (hkeeps : Keeps old new) : RecommendationGrounds new row where
  run := h.run.keeps hkeeps fun _ _ hsame hrow =>
    ⟨hrow.1.trans hsame.charter.symm, hrow.2.1.trans hsame.cycle.symm,
      hrow.2.2.trans hsame.spec.symm⟩
  cause := h.cause.keeps hkeeps

theorem DecisionGrounds.keeps {row : LoopDecision} (h : DecisionGrounds old row)
    (hkeeps : Keeps old new) : DecisionGrounds new row where
  run := h.run.keeps hkeeps fun _ _ hsame hrow => hrow.trans hsame.cycle.symm
  cause := h.cause.keeps hkeeps

/-! ### Transactions -/

/-- The rows a transaction adds rest on rows it leaves behind. -/
structure Grounds (db : Db) (txn : Txn) : Prop where
  linked : ∀ r link, txn.reportUpdate = some (r, link) → ∀ row, row.runRecordId = r →
    ReportGrounds (db.commit txn) row → ReportGrounds (db.commit txn) (link row)
  reports : ∀ row ∈ txn.newReports, ReportGrounds (db.commit txn) row
  actions : ∀ row ∈ txn.newActions, ActionGrounds (db.commit txn) row
  postmortems : ∀ row ∈ txn.newPostmortems, PostmortemGrounds (db.commit txn) row
  signal : ∀ row, txn.signal = some row → SignalGrounds (db.commit txn) row
  recommendation : ∀ row, txn.recommendation = some row →
    RecommendationGrounds (db.commit txn) row
  decisions : ∀ row ∈ txn.newDecisions, DecisionGrounds (db.commit txn) row

/-- A transaction changes at most the links of a report. -/
def Links (txn : Txn) : Prop :=
  ∀ r link, txn.reportUpdate = some (r, link) → ∀ row, SameReport row (link row)

variable {db : Db} {txn : Txn}

theorem commit_report (hlinks : Links txn) {row : VerificationReport}
    (h : db.reports[k]? = some row) :
    ∃ now, (db.commit txn).reports[k]? = some now ∧ SameReport row now := by
  suffices hupdate : ∃ now, (Db.updateReport db.reports txn.reportUpdate)[k]? = some now ∧
      SameReport row now by
    obtain ⟨now, hnow, hsame⟩ := hupdate
    exact ⟨now, Table.getElem?_append_old hnow, hsame⟩
  unfold Db.updateReport
  split
  · rename_i r link hlink
    refine ⟨_, Table.getElem?_updateWhere.trans (congrArg _ h), ?_⟩
    dsimp only
    split
    · exact hlinks r link hlink row
    · exact .refl row
  · exact ⟨row, h, .refl row⟩

theorem commit_keeps (hgrows : Grows db (db.commit txn)) (hlinks : Links txn) :
    Keeps db (db.commit txn) where
  runs := hgrows.runs
  reports _ _ h := commit_report hlinks h
  actions _ h := List.mem_append_left _ h
  postmortems _ h := List.mem_append_left _ h
  signals k row h := by
    change ∃ now, (Db.upsertSignal db.signals txn.signal)[k]? = some now ∧ _
    unfold Db.upsertSignal
    split
    · rename_i added _
      obtain ⟨now, hnow, rfl | ⟨hkey, rfl⟩⟩ := Table.getElem?_upsert h
      · exact ⟨now, hnow, rfl⟩
      · exact ⟨_, hnow, (beq_iff_eq.mp hkey).symm⟩
    · exact ⟨row, h, rfl⟩
  recommendations k row h := by
    change ∃ now, (Db.upsertRecommendation db.recommendations txn.recommendation)[k]? = some now ∧ _
    unfold Db.upsertRecommendation
    split
    · rename_i added _
      obtain ⟨now, hnow, rfl | ⟨hkey, rfl⟩⟩ := Table.getElem?_upsert h
      · exact ⟨now, hnow, rfl⟩
      · exact ⟨_, hnow, (beq_iff_eq.mp hkey).symm⟩
    · exact ⟨row, h, rfl⟩

theorem commit_archive (harchive : Archive db) (hkeeps : Keeps db (db.commit txn))
    (hgrounds : Grounds db txn) : Archive (db.commit txn) where
  reports row hrow := by
    rcases List.mem_append.mp hrow with hold | hnew
    · unfold Db.updateReport at hold
      split at hold
      · rename_i r link hlink
        obtain ⟨before, hbefore, rfl⟩ := List.mem_map.mp hold
        have hrest := (harchive.reports before hbefore).keeps hkeeps
        split
        · rename_i hr
          exact hgrounds.linked r link hlink before (beq_iff_eq.mp hr) hrest
        · exact hrest
      · exact (harchive.reports row hold).keeps hkeeps
    · exact hgrounds.reports row hnew
  actions row hrow := by
    rcases List.mem_append.mp hrow with hold | hnew
    · exact (harchive.actions row hold).keeps hkeeps
    · exact hgrounds.actions row hnew
  postmortems row hrow := by
    rcases List.mem_append.mp hrow with hold | hnew
    · exact (harchive.postmortems row hold).keeps hkeeps
    · exact hgrounds.postmortems row hnew
  signals row hrow := by
    change row ∈ Db.upsertSignal db.signals txn.signal at hrow
    unfold Db.upsertSignal at hrow
    split at hrow
    · rename_i added hadded
      rcases Table.mem_upsert hrow with hold | rfl
      · exact (harchive.signals row hold).keeps hkeeps
      · exact hgrounds.signal row hadded
    · exact (harchive.signals row hrow).keeps hkeeps
  recommendations row hrow := by
    change row ∈ Db.upsertRecommendation db.recommendations txn.recommendation at hrow
    unfold Db.upsertRecommendation at hrow
    split at hrow
    · rename_i added hadded
      rcases Table.mem_upsert hrow with hold | rfl
      · exact (harchive.recommendations row hold).keeps hkeeps
      · exact hgrounds.recommendation row hadded
    · exact (harchive.recommendations row hrow).keeps hkeeps
  decisions row hrow := by
    rcases List.mem_append.mp hrow with hold | hnew
    · exact (harchive.decisions row hold).keeps hkeeps
    · exact hgrounds.decisions row hnew

end Synthetos.Runs
