import Synthetos.Analysis.System

/-!
# A session that is not over has a job to do

The operator that is due in a session has a job whose operator has not committed yet.  The job may
have been cancelled or paused, or given up by a recovery pass; it is never completed, and it fails
only together with its session.
-/

namespace Synthetos.Analysis

open Synthetos.Core Lib Storage Worker Jobs

/-- The job types of the pipeline. -/
def IsAnalysis (type : JobType) : Prop := ∃ stage : Stage, type = stage.jobType

/-- The type of the job that is due for a session. -/
def AnalysisSession.dueType (analysis : AnalysisSession) : Option JobType :=
  analysis.status.due.map Stage.jobType

/-- The jobs and the rows of the sessions.  An operator locks its session, so it commits to the row
it has read. -/
def System.relay (sys : System) : Relay AnalysisSession where
  runtime := sys.runtime
  rows := sys.store.sessions.map SessionRows.analysis
  sessionOf := sys.sessionOf
  loaded _ := none
  reads := sys.reads
  performed := sys.performed

variable {settings : Settings} {start sys sys' : System} {act : Act} {s t : SessionId} {j : JobId}
  {stage : Stage} {w : WorkerId} {rows : SessionRows} {db db' : AnalysisDb} {world : AnalysisWorld}
  {out : Outcome}

theorem stageOf_lt (h : sys.stageOf j = some stage) : j < sys.runtime.db.jobs.length := by
  obtain ⟨job, hj, -⟩ := stageOf_eq_some.mp h
  exact Table.lt_length_of_getElem? hj

theorem stageOf_step {l : Label} (h : Step settings sys.runtime l sys'.runtime)
    (hs : sys.stageOf j = some stage) : sys'.stageOf j = some stage := by
  obtain ⟨job, hj, htype⟩ := stageOf_eq_some.mp hs
  obtain ⟨new, hnew, hsame, -⟩ := step_row h hj
  exact stageOf_eq_some.mpr ⟨new, hnew, hsame.type.trans htype⟩

/-! ### The rows a worker marks -/

theorem writeFailure_length (db : AnalysisDb) (s : SessionId) (seen : AnalysisSession)
    (error : String) : (db.writeFailure s seen error).sessions.length = db.sessions.length :=
  Table.length_update

theorem writeFailure_other {seen : AnalysisSession} {error : String} (hne : t ≠ s) :
    (db.writeFailure t seen error).sessions[s]? = db.sessions[s]? :=
  Table.getElem?_update_ne hne

theorem markFailed_status (analysis : AnalysisSession) (error : String) :
    (analysis.markFailed error).status = .failed := by
  unfold AnalysisSession.markFailed
  split
  · rename_i h
    exact h.1
  · rfl

/-- A worker that finds the session failed leaves its status alone. -/
theorem mark_status (seen : AnalysisSession) (error : String) (old : SessionStatus) :
    ormSet seen.status (seen.markFailed error).status old = .failed ∨
      seen.status = .failed ∧ ormSet seen.status (seen.markFailed error).status old = old := by
  rw [markFailed_status, ormSet]
  split
  · exact .inr ⟨‹_›, rfl⟩
  · exact .inl rfl

theorem writeFailure_self {seen : AnalysisSession} {error : String} {new : SessionRows}
    (h : (db.writeFailure s seen error).sessions[s]? = some new) :
    ∃ old, db.sessions[s]? = some old ∧ new.content = old.content ∧
      new.analysis.budget = old.analysis.budget ∧
      new.analysis.cycleId = old.analysis.cycleId ∧
      (new.analysis.status = .failed ∨
        seen.status = .failed ∧ new.analysis.status = old.analysis.status) := by
  obtain ⟨old, hold, rfl⟩ := Table.exists_of_getElem?_update h
  refine ⟨old, hold, by rw [if_pos rfl], by rw [if_pos rfl], by rw [if_pos rfl], ?_⟩
  rw [if_pos rfl]
  exact mark_status seen error old.analysis.status

/-! ### The sessions as a relay -/

theorem readSession_relay : sys.readSession w = sys.relay.failedRow w := by
  have hrows : (fun s => sys.store.sessions[s]?.map SessionRows.analysis) =
      fun s => sys.relay.rows[s]? :=
    funext fun _ => (List.getElem?_map ..).symm
  unfold System.readSession Relay.failedRow
  rw [hrows]
  rfl

theorem relay_mark (sys : System) (w : WorkerId) (s : SessionId) (seen : AnalysisSession) :
    Rewritten sys.relay.rows
      ((sys.store.writeFailure s seen (sys.errors w)).sessions.map SessionRows.analysis) s
      fun old new => new.dueType = none ∨ seen.dueType = none ∧ new.dueType = old.dueType := by
  refine rewritten_of_update fun old _ => ?_
  unfold AnalysisSession.dueType
  rcases mark_status seen (sys.errors w) old.analysis.status with hfailed | ⟨hseen, hsame⟩
  · left
    rw [hfailed]
    rfl
  · right
    refine ⟨?_, congrArg (fun status => status.due.map Stage.jobType) hsame⟩
    rw [hseen]
    rfl

/-- The operator leaves its session due for the job it enqueued. -/
theorem relay_commit {due : Option JobType} {q : AnalysisSession → AnalysisSession → Prop}
    (hout : Operated db s stage world db' rows out)
    (hdue : out.rows.analysis.dueType = due) :
    Rewritten (db.sessions.map SessionRows.analysis) (db'.sessions.map SessionRows.analysis) s
      fun old new => new.dueType = due ∨ q old new := by
  rw [hout.sessions]
  exact rewritten_of_update fun _ _ => .inl hdue

theorem failed_due (hout : Operated db s stage world db' rows out) {e : String}
    (herror : out.error = some e) : out.rows.analysis.dueType = none := by
  unfold AnalysisSession.dueType
  rcases runOperator_settles hout.ran with ⟨hnone, -⟩ | ⟨-, -, hfailed⟩
  · exact absurd (hnone.symm.trans herror) nofun
  · rw [hfailed]
    rfl

theorem passed_due (hout : Operated db s stage world db' rows out) (herror : out.error = none) :
    out.rows.analysis.dueType = stage.done.due.map Stage.jobType := by
  unfold AnalysisSession.dueType
  rcases runOperator_settles hout.ran with ⟨-, hstatus⟩ | ⟨e, hsome, -⟩
  · rw [hstatus]
  · exact absurd (hsome.symm.trans herror) nofun

theorem relays_of_moves (h : Moves settings sys act sys') :
    Relays settings IsAnalysis AnalysisSession.dueType sys.relay sys'.relay := by
  cases h with
  | quiet l rt hstep hexec hrespond hread hwrite =>
    refine .quiet l rt (fun _ => none) hstep ?_ hread hwrite nofun
    rintro w world j phase job hl hpc hj ⟨stage, htype⟩
    have hfound := executing?_eq_some.mpr ⟨⟨phase, hpc⟩, stageOf_eq_some.mpr ⟨job, hj, htype⟩⟩
    exact absurd ((hexec w ⟨world, hl⟩).symm.trans hfound) nofun
  | read w rt hstep =>
    rw [readSession_relay]
    exact .read w rt hstep
  | mark w j result seen cycleSeen runSeen s row rt hstep hpc hs hrow =>
    exact .mark w j result s row _ rt hstep ⟨seen, cycleSeen, runSeen, hpc⟩ hs hrow
      (relay_mark sys w s row)
  | raised w world j stage e rt errors hexec hstep hreturned =>
    exact .raised w _ j rt hstep (returned_relay.mp hreturned)
  | failed w world j stage s e rt store errors hexec hs hout hstep hreturned =>
    obtain ⟨rows, out, hoperated, herror⟩ := operate_cases hout
    obtain ⟨phase, job, hpc, hj, -⟩ := executing_job hexec
    exact .committed w _ j phase job s _ false none rt hpc hj hs hstep
      (returned_relay.mp hreturned) (fun _ hnone => nomatch hnone)
      (relay_commit hoperated (failed_due hoperated herror))
  | passed w world j stage next s rt store born hexec hs hnext hout hstep hborn hreturned =>
    obtain ⟨rows, out, hoperated, herror⟩ := operate_cases hout
    obtain ⟨phase, job, hpc, hj, -⟩ := executing_job hexec
    refine .committed w _ j phase job s _ true (some born) rt hpc hj hs hstep
      (returned_relay.mp hreturned) ?_ (relay_commit hoperated ?_)
    · rintro new hnew
      obtain rfl := Option.some.inj hnew
      exact ⟨⟨next, hborn.1⟩, hborn.2⟩
    · rw [passed_due hoperated herror, hnext]
      exact congrArg some hborn.1.symm
  | finished w world j stage s rt store hexec hs hend hout hstep hreturned =>
    obtain ⟨rows, out, hoperated, herror⟩ := operate_cases hout
    obtain ⟨phase, job, hpc, hj, -⟩ := executing_job hexec
    refine .committed w _ j phase job s _ true none rt hpc hj hs hstep
      (returned_relay.mp hreturned) (fun _ hnone => nomatch hnone) (relay_commit hoperated ?_)
    rw [passed_due hoperated herror, hend]
    rfl
  | started q body c seen rt job hpc hstep hjobs hjob =>
    have hdue : AnalysisSession.dueType
        { cycleId := c, charterId := body.charterId, paperCardId := body.paperCardId
          budget := body.budget } = some job.jobType := congrArg some hjob.1.symm
    have hrelay : Relays settings IsAnalysis AnalysisSession.dueType sys.relay _ :=
      .started q rt job _ hstep hjobs ⟨⟨.ingest, hjob.1⟩, hjob.2⟩ hdue
    simpa [System.relay, AnalysisDb.create] using hrelay
  | refused q body =>
    refine .quiet (.drop q) _ (fun _ => none) (.drop q) ?_ nofun (fun _ hl => nomatch hl) nofun
    exact fun _ _ _ _ _ hl => nomatch hl

theorem relay_initial (h : start.Initial) : start.relay.Initial where
  runtime := h.runtime
  rows := by
    unfold System.relay
    rw [h.store]
    rfl
  sessionOf := h.sessionOf
  performed := h.performed

/-! ### The job that is due -/

theorem job_lt (hinv : Coherent IsAnalysis sys.relay) (h : sys.sessionOf j = some s) :
    j < sys.runtime.db.jobs.length := by
  obtain ⟨-, job, hj, -⟩ := hinv.known j s h
  exact Table.lt_length_of_getElem? hj

theorem session_lt (hinv : Coherent IsAnalysis sys.relay) (h : sys.sessionOf j = some s) :
    s < sys.store.sessions.length :=
  lt_of_lt_of_eq (hinv.known j s h).1 (List.length_map ..)

theorem waits_run (h₀ : start.Initial) (h : Reaches Unguarded (System.step settings) start sys) :
    Coherent IsAnalysis sys.relay ∧ Waits AnalysisSession.dueType sys.relay :=
  h.invariant (fun sys => Coherent IsAnalysis sys.relay ∧ Waits AnalysisSession.dueType sys.relay)
    (fun _ _ _ hinv _ hstep =>
      have hrelays := relays_of_moves (moves_of_step hstep)
      ⟨coherent_step hinv.1 hrelays, waits_step hinv.1 hinv.2 hrelays⟩)
    ⟨coherent_initial (relay_initial h₀), waits_initial (relay_initial h₀)⟩

/-- In every reachable state the operator that is due in a session has a job whose operator has not
committed.  Its row is not completed, and it is failed only if a recovery pass gave it up. -/
theorem unfinished_sessions_wait {settings : Settings} {start sys : System} {s : SessionId}
    {rows : SessionRows} {stage : Stage} (h₀ : start.Initial)
    (h : Reaches Unguarded (System.step settings) start sys)
    (hs : sys.store.sessions[s]? = some rows)
    (hdue : rows.analysis.status.due = some stage) :
    ∃ (j : JobId) (job : Job), sys.sessionOf j = some s ∧ sys.runtime.db.jobs[j]? = some job ∧
      job.jobType = stage.jobType ∧ j ∉ sys.performed ∧ job.status ≠ .completed ∧
      (job.status = .failed → ∃ count, .jobReclaimExhausted j count ∈ sys.runtime.db.events) := by
  obtain ⟨hinv, hwaits⟩ := waits_run h₀ h
  have hrow : sys.relay.rows[s]? = some rows.analysis :=
    (List.getElem?_map ..).trans (congrArg (Option.map _) hs)
  have hduetype : rows.analysis.dueType = some stage.jobType := congrArg (Option.map _) hdue
  exact awaited_job hinv hwaits hrow hduetype

/-! ### A session under way -/

/-- A cycle with a shortlisted paper, before the first request. -/
def screenedCycle : System :=
  { runtime := { db := { cycles := [{ charterId := 0, status := .discoveryScreened }] } } }

theorem screenedCycle_initial : screenedCycle.Initial where
  runtime := ⟨fun _ => rfl, fun _ => rfl, rfl, rfl, rfl, rfl, rfl, rfl, rfl, by decide⟩
  store := rfl
  sessionOf _ := rfl
  performed := rfl

def shortPaper : IngestionResult where
  fetchMethod := "html"
  sourceUrl := "https://example.org/paper"
  document := { normalizedSections := [⟨"Method".toList, 1, "We sort.".toList⟩] }
  qualityScore := 1

/-- The analysis of a paper is requested and its text fetched. -/
def ingestPaper : List Act :=
  [.runtime (.receive 0 (.startAnalysis 0)), .start 0 ⟨0, 0, some "shortlisted", .usual⟩,
    .runtime (.claim 0 []), .runtime (.start 0),
    .operate 0 { html := .ok shortPaper }]

def statusIs (status : SessionStatus) (sys : System) : Bool :=
  sys.store.sessions[0]?.any fun rows => rows.analysis.status == status

theorem unfinished_sessions_wait_ingested : ∃ (start sys : System) (rows : SessionRows),
    start.Initial ∧ Reaches Unguarded (System.step {}) start sys ∧
      sys.store.sessions[0]? = some rows ∧ rows.analysis.status.due = some .chunk ∧
      ∃ (j : JobId) (job : Job), sys.sessionOf j = some 0 ∧ sys.runtime.db.jobs[j]? = some job ∧
        job.jobType = Stage.chunk.jobType ∧ j ∉ sys.performed ∧ job.status ≠ .completed ∧
        (job.status = .failed →
          ∃ count, .jobReclaimExhausted j count ∈ sys.runtime.db.events) := by
  have hperform : (perform (fun _ _ => true) (System.step {}) screenedCycle ingestPaper).any
      (statusIs .ingested) = true := by decide +kernel
  obtain ⟨sys, hrun, htest⟩ := Reaches.of_perform_all hperform
  obtain ⟨rows, hrows, hstatus⟩ := (Option.any_eq_true _ _).mp htest
  have hdue : rows.analysis.status.due = some .chunk := by
    rw [beq_iff_eq.mp hstatus]
    rfl
  exact ⟨screenedCycle, sys, rows, screenedCycle_initial, hrun, hrows, hdue,
    unfinished_sessions_wait screenedCycle_initial hrun hrows hdue⟩

end Synthetos.Analysis
