import Synthetos.Cycles.Stages
import Synthetos.Runs.NextJob
import Synthetos.Runtime.Growth

/-!
# Jobs stay inside their cycle

A job of the pipeline belongs to one cycle, and so do the runs, the session and the spec it works
on.
-/

namespace Synthetos.Cycles

open Synthetos.Core Storage Lib Worker Api Autonomy Protocols Jobs Runs

structure Owned (sys : Runtime) : Prop where
  past : ReadsPast sys
  rows : ∀ w j, (sys.workers w).job? = some j → ∃ job, sys.db.jobs[j]? = some job
  runCycle : ∀ (r : RunId) (run : RunRecord), sys.db.runs[r]? = some run →
    ∃ cycle, sys.db.cycles[run.cycleId]? = some cycle
  cycle : ∀ (j : JobId) (job : Job) s, sys.db.jobs[j]? = some job → stage job = some s →
    ∃ c cycle, job.cycleId = some c ∧ sys.db.cycles[c]? = some cycle
  run : ∀ (j : JobId) (job : Job) c r, sys.db.jobs[j]? = some job → Staged c job →
    Concerns job r → ∃ run, sys.db.runs[r]? = some run ∧ run.cycleId = c
  session : ∀ (j : JobId) (job : Job) c s, sys.db.jobs[j]? = some job → Staged c job →
    job.payload.hypothesisSessionId = some s →
      ∃ session, sys.db.sessions[s]? = some session ∧ session.cycleId = c
  compiled : ∀ w j s (job : Job), sys.workers w = .executing j (.compiled s) →
    sys.db.jobs[j]? = some job → job.payload.fromLoop = true ∧
      ∀ c, Staged c job → ∃ spec, sys.db.specs[s]? = some spec ∧ spec.cycleId = c

variable {settings : Settings} {start sys sys' : Runtime} {l : Label} {c : CycleId} {j : JobId}
  {old new job : Job} {w : WorkerId}

theorem stage_of_same (h : SameJob old new) : stage new = stage old := by
  rw [stage, stage, h.type, h.payload]

theorem staged_fixed (c : CycleId) : Fixed (Staged c) := by
  intro old new hsame
  constructor
  · exact fun h => ⟨hsame.cycle ▸ h.cycle, stage_of_same hsame ▸ h.stage⟩
  · exact fun h => ⟨hsame.cycle ▸ h.cycle, stage_of_same hsame ▸ h.stage⟩

theorem Owned.input {phase : Phase} (howned : Owned sys) (hpc : sys.workers w = .executing j phase)
    (hj : sys.db.jobs[j]? = some job) (hjob : Staged c job) :
    OwnInput sys.db (operatorInput j job) phase c where
  cycle := hjob.cycle
  runs := by
    intro r run hr hrun
    obtain ⟨row, hrow, hcycle⟩ := howned.run j job c r hj hjob hr
    obtain rfl := Option.some.inj (hrun.symm.trans hrow)
    exact hcycle
  sessions := by
    intro s session hs hsession
    obtain ⟨row, hrow, hcycle⟩ := howned.session j job c s hj hjob hs
    obtain rfl := Option.some.inj (hsession.symm.trans hrow)
    exact hcycle
  compiled := by
    rintro s rfl
    obtain ⟨hloop, hspecs⟩ := howned.compiled w j s job hpc hj
    refine ⟨hloop, fun spec hspec => ?_⟩
    obtain ⟨row, hrow, hcycle⟩ := hspecs c hjob
    obtain rfl := Option.some.inj (hspec.symm.trans hrow)
    exact hcycle

/-! ### Operators -/

section Exits

variable {db : Db} {input : OperatorInput} {phase : Phase} {txn : Txn} {next : Core.Next}

theorem exit_unstaged (h : Exit db input phase txn next)
    (hnone : stageOf input.jobType input.payload = none) :
    txn.newRuns = [] ∧ (∀ new, txn.newJobs = [new] → stage new = none) ∧
      ∀ result, next = .finish result → patchOf result = none := by
  have typed {t : JobType} {u : CycleStatus} {P : Prop} (htype : input.jobType = t)
      (hstage : stageOf t input.payload = some u) : P := by
    rw [htype, hstage] at hnone
    exact absurd hnone nofun
  have nothing {error : String} (hjobs : txn.newJobs = []) (hruns : txn.newRuns = []) :
      txn.newRuns = [] ∧ (∀ new, txn.newJobs = [new] → stage new = none) ∧
        ∀ result, failed error = .finish result → patchOf result = none := by
    refine ⟨hruns, fun new hnew => absurd (hjobs.symm.trans hnew) nofun, fun result hresult => ?_⟩
    obtain rfl := Core.Next.finish.inj hresult
    rfl
  revert typed nothing
  cases h with
  | rejected => exact fun _ nothing => nothing rfl rfl
  | runFailed _ _ _ _ _ _ _ hquiet => exact fun _ nothing => nothing hquiet.jobs hquiet.runs
  | relayed _ _ htype hjobs hruns =>
    intro _ _
    refine ⟨hruns, fun new hnew => ?_, fun result hresult => ?_⟩
    · cases hinput : input.jobType <;> rw [hinput] at hjobs hnone
      case echo | analysisEvidence | consolidatePatterns | decayPatterns =>
        exact absurd (hnew.symm.trans hjobs) nofun
      case analysisIngest | analysisChunk | analysisGraphExtract | analysisCoverage
          | analysisReview =>
        obtain rfl := List.singleton_inj.mp (hnew.symm.trans hjobs)
        rfl
      all_goals exact absurd hnone nofun
    · obtain rfl := Core.Next.finish.inj hresult
      cases hinput : input.jobType <;> rw [hinput] at hnone <;> first
        | rfl
        | exact absurd hnone nofun
  | _ =>
    intro typed _
    exact typed ‹input.jobType = _› rfl

theorem exit_staged {s : CycleStatus} (h : Exit db input phase txn next)
    (hnew : txn.newJobs = [new]) (hs : stage new = some s) :
    ∃ t, stageOf input.jobType input.payload = some t := by
  refine Option.ne_none_iff_exists'.mp fun hnone => ?_
  exact absurd (((exit_unstaged h hnone).2.1 new hnew).symm.trans hs) nofun

theorem exit_newRun_staged {run : RunRecord} (h : Exit db input phase txn next)
    (hruns : txn.newRuns = [run]) : ∃ t, stageOf input.jobType input.payload = some t := by
  refine Option.ne_none_iff_exists'.mp fun hnone => ?_
  exact absurd ((exit_unstaged h hnone).1.symm.trans hruns) nofun

theorem exit_patch_staged {result : OperatorResult} {t : CycleStatus}
    (h : Exit db input phase txn (.finish result)) (hpatch : patchOf result = some t) :
    ∃ s, stageOf input.jobType input.payload = some s := by
  refine Option.ne_none_iff_exists'.mp fun hnone => ?_
  exact absurd (((exit_unstaged h hnone).2.2 result rfl).symm.trans hpatch) nofun

/-- What a new job of the pipeline works on: rows of its predecessor, a new run, the cycle's
session. -/
structure OwnJob (db : Db) (input : OperatorInput) (txn : Txn) (c : CycleId) (new : Job) : Prop where
  cycle : new.cycleId = some c
  runs : ∀ r, Concerns new r → (input.payload.runRecordId = some r ∨
    input.payload.preparedRunRecordId = some r) ∨ r = db.runs.length ∧ ∃ run, txn.newRuns = [run]
  session : ∀ s, new.payload.hypothesisSessionId = some s →
    input.payload.hypothesisSessionId = some s ∨ sessionOf db c = some s

theorem ownJob_of_runs (hcycle : new.cycleId = some c)
    (hsession : new.payload.hypothesisSessionId = none)
    (hruns : ∀ r, Concerns new r → (input.payload.runRecordId = some r ∨
      input.payload.preparedRunRecordId = some r) ∨ r = db.runs.length ∧ ∃ run, txn.newRuns = [run]) :
    OwnJob db input txn c new where
  cycle := hcycle
  runs := hruns
  session _ hs := absurd (hsession.symm.trans hs) nofun

theorem exit_newJob_owned {s : CycleStatus} (h : Exit db input phase txn next)
    (hown : OwnInput db input phase c) (hnew : txn.newJobs = [new]) (hs : stage new = some s) :
    OwnJob db input txn c new := by
  have none' (hnone : txn.newJobs = []) : OwnJob db input txn c new :=
    absurd (hnew.symm.trans hnone) fun h => by cases h
  have enqueued {c' : CycleId} {t : JobType} {k : RunId}
      (hone : txn.newJobs = [enqueueNext db c' t k]) (hcycle : c' = c)
      (hk : (input.payload.runRecordId = some k ∨ input.payload.preparedRunRecordId = some k) ∨
        k = db.runs.length ∧ ∃ run, txn.newRuns = [run]) : OwnJob db input txn c new := by
    obtain rfl := List.singleton_inj.mp (hnew.symm.trans hone)
    refine ownJob_of_runs (congrArg some hcycle) rfl ?_
    rintro r (hr | hr)
    · obtain rfl := Option.some.inj hr
      exact hk
    · exact absurd hr fun h => by cases h
  have fresh {job : Job} {t : JobType} {c' : CycleId} {payload : Payload}
      (hone : txn.newJobs = [job]) (hfresh : FreshJob job c' t) (hcycle : c' = c)
      (hpayload : job.payload = payload) (hsession : payload.hypothesisSessionId = none)
      (hprepared : payload.preparedRunRecordId = none)
      (hruns : ∀ r, payload.runRecordId = some r → input.payload.runRecordId = some r) :
      OwnJob db input txn c new := by
    obtain rfl := List.singleton_inj.mp (hnew.symm.trans hone)
    refine ownJob_of_runs (hfresh.cycle.trans (congrArg some hcycle)) (by rw [hpayload, hsession]) ?_
    intro r hr
    rw [Concerns, hpayload, hprepared] at hr
    rcases hr with hr | hr
    · exact .inl (.inl (hruns r hr))
    · exact absurd hr fun h => by cases h
  have ownRun {r : RunId} {run : RunRecord} (hr : input.payload.runRecordId = some r)
      (hrun : db.runs[r]? = some run) : run.cycleId = c := hown.runs r run (.inl hr) hrun
  cases h with
  | rejected | launched | polled | halted | observedRunning | observedExit => exact none' rfl
  | runFailed | runStarted | recordedHalt | recommendedReport | reportWritten | specsRejected
  | specsCompiled | protocolReady => exact none' ‹Quiet _›.jobs
  | loopPaused => exact none' ‹txn.newJobs = []›
  | setupReady _ _ _ _ _ hr hrun hjob | recordedFailure _ _ _ _ _ _ hr hrun _ hjob
  | recordedSuccess _ _ _ _ _ hr hrun hjob | captured _ _ _ _ _ _ hr hrun _ hjob
  | checked _ _ _ _ _ _ hr hrun _ hjob | declined _ _ _ _ _ hr hrun hjob
  | classified _ _ _ _ _ hr hrun hjob =>
    exact enqueued hjob.jobs (ownRun hr hrun) (.inl (.inl hr))
  | preparedLaunch _ _ r run _ hr hrun hjob =>
    exact enqueued hjob.jobs (hown.runs r run (.inr hr) hrun) (.inl (.inr hr))
  | retried _ _ _ _ _ hr hrun hjob | loopLaunched _ _ _ _ _ _ _ hr hrun _ hjob =>
    exact enqueued hjob.jobs (ownRun hr hrun) (.inr ⟨rfl, _, hjob.runs⟩)
  | runPrepared specId _ spec _ _ hspec _ _ hjob =>
    exact enqueued hjob.jobs ((hown.compiled specId rfl).2 spec hspec) (.inr ⟨rfl, _, hjob.runs⟩)
  | runGated specId _ spec _ _ _ hspec _ _ hjob =>
    obtain rfl := List.singleton_inj.mp (hnew.symm.trans hjob.jobs)
    refine ownJob_of_runs (congrArg some ((hown.compiled specId rfl).2 spec hspec)) rfl ?_
    rintro r (hr | hr)
    · exact absurd hr fun h => by cases h
    · obtain rfl := Option.some.inj hr
      exact .inr ⟨rfl, _, hjob.runs⟩
  | postmortem _ _ r _ _ _ hr hrun hfresh hpayload hjob
  | recommendedLoop _ _ r _ _ _ _ hr hrun _ hfresh hpayload hjob =>
    refine fresh hjob.jobs hfresh (ownRun hr hrun) hpayload rfl rfl fun k hk => ?_
    obtain rfl := Option.some.inj hk
    exact hr
  | loopStopped _ _ _ _ _ _ _ hr hrun hfresh hpayload hjob =>
    exact fresh hjob.jobs hfresh (ownRun hr hrun) hpayload rfl rfl fun _ h => by cases h
  | loopRecompiles _ _ _ run _ session _ _ hr hrun hsession hfresh _ hpayload hjob =>
    obtain rfl := List.singleton_inj.mp (hnew.symm.trans hjob.jobs)
    have hcycle := ownRun hr hrun
    obtain ⟨hs, hnorun, hnoprepared, -⟩ := hpayload
    refine ⟨hfresh.cycle.trans (congrArg some hcycle), fun k hk => ?_, fun s' hs' => .inr ?_⟩
    · rw [Concerns, hnorun, hnoprepared] at hk
      rcases hk with hk | hk <;> exact absurd hk fun h => by cases h
    · obtain rfl := Option.some.inj (hs.symm.trans hs')
      exact hcycle ▸ hsession
  | loopClosed _ _ _ hjobs =>
    rcases hjobs with hnone | hone
    · exact none' hnone
    · obtain rfl := List.singleton_inj.mp (hnew.symm.trans hone)
      exact absurd hs fun h => by cases h
  | relayed _ _ _ hjobs =>
    cases hrelay : (relayOf input.jobType).1 with
    | none => exact none' (by rw [hjobs, hrelay]; rfl)
    | some jobType =>
      have hone : txn.newJobs = [createJob db input.cycleId jobType input.payload 10] := by
        rw [hjobs, hrelay]
        rfl
      obtain rfl := List.singleton_inj.mp (hnew.symm.trans hone)
      exact ⟨hown.cycle, fun r hr => .inl hr, fun s' hs' => .inl hs'⟩

theorem exit_newRun_owned {run : RunRecord} (h : Exit db input phase txn next)
    (hown : OwnInput db input phase c) (hruns : txn.newRuns = [run]) : run.cycleId = c := by
  have none' (hnone : txn.newRuns = []) : run.cycleId = c :=
    absurd (hruns.symm.trans hnone) nofun
  revert none'
  cases h with
  | retried _ _ r row htype hr hrow hjob =>
    obtain rfl := List.singleton_inj.mp (hruns.symm.trans hjob.runs)
    exact fun _ => hown.runs r row (.inl hr) hrow
  | loopLaunched _ _ r row _ htype _ hr hrow hfresh hjob =>
    obtain rfl := List.singleton_inj.mp (hruns.symm.trans hjob.runs)
    exact fun _ => hfresh.cycle.trans (hown.runs r row (.inl hr) hrow)
  | runPrepared specId _ spec _ htype hspec _ hfresh hjob
  | runGated specId _ spec _ _ htype hspec _ hfresh hjob =>
    obtain rfl := List.singleton_inj.mp (hruns.symm.trans hjob.runs)
    exact fun _ => hfresh.cycle.trans ((hown.compiled specId rfl).2 spec hspec)
  | loopPaused | loopClosed | relayed => exact fun none' => none' ‹txn.newRuns = []›
  | _ =>
    first
      | exact fun none' => none' rfl
      | exact fun none' => none' ‹Quiet _›.runs
      | exact fun none' => none' ‹Enqueues _ _›.runs

end Exits

/-! ### Steps -/

theorem sessionOf_row {db : Db} {s : SessionId} (h : sessionOf db c = some s) :
    ∃ session, db.sessions[s]? = some session ∧ session.cycleId = c := by
  obtain ⟨hlength, hcycle, -⟩ := List.findIdx?_eq_some_iff_getElem.mp h
  exact ⟨db.sessions[s], List.getElem?_eq_getElem hlength, by simpa using hcycle⟩

/-- What `Owned` says of one job. -/
structure InCycle (db : Db) (c : CycleId) (job : Job) : Prop where
  cycle : job.cycleId = some c
  row : ∃ cycle, db.cycles[c]? = some cycle
  runs : ∀ r, Concerns job r → ∃ run, db.runs[r]? = some run ∧ run.cycleId = c
  sessions : ∀ s, job.payload.hypothesisSessionId = some s →
    ∃ session, db.sessions[s]? = some session ∧ session.cycleId = c

theorem Owned.inCycle {s : CycleStatus} (howned : Owned sys) (hj : sys.db.jobs[j]? = some job)
    (hs : stage job = some s) : ∃ c, InCycle sys.db c job := by
  obtain ⟨c, cycle, hc, hrow⟩ := howned.cycle j job s hj hs
  have hjob : Staged c job := ⟨hc, s, hs⟩
  exact ⟨c, hc, ⟨cycle, hrow⟩, fun r hr => howned.run j job c r hj hjob hr,
    fun s' hs' => howned.session j job c s' hj hjob hs'⟩

theorem InCycle.grows {db db' : Db} (h : InCycle db c old) (hgrows : Grows db db')
    (hsame : SameJob old new) : InCycle db' c new where
  cycle := hsame.cycle.trans h.cycle
  row := by
    obtain ⟨cycle, hc⟩ := h.row
    obtain ⟨now, hnow, -⟩ := hgrows.cycles c cycle hc
    exact ⟨now, hnow⟩
  runs r hr := by
    obtain ⟨run, hrun, hcycle⟩ := h.runs r ((concerns_iff_of_same hsame).mp hr)
    obtain ⟨now, hnow, hsame'⟩ := hgrows.runs r run hrun
    exact ⟨now, hnow, hsame'.cycle.trans hcycle⟩
  sessions s hs := by
    obtain ⟨session, hsession, hcycle⟩ := h.sessions s (hsame.payload ▸ hs)
    exact ⟨session, hgrows.sessions s session hsession, hcycle⟩

theorem inCycle_enqueued {s : CycleStatus} {world : External} {m : JobId} {phase : Phase}
    {txn : Txn} {next : Core.Next} (howned : Owned sys) (h : Step settings sys (.exec w world) sys')
    (hpc : sys.workers w = .executing m phase) (hm : sys.db.jobs[m]? = some job)
    (hout : execute sys.db (operatorInput m job) phase world = (txn, next))
    (hnew : txn.newJobs = [new]) (hs : stage new = some s) : ∃ c, InCycle sys'.db c new := by
  have hexit := execute_exit hout
  obtain ⟨t, ht⟩ := exit_staged hexit hnew hs
  obtain ⟨c, hin⟩ := howned.inCycle hm ht
  have hown := howned.input hpc hm ⟨hin.cycle, t, ht⟩
  have hjob := exit_newJob_owned hexit hown hnew hs
  have hlater := hin.grows (step_grows h) (.refl job)
  refine ⟨c, hjob.cycle, hlater.row, fun r hr => ?_, fun s' hs' => ?_⟩
  · rcases hjob.runs r hr with hr | ⟨rfl, run, hruns⟩
    · exact hlater.runs r hr
    · refine ⟨run, ?_, exit_newRun_owned hexit hown hruns⟩
      rw [step_exec h hpc hm hout]
      exact commit_newRun hruns
  · rcases hjob.session s' hs' with hs' | hs'
    · exact hlater.sessions s' hs'
    · obtain ⟨session, hsession, hcycle⟩ := sessionOf_row hs'
      exact ⟨session, (step_grows h).sessions s' session hsession, hcycle⟩

/-- The run a request adds belongs to the cycle of its job. -/
theorem requested_run {q : Nat} {body : Request} {seen : Db}
    (h : Step settings sys (.respond q) sys') (hpc : sys.requests q = .opened body seen)
    (hborn : sys.db.jobs[j]? = none) (hj : sys'.db.jobs[j]? = some new)
    (hbody : (∃ spec row, body = .startRun spec ∧ seen.specs[spec]? = some row ∧ row.cycleId = c) ∨
      ∃ k run, body = .controlRun k .retry ∧ seen.runs[k]? = some run ∧ run.cycleId = c) :
    ∃ run, sys'.db.runs[sys.db.runs.length]? = some run ∧ run.cycleId = c := by
  have hkind : (∃ spec, body = .startRun spec) ∨ ∃ k, body = .controlRun k .retry := by
    rcases hbody with ⟨spec, -, rfl, -⟩ | ⟨k, -, rfl, -⟩
    · exact .inl ⟨spec, rfl⟩
    · exact .inr ⟨k, rfl⟩
  obtain ⟨run, hrun⟩ := respond_newRun h hpc hkind hborn hj
  refine ⟨run, hrun, ?_⟩
  obtain ⟨-, hrunBorn⟩ := step_runBorn h (List.getElem?_eq_none (Nat.le_refl _)) hrun
  cases hrunBorn with
  | started _ spec seen' row cycle _ hpc' hspec hcycle hnew =>
    obtain ⟨rfl, rfl⟩ := RequestPc.opened.inj (hpc.symm.trans hpc')
    rcases hbody with ⟨spec', row', hbody, hrow', rfl⟩ | ⟨k, run', hbody, -⟩
    · obtain rfl := Request.startRun.inj hbody
      obtain rfl := Option.some.inj (hspec.symm.trans hrow')
      exact hnew.2.1
    · exact absurd hbody nofun
  | retried _ k seen' row _ hpc' hrow hallowed hnew =>
    obtain ⟨rfl, rfl⟩ := RequestPc.opened.inj (hpc.symm.trans hpc')
    rcases hbody with ⟨spec', row', hbody, -⟩ | ⟨k', run', hbody, hrun', rfl⟩
    · exact absurd hbody nofun
    · obtain ⟨rfl, -⟩ := Request.controlRun.inj hbody
      obtain rfl := Option.some.inj (hrow.symm.trans hrun')
      exact hnew.2.1

theorem requested_session {q : Nat} {seen : Db} {charter : CharterId} (h : Step settings sys (.respond q) sys')
    (hpc : sys.requests q = .opened (.startHypothesisSession c charter) seen)
    (hborn : sys.db.jobs[j]? = none) (hj : sys'.db.jobs[j]? = some new) :
    ∃ session, sys'.db.sessions[sys.db.sessions.length]? = some session ∧ session.cycleId = c := by
  cases h with
  | reject => exact absurd (hborn.symm.trans hj) nofun
  | respond _ body seen' db hpc' hanswer =>
    obtain ⟨rfl, rfl⟩ := RequestPc.opened.inj (hpc.symm.trans hpc')
    cases hanswer with
    | startHypothesisSession _ _ cycle hc hstatus =>
      exact ⟨_, List.getElem?_concat_length, rfl⟩

theorem requested_cycle {q : Nat} {body : Request} {seen : Db} (howned : Owned sys)
    (hpc : sys.requests q = .opened body seen) (hnew : Requested seen sys.db body new) :
    ∃ c cycle, new.cycleId = some c ∧ sys.db.cycles[c]? = some cycle := by
  have hpast := howned.past q body seen hpc
  have row {c : CycleId} {cycle : ResearchCycle} (hc : seen.cycles[c]? = some cycle) :
      ∃ cycle, sys.db.cycles[c]? = some cycle := by
    obtain ⟨now, hnow, -⟩ := hpast.cycles c cycle hc
    exact ⟨now, hnow⟩
  have runRow {r : RunId} {run : RunRecord} (hr : seen.runs[r]? = some run) :
      ∃ cycle, sys.db.cycles[run.cycleId]? = some cycle := by
    obtain ⟨now, hnow, hsame⟩ := hpast.runs r run hr
    exact hsame.cycle ▸ howned.runCycle r now hnow
  cases hnew with
  | startDiscovery c cycle hc | startAnalysis c cycle hc | startHypothesisSession c _ cycle hc
  | compileProtocols c cycle _ _ _ _ _ hc | stopLoop c cycle hc =>
    exact ⟨c, (row hc).imp fun _ h => ⟨rfl, h⟩⟩
  | startRun spec srow cycle hspec hc => exact ⟨srow.cycleId, (row hc).imp fun _ h => ⟨rfl, h⟩⟩
  | resumeRun k run hrun | retryRun k run hrun =>
    exact ⟨run.cycleId, (runRow hrun).imp fun _ h => ⟨rfl, h⟩⟩

theorem inCycle_requested {q : Nat} {body : Request} {seen : Db} {s : CycleStatus}
    (howned : Owned sys) (h : Step settings sys (.respond q) sys')
    (hpc : sys.requests q = .opened body seen) (hnew : Requested seen sys.db body new)
    (hborn : sys.db.jobs[j]? = none) (hj : sys'.db.jobs[j]? = some new)
    (hs : stage new = some s) : ∃ c, InCycle sys'.db c new := by
  have hpast : Grows seen sys'.db := (howned.past q body seen hpc).trans (step_grows h)
  obtain ⟨c, cycle, hcycle, hc⟩ := requested_cycle howned hpc hnew
  obtain ⟨now, hnow, -⟩ := (step_grows h).cycles c cycle hc
  have onlyRun {job : Job} {k : RunId} {c : CycleId} (hk : job.payload.runRecordId = some k)
      (hprepared : job.payload.preparedRunRecordId = none)
      (hrun : ∃ run, sys'.db.runs[k]? = some run ∧ run.cycleId = c) (r : RunId)
      (hr : Concerns job r) : ∃ run, sys'.db.runs[r]? = some run ∧ run.cycleId = c := by
    rcases hr with hr | hr
    · obtain rfl := Option.some.inj (hk.symm.trans hr)
      exact hrun
    · exact absurd (hprepared.symm.trans hr) nofun
  suffices hwork : (∀ r, Concerns new r → ∃ run, sys'.db.runs[r]? = some run ∧ run.cycleId = c) ∧
      ∀ s, new.payload.hypothesisSessionId = some s →
        ∃ session, sys'.db.sessions[s]? = some session ∧ session.cycleId = c from
    ⟨c, hcycle, ⟨now, hnow⟩, hwork.1, hwork.2⟩
  cases hnew with
  | startAnalysis => exact absurd hs nofun
  | startDiscovery | stopLoop =>
    refine ⟨fun r hr => ?_, nofun⟩
    rcases hr with hr | hr <;> exact absurd hr nofun
  | startHypothesisSession c' =>
    obtain rfl := Option.some.inj hcycle
    refine ⟨fun r hr => ?_, fun s' hs' => ?_⟩
    · rcases hr with hr | hr <;> exact absurd hr nofun
    · obtain rfl := Option.some.inj hs'
      exact requested_session h hpc hborn hj
  | compileProtocols c' cycle' session srow cards profile image hc' hstatus hrow hsession =>
    obtain rfl := Option.some.inj hcycle
    refine ⟨fun r hr => ?_, fun s' hs' => ?_⟩
    · rcases hr with hr | hr <;> exact absurd hr nofun
    · obtain rfl := Option.some.inj hs'
      exact ⟨srow, hpast.sessions session srow hrow, hsession⟩
  | startRun spec srow cycle' hspec =>
    obtain rfl := Option.some.inj hcycle
    refine ⟨onlyRun rfl rfl ?_, nofun⟩
    exact requested_run h hpc hborn hj (.inl ⟨spec, srow, rfl, hspec, rfl⟩)
  | resumeRun k run hrun hallowed =>
    obtain rfl := Option.some.inj hcycle
    refine ⟨onlyRun rfl rfl ?_, nofun⟩
    obtain ⟨row, hrow, hsame⟩ := hpast.runs k run hrun
    exact ⟨row, hrow, hsame.cycle⟩
  | retryRun k run hrun hallowed =>
    obtain rfl := Option.some.inj hcycle
    refine ⟨onlyRun rfl rfl ?_, nofun⟩
    exact requested_run h hpc hborn hj (.inr ⟨k, run, rfl, hrun, rfl⟩)

/-! ### Runs -/

theorem inCycle_step {s : CycleStatus} (howned : Owned sys) (h : Step settings sys l sys')
    (hj : sys'.db.jobs[j]? = some new) (hs : stage new = some s) : ∃ c, InCycle sys'.db c new := by
  rcases step_job h hj with ⟨old, hold, hsame, -⟩ | ⟨hnone, -, hborn⟩
  · obtain ⟨c, hin⟩ := howned.inCycle hold ((stage_of_same hsame).symm.trans hs)
    exact ⟨c, hin.grows (step_grows h) hsame⟩
  · cases hborn with
    | enqueued w world m phase job new txn next hpc hm hout hnew =>
      exact inCycle_enqueued howned h hpc hm hout hnew hs
    | requested q body seen new hpc hnew => exact inCycle_requested howned h hpc hnew hnone hj hs

theorem runCycle_step {r : RunId} {run : RunRecord} (howned : Owned sys)
    (h : Step settings sys l sys') (hr : sys'.db.runs[r]? = some run) :
    ∃ cycle, sys'.db.cycles[run.cycleId]? = some cycle := by
  have later {c : CycleId} {cycle : ResearchCycle} (hc : sys.db.cycles[c]? = some cycle) :
      ∃ cycle, sys'.db.cycles[c]? = some cycle := by
    obtain ⟨now, hnow, -⟩ := (step_grows h).cycles c cycle hc
    exact ⟨now, hnow⟩
  cases hold : sys.db.runs[r]? with
  | some old =>
    obtain ⟨now, hnow, hsame⟩ := (step_grows h).runs r old hold
    obtain rfl := Option.some.inj (hr.symm.trans hnow)
    obtain ⟨cycle, hc⟩ := howned.runCycle r old hold
    exact hsame.cycle ▸ later hc
  | none =>
    obtain ⟨-, hborn⟩ := step_runBorn h hold hr
    cases hborn with
    | prepared w world m phase job txn next new hpc hm hout hnew =>
      obtain ⟨t, ht⟩ := exit_newRun_staged (execute_exit hout) hnew
      obtain ⟨c, hin⟩ := howned.inCycle hm ht
      have hown := howned.input hpc hm ⟨hin.cycle, t, ht⟩
      obtain ⟨cycle, hc⟩ := hin.row
      rw [exit_newRun_owned (execute_exit hout) hown hnew]
      exact later hc
    | started q spec seen row cycle new hpc hspec hc hnew =>
      obtain ⟨now, hnow, -⟩ := (howned.past q _ seen hpc).cycles _ cycle hc
      exact hnew.2.1 ▸ later hnow
    | retried q k seen row new hpc hrow hallowed hnew =>
      obtain ⟨now, hnow, hsame⟩ := (howned.past q _ seen hpc).runs k row hrow
      obtain ⟨cycle, hc⟩ := howned.runCycle k now hnow
      rw [hnew.2.1, ← hsame.cycle]
      exact later hc

theorem exit_compiled {db : Db} {input : OperatorInput} {phase : Phase} {txn : Txn} {s : SpecId}
    (h : Exit db input phase txn (.suspend (.compiled s))) :
    input.payload.fromLoop = true ∧ ∃ k session spec, input.payload.hypothesisSessionId = some k ∧
      db.sessions[k]? = some session ∧ (db.commit txn).specs[s]? = some spec ∧
        spec.cycleId = session.cycleId := by
  generalize hnext : Core.Next.suspend (.compiled s) = next at h
  cases h with
  | specsCompiled _ _ k row s' spec htype hloop hk hrow hspec hcycle =>
    obtain rfl := Phase.compiled.inj (Core.Next.suspend.inj hnext)
    exact ⟨hloop, k, row, spec, hk, hrow, hspec, hcycle⟩
  | _ => exact absurd hnext nofun

theorem compiled_step {s : SpecId} (howned : Owned sys) (h : Step settings sys l sys')
    (hpc : sys'.workers w = .executing j (.compiled s)) (hj : sys'.db.jobs[j]? = some new) :
    new.payload.fromLoop = true ∧
      ∀ c, Staged c new → ∃ spec, sys'.db.specs[s]? = some spec ∧ spec.cycleId = c := by
  have unmoved (hpc : sys.workers w = .executing j (.compiled s)) {old : Job}
      (hold : sys.db.jobs[j]? = some old) : new.payload.fromLoop = true ∧
        ∀ c, Staged c new → ∃ spec, sys'.db.specs[s]? = some spec ∧ spec.cycleId = c := by
    obtain ⟨now, hnow, hsame⟩ := (step_grows h).jobs j old hold
    obtain rfl := Option.some.inj (hj.symm.trans hnow)
    obtain ⟨hloop, hspecs⟩ := howned.compiled w j s old hpc hold
    refine ⟨by rw [hsame.payload]; exact hloop, fun c hc => ?_⟩
    obtain ⟨spec, hspec, hcycle⟩ := hspecs c ((staged_fixed c old new hsame).mp hc)
    obtain ⟨later, hlater, hsame'⟩ := (step_grows h).specs s spec hspec
    exact ⟨later, hlater, hsame'.cycleId.trans hcycle⟩
  obtain ⟨old, hold⟩ : ∃ old, sys.db.jobs[j]? = some old := by
    rcases step_job? h (w := w) (by rw [hpc]; rfl) with hheld | ⟨locked, -, hnext, -⟩
    · exact howned.rows w j hheld
    · obtain ⟨old, hold, -⟩ := nextJob_pending _ _ hnext
      exact ⟨old, hold⟩
  by_cases hl : l.worker? = some w
  case neg => exact unmoved (step_other_worker h hl ▸ hpc) hold
  obtain ⟨now, hnow, hsame⟩ := (step_grows h).jobs j old hold
  obtain rfl := Option.some.inj (hj.symm.trans hnow)
  have hgrows := step_grows h
  revert unmoved hgrows
  cases h with
  | heartbeat => exact fun unmoved _ => unmoved hpc hold
  | exec w' world k phase job txn next hpc' hk hout =>
    obtain rfl := Option.some.inj hl
    rw [Runtime.moveWorker_self] at hpc
    cases next with
    | finish result => exact absurd hpc nofun
    | suspend phase' =>
      obtain ⟨rfl, rfl⟩ := WorkerPc.executing.inj hpc
      obtain rfl := Option.some.inj (hold.symm.trans hk)
      obtain ⟨hloop, m, session, spec, hm, hrow, hspec, hcycle⟩ := exit_compiled (execute_exit hout)
      refine fun _ _ => ⟨by rw [hsame.payload]; exact hloop, fun c hc => ⟨spec, hspec, ?_⟩⟩
      have hstaged := (staged_fixed c _ _ hsame).mp hc
      exact hcycle.trans ((howned.input hpc' hold hstaged).sessions m session hm hrow)
  | tick | receive | respond | reject | drop => exact absurd hl nofun
  | claim w' | start w' | acknowledge w' | readOutcome w' | readFailure w' | readNoPatch w'
  | readPatch w' | raisePatch w' | writeOutcome w' | readStale w' | writeStale w' | crash w' =>
    obtain rfl := Option.some.inj hl
    rw [Runtime.moveWorker_self] at hpc
    exact absurd hpc nofun

theorem rows_step (howned : Owned sys) (h : Step settings sys l sys')
    (hw : (sys'.workers w).job? = some j) : ∃ job, sys'.db.jobs[j]? = some job := by
  have later {old : Job} (hold : sys.db.jobs[j]? = some old) :
      ∃ job, sys'.db.jobs[j]? = some job := by
    obtain ⟨now, hnow, -⟩ := (step_grows h).jobs j old hold
    exact ⟨now, hnow⟩
  rcases step_job? h hw with hheld | ⟨locked, -, hnext, -⟩
  · obtain ⟨old, hold⟩ := howned.rows w j hheld
    exact later hold
  · obtain ⟨old, hold, -⟩ := nextJob_pending _ _ hnext
    exact later hold

theorem owned_step (howned : Owned sys) (h : Step settings sys l sys') : Owned sys' where
  past := readsPast_step howned.past h
  rows _ _ hw := rows_step howned h hw
  runCycle _ _ hr := runCycle_step howned h hr
  cycle j job s hj hs := by
    obtain ⟨c, hin⟩ := inCycle_step howned h hj hs
    obtain ⟨cycle, hc⟩ := hin.row
    exact ⟨c, cycle, hin.cycle, hc⟩
  run j job c r hj hjob hr := by
    obtain ⟨s, hs⟩ := hjob.stage
    obtain ⟨c', hin⟩ := inCycle_step howned h hj hs
    obtain rfl := Option.some.inj (hjob.cycle.symm.trans hin.cycle)
    exact hin.runs r hr
  session j job c s hj hjob hs := by
    obtain ⟨t, ht⟩ := hjob.stage
    obtain ⟨c', hin⟩ := inCycle_step howned h hj ht
    obtain rfl := Option.some.inj (hjob.cycle.symm.trans hin.cycle)
    exact hin.sessions s hs
  compiled _ _ _ _ hpc hj := compiled_step howned h hpc hj

theorem owned_initial (hstart : start.Initial) : Owned start where
  past q body seen hpc := absurd ((hstart.requests q).symm.trans hpc) nofun
  rows w j hw := by
    rw [hstart.workers] at hw
    exact absurd hw nofun
  runCycle r run hr := by
    rw [hstart.runs] at hr
    exact absurd hr nofun
  cycle j job s hj := by
    rw [hstart.jobs] at hj
    exact absurd hj nofun
  run j job c r hj := by
    rw [hstart.jobs] at hj
    exact absurd hj nofun
  session j job c s hj := by
    rw [hstart.jobs] at hj
    exact absurd hj nofun
  compiled w j s job hpc := absurd ((hstart.workers w).symm.trans hpc) nofun

end Synthetos.Cycles
