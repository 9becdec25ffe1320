import Synthetos.Runs.Watching

/-!
# Cancelled runs

Cancelling a run rewrites the run and its unfinished jobs once.  The cancellation is final when at
that moment the only operator at work on the run is one that still polls it, and no other decision
about the run or its jobs is pending.
-/

namespace Synthetos.Runs

open Synthetos.Core Storage Lib Worker Api Execution

/-- A worker that may still revive a job of run `r` or rewrite the run, whatever the run's status
is by then. -/
inductive Endangers (settings : Settings) (db : Db) (r : RunId) : WorkerPc → Prop where
  | claimed (j : JobId) (job : Job) (hj : db.jobs[j]? = some job) (hr : Concerns job r) :
      Endangers settings db r (.claimed j)
  | executing (j : JobId) (phase : Phase) (job : Job) (hj : db.jobs[j]? = some job)
      (hr : Concerns job r) (hphase : ¬ Watching job r phase) :
      Endangers settings db r (.executing j phase)
  | outcome (j : JobId) (result : OperatorResult) (job : Job) (hj : db.jobs[j]? = some job)
      (hr : Concerns job r) (hresult : result.success = true) :
      Endangers settings db r (.outcome j result .paused)
  | recordingPause (j : JobId) (result : OperatorResult) (cycleSeen : Option CycleStatus)
      (runSeen : Option RunStatus) (job : Job) (hj : db.jobs[j]? = some job) (hr : Concerns job r)
      (hresult : result.success = true) :
      Endangers settings db r (.recording j result .paused cycleSeen runSeen)
  | recordingFailure (j : JobId) (result : OperatorResult) (seen : JobStatus)
      (cycleSeen : Option CycleStatus) (runSeen : RunStatus) (job : Job)
      (hj : db.jobs[j]? = some job) (hr : job.payload.runRecordId = some r)
      (hresult : result.success = false) (hseen : runSeen ≠ .failed ∧ runSeen ≠ .cancelled) :
      Endangers settings db r (.recording j result seen cycleSeen (some runSeen))
  | reclaiming (stale : List (JobId × Job)) (j : JobId) (row job : Job)
      (hj : db.jobs[j]? = some job) (hr : Concerns job r) (hrow : (j, row) ∈ stale)
      (hcount : row.reclaimCount + 1 ≤ settings.maxReclaims) :
      Endangers settings db r (.reclaiming stale)

/-- A request that has passed its checks and would revive a job of run `r` or rewrite the run. -/
inductive Obstructs (db : Db) (r : RunId) : RequestPc → Prop where
  | control (action : RunAction) (seen : Db) (run : RunRecord) (hrun : seen.runs[r]? = some run)
      (hallowed : (allowedActions run.status).contains action = true)
      (haction : action = .pause ∨ action = .resume) :
      Obstructs db r (.opened (.controlRun r action) seen)
  | pauseJob (j : JobId) (seen : Db) (row job : Job) (hj : db.jobs[j]? = some job)
      (hr : Concerns job r) (hrow : seen.jobs[j]? = some row)
      (hseen : row.status = .pending ∨ row.status = .claimed ∨ row.status = .running) :
      Obstructs db r (.opened (.pauseJob j) seen)
  | resumeJob (j : JobId) (seen : Db) (row job : Job) (hj : db.jobs[j]? = some job)
      (hr : Concerns job r) (hrow : seen.jobs[j]? = some row) (hseen : row.status = .paused) :
      Obstructs db r (.opened (.resumeJob j) seen)
  | resumeGate (c : CycleId) (seen : Db) (j : JobId) (job : Job) (hj : db.jobs[j]? = some job)
      (hr : Concerns job r) (hseen : pausedLoopJob seen c = some j) :
      Obstructs db r (.opened (.resumeGate c) seen)

/-- The label commits the cancellation of run `r`. -/
def Cancels (sys : Runtime) (q : Nat) (r : RunId) : Prop :=
  ∃ seen run, sys.requests q = .opened (.controlRun r .cancel) seen ∧
    seen.runs[r]? = some run ∧ (allowedActions run.status).contains .cancel = true

structure CancelsQuietly (settings : Settings) (sys : Runtime) (l : Label) : Prop where
  workers : ∀ q r, l = .respond q → Cancels sys q r →
    ∀ w, ¬ Endangers settings sys.db r (sys.workers w)
  requests : ∀ q r, l = .respond q → Cancels sys q r →
    ∀ q', q' ≠ q → ¬ Obstructs sys.db r (sys.requests q')
  prepared : ∀ q r, l = .respond q → Cancels sys q r → ∀ (j : JobId) (job : Job),
    sys.db.jobs[j]? = some job → job.payload.preparedRunRecordId = some r →
      job.status.terminal = true
  /-- Stopping the container of a cancelled run works. -/
  poll : ∀ w world j container (job : Job) r, l = .exec w world →
    sys.workers w = .executing j (.polling container) → sys.db.jobs[j]? = some job →
    job.payload.runRecordId = some r → sys.db.runStatus? r = some .cancelled →
      world.controlContainer = .ok ()
  /-- The container of a cancelled run does not exit by itself before it is stopped. -/
  check : ∀ w world j container (job : Job) r, l = .exec w world →
    sys.workers w = .executing j (.checking container) → sys.db.jobs[j]? = some job →
    job.payload.runRecordId = some r → sys.db.runStatus? r = some .cancelled →
      world.observation = .ok .stillRunning

/-- Nothing is left to do for run `r`, and nobody is about to change that. -/
structure Settled (settings : Settings) (sys : Runtime) (r : RunId) : Prop where
  jobs : ∀ (j : JobId) (job : Job), sys.db.jobs[j]? = some job → Concerns job r →
    job.status.terminal = true
  workers : ∀ w, ¬ Endangers settings sys.db r (sys.workers w)
  requests : ∀ q, ¬ Obstructs sys.db r (sys.requests q)

variable {settings : Settings} {start sys sys' later : Runtime} {l : Label} {r : RunId} {j : JobId}
  {old new job : Job} {w : WorkerId} {q : Nat}

/-- An operator at work on a settled run leaves the run cancelled, enqueues nothing and keeps
watching. -/
theorem watcher_exit {world : External} {phase : Phase} {txn : Txn} {next : Core.Next}
    (hok : CancelsQuietly settings sys (.exec w world)) (hsettled : Settled settings sys r)
    (hr : sys.db.runStatus? r = some .cancelled) (hpc : sys.workers w = .executing j phase)
    (hj : sys.db.jobs[j]? = some job) (hjr : Concerns job r)
    (hout : execute sys.db (operatorInput j job) phase world = (txn, next)) :
    txn.newJobs = [] ∧ (∀ k s, WritesRun txn k s → s = .cancelled) ∧
      ∀ phase', next = .suspend phase' → Watching job r phase' := by
  have hwatching : Watching job r phase := by
    by_contra hno
    refine hsettled.workers w ?_
    rw [hpc]
    exact .executing j phase job hj hjr hno
  obtain ⟨htype, hrun, container, hphase⟩ := hwatching
  obtain ⟨row, hrow, hstatus⟩ := Option.map_eq_some_iff.mp hr
  rcases hphase with rfl | rfl | rfl
  · have hcontrol := hok.poll w world j container job r rfl hpc hj hrun hr
    rw [execute_poll_cancelled htype hrun hrow hstatus hcontrol] at hout
    obtain ⟨rfl, rfl⟩ := Prod.mk.inj hout
    refine ⟨rfl, fun _ _ h => absurd h not_writesRun_empty, fun phase' h => ?_⟩
    obtain rfl := Core.Next.suspend.inj h
    exact ⟨htype, hrun, container, .inr (.inr rfl)⟩
  · have hobserved := hok.check w world j container job r rfl hpc hj hrun hr
    rw [execute_check_running htype hrun hobserved] at hout
    obtain ⟨rfl, rfl⟩ := Prod.mk.inj hout
    refine ⟨rfl, fun _ _ h => absurd h not_writesRun_empty, fun phase' h => ?_⟩
    obtain rfl := Core.Next.suspend.inj h
    exact ⟨htype, hrun, container, .inl rfl⟩
  · obtain ⟨hjobs, hwrites, result, rfl⟩ := exit_left_cancelled htype (execute_exit hout)
    exact ⟨hjobs, hwrites, fun phase' h => absurd h nofun⟩

theorem runChange_cancelled {status : RunStatus} (hok : CancelsQuietly settings sys l)
    (hsettled : Settled settings sys r) (hr : sys.db.runStatus? r = some .cancelled)
    (h : RunChange sys r .cancelled l status) : status = .cancelled := by
  cases h with
  | kept => rfl
  | operator w world j phase job txn next s hpc hj hout hjr hwrite =>
    exact (watcher_exit hok hsettled hr hpc hj (.inl hjr) hout).2.1 r status hwrite
  | markedFailed w j result seen cycleSeen runSeen job hpc hj hjr hresult hseen =>
    refine absurd ?_ (hsettled.workers w)
    rw [hpc]
    exact .recordingFailure j result seen cycleSeen runSeen job hj hjr hresult hseen
  | controlled q action seen run s hpc hrun hallowed haction =>
    have hquiet := hsettled.requests q
    rw [hpc] at hquiet
    rcases haction with ⟨-, hs⟩ | ⟨haction, -⟩ | ⟨haction, -⟩
    · exact hs
    · exact absurd (.control action seen run hrun hallowed (.inl haction)) hquiet
    · exact absurd (.control action seen run hrun hallowed (.inr haction)) hquiet

theorem jobChange_settled (hsettled : Settled settings sys r) (hj : sys.db.jobs[j]? = some old)
    (hjr : Concerns old r) (h : JobChange settings sys j old l new) : new.status.terminal = true := by
  have hfinished := hsettled.jobs j old hj hjr
  have finished {s : JobStatus} (hs : new.status = s) (hterminal : s.terminal = true) :
      new.status.terminal = true := by
    rw [hs]
    exact hterminal
  have live {s : JobStatus} {P : Prop} (hs : old.status = s) (hterminal : s.terminal = false) : P := by
    rw [hs, hterminal] at hfinished
    exact absurd hfinished nofun
  have cancellable {P : Prop} (hold : old.status.cancellable = true) : P := by
    unfold JobStatus.terminal at hfinished
    rw [hold] at hfinished
    exact absurd hfinished nofun
  cases h with
  | kept l new hstatus => exact finished hstatus hfinished
  | claimed w locked new hpc hold => exact live hold rfl
  | started w new hpc =>
    refine absurd ?_ (hsettled.workers w)
    rw [hpc]
    exact .claimed j old hj hjr
  | pausedItself w world phase new hpc htype =>
    refine absurd ?_ (hsettled.workers w)
    rw [hpc]
    refine .executing j phase old hj hjr ?_
    rintro ⟨hrun, -⟩
    exact absurd (htype.symm.trans hrun) nofun
  | recorded w result seen cycleSeen runSeen new hpc hstatus =>
    unfold outcomeStatus at hstatus
    split at hstatus
    · rename_i hresult
      split at hstatus
      · rename_i hseen
        subst hseen
        refine absurd ?_ (hsettled.workers w)
        rw [hpc]
        exact .recordingPause j result cycleSeen runSeen old hj hjr hresult
      · exact finished hstatus rfl
    · exact finished hstatus rfl
  | requeued w stale row new hpc hrow hcount =>
    refine absurd ?_ (hsettled.workers w)
    rw [hpc]
    exact .reclaiming stale j row old hj hjr hrow hcount
  | exhausted w stale row new hpc hrow hcount hstatus => exact finished hstatus rfl
  | answered q body seen new hpc hanswer =>
    have hquiet := hsettled.requests q
    rw [hpc] at hquiet
    cases hanswer with
    | cancelJob row new hrow hseen hstatus => exact finished hstatus rfl
    | pauseJob row new hrow hseen => exact absurd (.pauseJob j seen row old hj hjr hrow hseen) hquiet
    | resumeJob row new hrow hseen =>
      exact absurd (.resumeJob j seen row old hj hjr hrow hseen) hquiet
    | resumeGate c new hseen => exact absurd (.resumeGate c seen j old hj hjr hseen) hquiet
    | cancelRun k run new hrun hallowed hold => exact cancellable hold
    | pauseRun k run new hrun hallowed hold =>
      rcases hold with hold | hold
      · exact live hold rfl
      · exact live hold rfl
    | stopLoop c new hold => exact cancellable hold

theorem born_settled (hok : CancelsQuietly settings sys l) (hsettled : Settled settings sys r)
    (hr : sys.db.runStatus? r = some .cancelled) (h : Born sys l new) : ¬ Concerns new r := by
  intro hnew
  obtain ⟨row, hrow, -⟩ := Option.map_eq_some_iff.mp hr
  have hbound := Table.lt_length_of_getElem? hrow
  have fresh {k : RunId} (hk : k = sys.db.runs.length) (hkr : k = r) : False :=
    absurd hbound (by rw [← hkr, hk]; exact Nat.lt_irrefl _)
  cases h with
  | enqueued w world j phase job new txn next hpc hj hout hone =>
    rcases exit_newJob_run (execute_exit hout) hone hnew with hown | hlength
    · obtain ⟨hnone, -⟩ := watcher_exit hok hsettled hr hpc hj hown hout
      exact absurd (hone.symm.trans hnone) nofun
    · exact fresh hlength rfl
  | requested q body seen new hpc hrequested =>
    cases hrequested with
    | startDiscovery | startAnalysis | startHypothesisSession | compileProtocols | stopLoop =>
      exact absurd hnew nofun
    | startRun | retryRun =>
      rcases hnew with hnew | hnew
      · exact fresh rfl (Option.some.inj hnew)
      · exact absurd hnew nofun
    | resumeRun k run hrun hallowed =>
      rcases hnew with hnew | hnew
      · obtain rfl := Option.some.inj hnew
        refine hsettled.requests q ?_
        rw [hpc]
        exact .control .resume seen run hrun hallowed (.inr rfl)
      · exact absurd hnew nofun

theorem concerning_old (hok : CancelsQuietly settings sys l) (hsettled : Settled settings sys r)
    (hr : sys.db.runStatus? r = some .cancelled) (h : Step settings sys l sys')
    (hj : sys'.db.jobs[j]? = some new) (hjr : Concerns new r) :
    ∃ old, sys.db.jobs[j]? = some old ∧ SameJob old new ∧ JobChange settings sys j old l new := by
  cases hold : sys.db.jobs[j]? with
  | none =>
    obtain ⟨-, hborn⟩ := step_born h hold hj
    exact absurd hjr (born_settled hok hsettled hr hborn)
  | some old =>
    obtain ⟨row, hrow, hsame, hchange⟩ := step_row h hold
    obtain rfl := Option.some.inj (hj.symm.trans hrow)
    exact ⟨old, rfl, hsame, hchange⟩

theorem Watching.of_same {phase : Phase} (hsame : SameJob old new) (h : Watching old r phase) :
    Watching new r phase :=
  ⟨hsame.type.trans h.1, by rw [hsame.payload]; exact h.2.1, h.2.2⟩

/-- A danger after the step was a danger before, when the worker's position and the concerned jobs
are the same. -/
theorem Endangers.of_old {db db' : Db} {pc : WorkerPc}
    (hold : ∀ (j : JobId) (new : Job), db'.jobs[j]? = some new → Concerns new r →
      ∃ old, db.jobs[j]? = some old ∧ SameJob old new)
    (h : Endangers settings db' r pc) : Endangers settings db r pc := by
  cases h with
  | claimed j job hj hr =>
    obtain ⟨old, hj', hsame⟩ := hold j job hj hr
    exact .claimed j old hj' ((concerns_iff_of_same hsame).mp hr)
  | executing j phase job hj hr hphase =>
    obtain ⟨old, hj', hsame⟩ := hold j job hj hr
    exact .executing j phase old hj' ((concerns_iff_of_same hsame).mp hr) fun h => hphase (h.of_same hsame)
  | outcome j result job hj hr hresult =>
    obtain ⟨old, hj', hsame⟩ := hold j job hj hr
    exact .outcome j result old hj' ((concerns_iff_of_same hsame).mp hr) hresult
  | recordingPause j result cycleSeen runSeen job hj hr hresult =>
    obtain ⟨old, hj', hsame⟩ := hold j job hj hr
    exact .recordingPause j result cycleSeen runSeen old hj' ((concerns_iff_of_same hsame).mp hr) hresult
  | recordingFailure j result seen cycleSeen runSeen job hj hr hresult hseen =>
    obtain ⟨old, hj', hsame⟩ := hold j job hj (.inl hr)
    exact .recordingFailure j result seen cycleSeen runSeen old hj' (hsame.payload ▸ hr) hresult
      hseen
  | reclaiming stale j row job hj hr hrow hcount =>
    obtain ⟨old, hj', hsame⟩ := hold j job hj hr
    exact .reclaiming stale j row old hj' ((concerns_iff_of_same hsame).mp hr) hrow hcount

theorem Obstructs.of_old {db db' : Db} {pc : RequestPc}
    (hold : ∀ (j : JobId) (new : Job), db'.jobs[j]? = some new → Concerns new r →
      ∃ old, db.jobs[j]? = some old ∧ SameJob old new)
    (h : Obstructs db' r pc) : Obstructs db r pc := by
  cases h with
  | control action seen run hrun hallowed haction =>
    exact .control action seen run hrun hallowed haction
  | pauseJob j seen row job hj hr hrow hseen =>
    obtain ⟨old, hj', hsame⟩ := hold j job hj hr
    exact .pauseJob j seen row old hj' ((concerns_iff_of_same hsame).mp hr) hrow hseen
  | resumeJob j seen row job hj hr hrow hseen =>
    obtain ⟨old, hj', hsame⟩ := hold j job hj hr
    exact .resumeJob j seen row old hj' ((concerns_iff_of_same hsame).mp hr) hrow hseen
  | resumeGate c seen j job hj hr hseen =>
    obtain ⟨old, hj', hsame⟩ := hold j job hj hr
    exact .resumeGate c seen j old hj' ((concerns_iff_of_same hsame).mp hr) hseen

theorem step_endangers (hok : CancelsQuietly settings sys l) (hsettled : Settled settings sys r)
    (hr : sys.db.runStatus? r = some .cancelled) (h : Step settings sys l sys') :
    ¬ Endangers settings sys'.db r (sys'.workers w) := by
  have hold : ∀ (j : JobId) (new : Job), sys'.db.jobs[j]? = some new → Concerns new r →
      ∃ old, sys.db.jobs[j]? = some old ∧ SameJob old new := by
    intro j new hj hjr
    obtain ⟨old, hold, hsame, -⟩ := concerning_old hok hsettled hr h hj hjr
    exact ⟨old, hold, hsame⟩
  intro hdanger
  replace hdanger := hdanger.of_old hold
  by_cases hl : l.worker? = some w
  case neg =>
    rw [step_other_worker h hl] at hdanger
    exact hsettled.workers w hdanger
  cases h with
  | tick | receive | respond | reject | drop => exact absurd hl nofun
  | heartbeat => exact hsettled.workers w hdanger
  | claim w' locked k hpc hk =>
    obtain rfl := Option.some.inj hl
    rw [Runtime.moveWorker_self] at hdanger
    cases hdanger with
    | claimed _ job hj hjr =>
      obtain ⟨row, hrow, hpending⟩ := nextJob_pending _ _ hk
      obtain rfl := Option.some.inj (hj.symm.trans hrow)
      have hfinished := hsettled.jobs k job hj hjr
      rw [hpending] at hfinished
      exact absurd hfinished nofun
  | start w' k hpc =>
    obtain rfl := Option.some.inj hl
    rw [Runtime.moveWorker_self] at hdanger
    cases hdanger with
    | executing _ _ job hj hjr =>
      refine hsettled.workers w' ?_
      rw [hpc]
      exact .claimed k job hj hjr
  | exec w' world k phase job txn next hpc hk hout =>
    obtain rfl := Option.some.inj hl
    rw [Runtime.moveWorker_self] at hdanger
    cases next with
    | finish result => exact absurd hdanger nofun
    | suspend phase' =>
      cases hdanger with
      | executing _ _ job' hj hjr hphase =>
        obtain rfl := Option.some.inj (hk.symm.trans hj)
        exact hphase ((watcher_exit hok hsettled hr hpc hk hjr hout).2.2 phase' rfl)
  | readOutcome w' k result job hpc hk hstatus =>
    obtain rfl := Option.some.inj hl
    rw [Runtime.moveWorker_self] at hdanger
    generalize hseen : job.status = seen at hdanger
    cases hdanger with
    | outcome _ _ job' hj hjr hresult =>
      obtain rfl := Option.some.inj (hk.symm.trans hj)
      have hfinished := hsettled.jobs k job hk hjr
      rw [hseen] at hfinished
      exact absurd hfinished nofun
  | readFailure w' k result seen job hpc hk hresult =>
    obtain rfl := Option.some.inj hl
    rw [Runtime.moveWorker_self] at hdanger
    generalize htarget : failureTarget sys.db job = target at hdanger
    cases hdanger with
    | recordingPause _ _ _ _ job' hj hjr hsuccess =>
      exact absurd (hresult.symm.trans hsuccess) nofun
    | recordingFailure _ _ _ _ runSeen job' hj hjr hfail hseen =>
      obtain rfl := Option.some.inj (hk.symm.trans hj)
      refine hseen.2 (Option.some.inj (Eq.trans ?_ hr))
      unfold failureTarget at htarget
      split at htarget
      · rw [← htarget, hjr]
        rfl
      · exact absurd htarget nofun
  | readNoPatch w' k result seen job hpc hk hresult
  | readPatch w' k result seen job cycle target hpc hk hresult =>
    obtain rfl := Option.some.inj hl
    rw [Runtime.moveWorker_self] at hdanger
    cases hdanger with
    | recordingPause _ _ _ _ job' hj hjr hsuccess =>
      refine hsettled.workers w' ?_
      rw [hpc]
      exact .outcome k result job' hj hjr hsuccess
  | readStale w' hpc =>
    obtain rfl := Option.some.inj hl
    rw [Runtime.moveWorker_self] at hdanger
    cases hdanger with
    | reclaiming _ k row job hj hjr hrow =>
      obtain ⟨hrow, hlive⟩ := staleJobs_row hrow
      obtain rfl := Option.some.inj (hj.symm.trans hrow)
      have hfinished := hsettled.jobs k job hj hjr
      rcases hlive with hlive | hlive <;> rw [hlive] at hfinished <;> exact absurd hfinished nofun
  | acknowledge w' | raisePatch w' | writeOutcome w' | writeStale w' | crash w' =>
    obtain rfl := Option.some.inj hl
    rw [Runtime.moveWorker_self] at hdanger
    exact absurd hdanger nofun

end Synthetos.Runs
