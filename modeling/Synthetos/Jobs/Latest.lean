import Synthetos.Jobs.Lease

/-!
# The newest job of a thread

A thread is a set of jobs, given by a property of their fixed columns.  Its newest job is the last
row that has the property.
-/

namespace Synthetos.Jobs

open Synthetos.Core Storage Lib Worker Api

/-- No job of the thread is newer than `j`. -/
def Newest (jobs : List Job) (thread : Job → Prop) (j : JobId) : Prop :=
  ∀ (k : JobId) (job : Job), jobs[k]? = some job → thread job → k ≤ j

/-- The property looks at the fixed columns only. -/
def Fixed (thread : Job → Prop) : Prop :=
  ∀ old new, SameJob old new → (thread new ↔ thread old)

/-- The worker is about to execute the job or is executing it. -/
inductive Works (j : JobId) : WorkerPc → Prop where
  | claimed : Works j (.claimed j)
  | executing (phase : Phase) : Works j (.executing j phase)

variable {settings : Settings} {sys sys' : Runtime} {l : Label} {j k : JobId} {old new : Job}
  {w : WorkerId} {thread : Job → Prop}

theorem jobChange_pending (h : JobChange settings sys j old l new) (hnew : new.status = .pending) :
    old.status = .pending ∨ Returns settings sys j l := by
  have other {s : JobStatus} (hs : new.status = s) (hne : s ≠ .pending) :
      old.status = .pending ∨ Returns settings sys j l := absurd (hs.symm.trans hnew) hne
  cases h with
  | kept l new hstatus => exact .inl (hstatus.symm.trans hnew)
  | claimed w locked new hpc hold hstatus => exact other hstatus nofun
  | started w new hpc hstatus => exact other hstatus nofun
  | pausedItself w world phase new hpc htype hstatus => exact other hstatus nofun
  | recorded w result seen cycleSeen runSeen new hpc hstatus =>
    exact other hstatus (outcomeStatus_ne_pending result seen)
  | requeued w stale row new hpc hrow hcount => exact .inr (.reclaim w stale row hpc hrow hcount)
  | exhausted w stale row new hpc hrow hcount hstatus => exact other hstatus nofun
  | answered q body seen new hpc hanswer =>
    cases hanswer with
    | resumeJob row new hrow hseen => exact .inr (.resumeJob q seen row hpc hrow hseen)
    | resumeGate c new hseen => exact .inr (.resumeGate q seen c hpc hseen)
    | cancelJob row new hrow hseen hstatus => exact other hstatus nofun
    | pauseJob row new hrow hseen hstatus => exact other hstatus nofun
    | cancelRun r run new hrun hallowed hold hr hstatus => exact other hstatus nofun
    | pauseRun r run new hrun hallowed hold hr hstatus => exact other hstatus nofun
    | stopLoop c new hold hc hstatus => exact other hstatus nofun

theorem not_returns_of_born (h : Born sys l new) : ¬ Returns settings sys j l := by
  intro hreturns
  cases h with
  | enqueued => exact absurd hreturns nofun
  | requested q body seen new hpc hnew =>
    cases hreturns with
    | resumeJob _ seen' row hpc' =>
      obtain ⟨rfl, -⟩ := RequestPc.opened.inj (hpc.symm.trans hpc')
      exact absurd hnew nofun
    | resumeGate _ seen' c hpc' =>
      obtain ⟨rfl, -⟩ := RequestPc.opened.inj (hpc.symm.trans hpc')
      exact absurd hnew nofun

theorem step_job (h : Step settings sys l sys') (hj : sys'.db.jobs[j]? = some new) :
    (∃ old, sys.db.jobs[j]? = some old ∧ SameJob old new ∧ JobChange settings sys j old l new) ∨
      sys.db.jobs[j]? = none ∧ j = sys.db.jobs.length ∧ Born sys l new := by
  cases hold : sys.db.jobs[j]? with
  | none => exact .inr ⟨rfl, step_born h hold hj⟩
  | some old =>
    obtain ⟨row, hrow, hsame, hchange⟩ := step_row h hold
    obtain rfl := Option.some.inj (hj.symm.trans hrow)
    exact .inl ⟨old, rfl, hsame, hchange⟩

theorem newest_step (hfixed : Fixed thread) (h : Step settings sys l sys')
    (hnewest : Newest sys.db.jobs thread j)
    (hborn : ∀ new, sys'.db.jobs[sys.db.jobs.length]? = some new → Born sys l new → ¬ thread new) :
    Newest sys'.db.jobs thread j := by
  intro k new hk hthread
  rcases step_job h hk with ⟨old, hold, hsame, -⟩ | ⟨-, rfl, hnew⟩
  · exact hnewest k old hold ((hfixed old new hsame).mp hthread)
  · exact absurd hthread (hborn new hk hnew)

theorem newest_born (h : Step settings sys l sys') (hold : sys.db.jobs[j]? = none)
    (hj : sys'.db.jobs[j]? = some new) : Newest sys'.db.jobs thread j := by
  intro k row hk _
  obtain ⟨hlength, -⟩ := step_born h hold hj
  rcases step_job h hk with ⟨old, hin, -⟩ | ⟨-, rfl, -⟩
  · rw [hlength]
    exact Nat.le_of_lt (Table.lt_length_of_getElem? hin)
  · exact Nat.le_of_eq hlength.symm

theorem newest_unique {job row : Job} (hj : sys.db.jobs[j]? = some job) (hk : sys.db.jobs[k]? = some row)
    (hjob : thread job) (hrow : thread row) (hnewest : Newest sys.db.jobs thread j)
    (hnewest' : Newest sys.db.jobs thread k) : j = k :=
  Nat.le_antisymm (hnewest' j job hj hjob) (hnewest k row hk hrow)

theorem Works.job? {pc : WorkerPc} (h : Works j pc) : pc.job? = some j := by
  cases h <;> rfl

theorem Works.unique {pc : WorkerPc} (h : Works j pc) (h' : Works k pc) : j = k :=
  Option.some.inj (h.job?.symm.trans h'.job?)

theorem step_exec {world : External} {phase : Phase} {job : Job} {txn : Txn} {next : Core.Next}
    (h : Step settings sys (.exec w world) sys') (hpc : sys.workers w = .executing j phase)
    (hj : sys.db.jobs[j]? = some job)
    (hout : execute sys.db (operatorInput j job) phase world = (txn, next)) :
    sys' = sys.moveWorker w (sys.db.commit txn) (Runtime.afterExec j next) := by
  cases h with
  | exec _ _ k phase' job' txn' next' hpc' hk hout' =>
    obtain ⟨rfl, rfl⟩ := WorkerPc.executing.inj (hpc.symm.trans hpc')
    obtain rfl := Option.some.inj (hj.symm.trans hk)
    obtain ⟨rfl, rfl⟩ := Prod.mk.inj (hout.symm.trans hout')
    rfl

theorem step_works (h : Step settings sys l sys') (hw : Works j (sys'.workers w)) :
    Works j (sys.workers w) ∨
      ∃ locked, l = .claim w locked ∧ nextJob sys.db locked = some j ∧
        sys'.db = claimJob sys.db j w := by
  by_cases hl : l.worker? = some w
  case neg =>
    rw [step_other_worker h hl] at hw
    exact .inl hw
  cases h with
  | tick | receive | respond | reject | drop => exact absurd hl nofun
  | heartbeat => exact .inl hw
  | claim w' locked k hpc hk =>
    obtain rfl := Option.some.inj hl
    rw [Runtime.moveWorker_self] at hw
    cases hw
    exact .inr ⟨locked, rfl, hk, rfl⟩
  | start w' k hpc =>
    obtain rfl := Option.some.inj hl
    rw [Runtime.moveWorker_self] at hw
    cases hw
    rw [hpc]
    exact .inl .claimed
  | exec w' world k phase job txn next hpc =>
    obtain rfl := Option.some.inj hl
    rw [Runtime.moveWorker_self] at hw
    cases next with
    | suspend phase' =>
      cases hw
      rw [hpc]
      exact .inl (.executing phase)
    | finish result => exact absurd hw nofun
  | acknowledge w' | readOutcome w' | readFailure w' | readNoPatch w' | readPatch w' | raisePatch w'
  | writeOutcome w' | readStale w' | writeStale w' | crash w' =>
    obtain rfl := Option.some.inj hl
    rw [Runtime.moveWorker_self] at hw
    exact absurd hw nofun

end Synthetos.Jobs
