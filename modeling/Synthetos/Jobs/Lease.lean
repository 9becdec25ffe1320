import Synthetos.Runtime.Solo

/-!
# The lease on a job

A worker that has claimed a job is named in `claimed_by` until its outcome is written, provided
that nobody returns the job to the queue while the worker holds it.
-/

namespace Synthetos.Jobs

open Synthetos.Core Storage Lib Worker Api

/-- The steps that return job `j` to the queue: a reclaim, a resume of the job, a resume of its
gate. -/
inductive Returns (settings : Settings) (sys : Runtime) (j : JobId) : Label → Prop where
  | reclaim (w : WorkerId) (stale : List (JobId × Job)) (row : Job)
      (hpc : sys.workers w = .reclaiming stale) (hrow : (j, row) ∈ stale)
      (hcount : row.reclaimCount + 1 ≤ settings.maxReclaims) : Returns settings sys j (.writeStale w)
  | resumeJob (q : Nat) (seen : Db) (row : Job) (hpc : sys.requests q = .opened (.resumeJob j) seen)
      (hrow : seen.jobs[j]? = some row) (hseen : row.status = .paused) :
      Returns settings sys j (.respond q)
  | resumeGate (q : Nat) (seen : Db) (c : CycleId)
      (hpc : sys.requests q = .opened (.resumeGate c) seen) (hseen : pausedLoopJob seen c = some j) :
      Returns settings sys j (.respond q)

/-- A job is returned to the queue only when no worker holds it. -/
def ReturnsUnheld (settings : Settings) (sys : Runtime) (l : Label) : Prop :=
  ∀ j, Returns settings sys j l → ∀ w, (sys.workers w).job? ≠ some j

/-- Every worker is the claimant of the job it holds, and the job is not in the queue. -/
def Leased (sys : Runtime) : Prop :=
  ∀ w j, (sys.workers w).job? = some j →
    ∃ job, sys.db.jobs[j]? = some job ∧ job.claimedBy = some w ∧ job.status ≠ .pending

variable {settings : Settings} {sys sys' : Runtime} {l : Label} {j : JobId} {old new : Job}
  {w : WorkerId}

theorem outcomeStatus_ne_pending (result : OperatorResult) (seen : JobStatus) :
    outcomeStatus result seen ≠ .pending := by
  unfold outcomeStatus
  split
  · split <;> exact nofun
  · exact nofun

theorem jobChange_leased (h : JobChange settings sys j old l new) (hok : ReturnsUnheld settings sys l)
    (hw : (sys.workers w).job? = some j) (hclaimed : old.claimedBy = some w)
    (hstatus : old.status ≠ .pending) : new.claimedBy = some w ∧ new.status ≠ .pending := by
  have moved {s : JobStatus} (hnew : new.status = s) (hclaim : new.claimedBy = old.claimedBy)
      (hs : s ≠ .pending) : new.claimedBy = some w ∧ new.status ≠ .pending :=
    ⟨hclaim.trans hclaimed, by rwa [hnew]⟩
  cases h with
  | kept l new hnew hclaim => exact moved hnew hclaim hstatus
  | claimed w' locked new hpc hold => exact absurd hold hstatus
  | started w' new hpc hnew hclaim => exact moved hnew hclaim nofun
  | pausedItself w' world phase new hpc htype hnew hclaim => exact moved hnew hclaim nofun
  | recorded w' result seen cycleSeen runSeen new hpc hnew hclaim =>
    exact moved hnew hclaim (outcomeStatus_ne_pending result seen)
  | requeued w' stale row new hpc hrow hcount =>
    exact absurd hw (hok j (.reclaim w' stale row hpc hrow hcount) w)
  | exhausted w' stale row new hpc hrow hcount hnew hclaim =>
    rcases hclaim with hclaim | ⟨row', hrow', hcount'⟩
    · exact moved hnew hclaim nofun
    · exact absurd hw (hok j (.reclaim w' stale row' hpc hrow' hcount') w)
  | answered q body seen new hpc hanswer =>
    cases hanswer with
    | cancelJob row new hrow hseen hnew hclaim => exact moved hnew hclaim nofun
    | pauseJob row new hrow hseen hnew hclaim => exact moved hnew hclaim nofun
    | resumeJob row new hrow hseen => exact absurd hw (hok j (.resumeJob q seen row hpc hrow hseen) w)
    | resumeGate c new hseen => exact absurd hw (hok j (.resumeGate q seen c hpc hseen) w)
    | cancelRun r run new hrun hallowed hold hr hnew hclaim => exact moved hnew hclaim nofun
    | pauseRun r run new hrun hallowed hold hr hnew hclaim => exact moved hnew hclaim nofun
    | stopLoop c new hold hc hnew hclaim => exact moved hnew hclaim nofun

theorem step_job? (h : Step settings sys l sys') (hw : (sys'.workers w).job? = some j) :
    (sys.workers w).job? = some j ∨
      ∃ locked, l = .claim w locked ∧ nextJob sys.db locked = some j ∧
        sys'.db = claimJob sys.db j w := by
  by_cases hl : l.worker? = some w
  case neg =>
    rw [step_other_worker h hl] at hw
    exact .inl hw
  cases h with
  | tick | receive | respond | reject | drop => exact absurd hl nofun
  | heartbeat => exact .inl hw
  | claim w' locked k hpc hk =>
    obtain rfl := Option.some.inj hl
    rw [Runtime.moveWorker_self] at hw
    obtain rfl := Option.some.inj hw
    exact .inr ⟨locked, rfl, hk, rfl⟩
  | start w' k hpc | readOutcome w' k result job hpc | readFailure w' k result seen job hpc
  | readNoPatch w' k result seen job hpc | readPatch w' k result seen job cycle target hpc =>
    obtain rfl := Option.some.inj hl
    rw [Runtime.moveWorker_self] at hw
    left
    rw [hpc]
    exact hw
  | exec w' world k phase job txn next hpc =>
    obtain rfl := Option.some.inj hl
    rw [Runtime.moveWorker_self] at hw
    left
    rw [hpc]
    cases next with
    | suspend phase' => exact hw
    | finish result => exact hw
  | acknowledge w' | raisePatch w' | writeOutcome w' | crash w' | writeStale w' | readStale w' =>
    obtain rfl := Option.some.inj hl
    rw [Runtime.moveWorker_self] at hw
    exact absurd hw nofun

theorem leased_step (hinv : Leased sys) (hok : ReturnsUnheld settings sys l)
    (h : Step settings sys l sys') : Leased sys' := by
  intro w j hw
  rcases step_job? h hw with hheld | ⟨locked, -, hj, hdb⟩
  · obtain ⟨old, hold, hclaimed, hstatus⟩ := hinv w j hheld
    obtain ⟨new, hnew, -, hchange⟩ := step_row h hold
    obtain ⟨hclaimed', hstatus'⟩ := jobChange_leased hchange hok hheld hclaimed hstatus
    exact ⟨new, hnew, hclaimed', hstatus'⟩
  · obtain ⟨old, hold, -⟩ := nextJob_pending _ _ hj
    refine ⟨{ old with status := .claimed, claimedBy := some w, claimedAt := some sys.db.now }, ?_,
      rfl, nofun⟩
    rw [hdb, claimJob, updateJob_jobs, Table.getElem?_update_self, hold]
    rfl

theorem leased_run {start : Runtime} (hstart : start.Initial)
    (h : Reaches (ReturnsUnheld settings) (Runtime.step settings) start sys) : Leased sys := by
  refine h.invariant Leased (fun _ _ _ hinv hok hstep => leased_step hinv hok (step_cases hstep)) ?_
  intro w j hw
  rw [hstart.workers] at hw
  exact absurd hw nofun

/-- When held jobs are never returned to the queue, an outcome and the state patch that goes with
it are written by the claimant of the job, and nobody holds a job that waits in the queue. -/
theorem outcome_from_claimant {settings : Settings} {start sys : Runtime} (hstart : start.Initial)
    (hrun : Reaches (ReturnsUnheld settings) (Runtime.step settings) start sys) :
    (∀ w j result seen cycleSeen runSeen,
      sys.workers w = .recording j result seen cycleSeen runSeen →
        ∃ job, sys.db.jobs[j]? = some job ∧ job.claimedBy = some w ∧ job.status ≠ .pending) ∧
      ∀ j, sys.db.jobStatus? j = some .pending → ∀ w, (sys.workers w).job? ≠ some j := by
  have hleased := leased_run hstart hrun
  constructor
  · intro w j result seen cycleSeen runSeen hpc
    exact hleased w j (by rw [hpc]; rfl)
  · intro j hpending w hw
    obtain ⟨job, hjob, -, hstatus⟩ := hleased w j hw
    rw [Db.jobStatus?, hjob] at hpending
    exact hstatus (Option.some.inj hpending)

def heldByPair (sys : Runtime) (j : JobId) : Bool :=
  (sys.workers 0).job? == some j || (sys.workers 1).job? == some j

/-- Workers 0 and 1 take steps, and what returns to the queue is held by neither. -/
def pairLabel (sys : Runtime) (l : Label) : Bool :=
  l.worker?.all (· < 2) &&
    match l with
    | .writeStale w =>
      match sys.workers w with
      | .reclaiming stale => stale.all fun (j, _) => !heldByPair sys j
      | _ => true
    | .respond q =>
      match sys.requests q with
      | .opened (.resumeJob j) _ => !heldByPair sys j
      | .opened (.resumeGate _) _ => false
      | _ => true
    | _ => true

theorem unheld_of_pair (hpair : sys.PairOnly) (h : heldByPair sys j = false) (w : WorkerId) :
    (sys.workers w).job? ≠ some j := by
  simp only [heldByPair, Bool.or_eq_false_iff, beq_eq_false_iff_ne] at h
  match w with
  | 0 => exact h.1
  | 1 => exact h.2
  | w + 2 =>
    rw [hpair (w + 2) (Nat.le_add_left 2 w)]
    exact nofun

theorem returnsUnheld_of_pair (hpair : sys.PairOnly) (h : pairLabel sys l = true) :
    ReturnsUnheld settings sys l := by
  intro j hreturns
  apply unheld_of_pair hpair
  cases hreturns with
  | reclaim w stale row hpc hrow =>
    simp only [pairLabel, hpc, Bool.and_eq_true, List.all_eq_true, Bool.not_eq_true'] at h
    exact h.2 (j, row) hrow
  | resumeJob q seen row hpc =>
    simp only [pairLabel, hpc, Bool.and_eq_true, Bool.not_eq_true'] at h
    exact h.2
  | resumeGate q seen c hpc =>
    simp only [pairLabel, hpc, Bool.and_false, Bool.false_eq_true] at h

/-- Worker `w` is about to write an outcome of job 0, which `claimant` has claimed. -/
def records (w claimant : WorkerId) (sys : Runtime) : Bool :=
  match sys.workers w with
  | .recording 0 _ _ _ _ => (sys.db.jobs[0]?.bind Job.claimedBy) == some claimant
  | _ => false

/-- A worker crashes while it executes a job; another one reclaims the job, is interrupted by a
pause and a resume of it, and takes it through to its outcome. -/
theorem outcome_from_claimant_reclaimed : ∃ start sys : Runtime, start.Initial ∧
    Reaches (ReturnsUnheld {}) (Runtime.step {}) start sys ∧ records 1 1 sys = true ∧
    ∀ w j result seen cycleSeen runSeen,
      sys.workers w = .recording j result seen cycleSeen runSeen →
        ∃ job, sys.db.jobs[j]? = some job ∧ job.claimedBy = some w ∧ job.status ≠ .pending := by
  obtain ⟨sys, hrun, -, htest⟩ := Reaches.of_perform_any Runtime.PairOnly
    (fun _ _ hpair hl => returnsUnheld_of_pair hpair hl)
    (fun _ _ _ hpair hl hstep => hpair.step (Bool.and_eq_true_iff.mp hl).1 hstep)
    (fun w _ => Runtime.newCycle_initial.workers w)
    (show (perform pairLabel (Runtime.step {}) Runtime.newCycle
      [.receive 0 (.startDiscovery 0), .respond 0, .claim 0 [], .start 0, .crash 0,
        .tick 120000001, .readStale 1, .writeStale 1, .receive 0 (.pauseJob 0), .respond 0,
        .receive 0 (.resumeJob 0), .respond 0, .claim 1 [], .start 1, .exec 1 {},
        .readOutcome 1, .readTarget 1]).any (records 1 1) = true by decide +kernel)
  exact ⟨Runtime.newCycle, sys, Runtime.newCycle_initial, hrun, htest,
    (outcome_from_claimant Runtime.newCycle_initial hrun).1⟩

/-- A slow worker's job is reclaimed and claimed by another worker; the first worker then records
its outcome. -/
theorem outcome_from_reclaimed_worker : ∃ start sys : Runtime, start.Initial ∧
    Reaches Unguarded (Runtime.step {}) start sys ∧ records 0 1 sys = true := by
  obtain ⟨sys, hrun, htest⟩ := Runtime.run_of_anyone
    (show (perform Runtime.anyone (Runtime.step {}) Runtime.newCycle
      [.receive 0 (.startDiscovery 0), .respond 0, .claim 0 [], .start 0, .tick 120000001,
        .readStale 1, .writeStale 1, .claim 1 [], .exec 0 {}, .readOutcome 0,
        .readTarget 0]).any (records 0 1) = true by decide +kernel)
  exact ⟨Runtime.newCycle, sys, Runtime.newCycle_initial, hrun, htest⟩

end Synthetos.Jobs
