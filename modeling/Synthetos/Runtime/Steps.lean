import Synthetos.Api.Answers
import Synthetos.Runtime.Defs

/-!
# What a step can do

`Step` lists the transitions of the system with the facts that enable them; `step_cases` turns an
enabled label into its transition, so that no later proof unfolds the step function.
-/

namespace Synthetos

open Synthetos.Core Storage Lib Worker Api

namespace Runtime

variable (sys : Runtime) (w w' : WorkerId) (q q' : Nat) (db : Db) (pc : WorkerPc) (rpc : RequestPc)

@[simp] theorem moveWorker_db : (sys.moveWorker w db pc).db = db := rfl
@[simp] theorem moveWorker_requests : (sys.moveWorker w db pc).requests = sys.requests := rfl
@[simp] theorem moveRequest_db : (sys.moveRequest q db rpc).db = db := rfl
@[simp] theorem moveRequest_workers : (sys.moveRequest q db rpc).workers = sys.workers := rfl

@[simp] theorem moveWorker_self : (sys.moveWorker w db pc).workers w = pc := by
  simp [moveWorker]

theorem moveWorker_workers :
    (sys.moveWorker w db pc).workers w' = if w' = w then pc else sys.workers w' := by
  simp [moveWorker, Function.update_apply]

theorem moveRequest_requests :
    (sys.moveRequest q db rpc).requests q' = if q' = q then rpc else sys.requests q' := by
  simp [moveRequest, Function.update_apply]

end Runtime

/-- The transitions of the system. -/
inductive Step (settings : Settings) (sys : Runtime) : Label → Runtime → Prop where
  | tick (elapsed : Nat) :
      Step settings sys (.tick elapsed)
        { sys with db := { sys.db with now := sys.db.now + elapsed } }
  | claim (w : WorkerId) (locked : List JobId) (j : JobId) (hpc : sys.workers w = .idle)
      (hj : nextJob sys.db locked = some j) :
      Step settings sys (.claim w locked)
        (sys.moveWorker w (claimJob sys.db j w) (.claimed j))
  | start (w : WorkerId) (j : JobId) (hpc : sys.workers w = .claimed j) :
      Step settings sys (.start w) (sys.moveWorker w (startJob sys.db j) (.executing j .start))
  | exec (w : WorkerId) (world : External) (j : JobId) (phase : Phase) (job : Job) (txn : Txn)
      (next : Next) (hpc : sys.workers w = .executing j phase) (hj : sys.db.jobs[j]? = some job)
      (hout : execute sys.db (operatorInput j job) phase world = (txn, next)) :
      Step settings sys (.exec w world)
        (sys.moveWorker w (sys.db.commit txn) (Runtime.afterExec j next))
  | acknowledge (w : WorkerId) (j : JobId) (result : OperatorResult) (job : Job)
      (hpc : sys.workers w = .returned j result) (hj : sys.db.jobs[j]? = some job)
      (hstatus : job.status = .cancelled) :
      Step settings sys (.readOutcome w)
        (sys.moveWorker w (emit sys.db [.jobCancelledAcknowledged j]) .idle)
  | readOutcome (w : WorkerId) (j : JobId) (result : OperatorResult) (job : Job)
      (hpc : sys.workers w = .returned j result) (hj : sys.db.jobs[j]? = some job)
      (hstatus : job.status ≠ .cancelled) :
      Step settings sys (.readOutcome w)
        (sys.moveWorker w sys.db (.outcome j result job.status))
  | readFailure (w : WorkerId) (j : JobId) (result : OperatorResult) (seen : JobStatus) (job : Job)
      (hpc : sys.workers w = .outcome j result seen) (hj : sys.db.jobs[j]? = some job)
      (hresult : result.success = false) :
      Step settings sys (.readTarget w)
        (sys.moveWorker w sys.db (.recording j result seen none (failureTarget sys.db job)))
  | readNoPatch (w : WorkerId) (j : JobId) (result : OperatorResult) (seen : JobStatus) (job : Job)
      (hpc : sys.workers w = .outcome j result seen) (hj : sys.db.jobs[j]? = some job)
      (hresult : result.success = true) (hpatch : patchTarget sys.db job result = none) :
      Step settings sys (.readTarget w)
        (sys.moveWorker w sys.db (.recording j result seen none none))
  | readPatch (w : WorkerId) (j : JobId) (result : OperatorResult) (seen : JobStatus) (job : Job)
      (cycle : ResearchCycle) (target : CycleStatus)
      (hpc : sys.workers w = .outcome j result seen) (hj : sys.db.jobs[j]? = some job)
      (hresult : result.success = true)
      (hpatch : patchTarget sys.db job result = some (cycle, target))
      (hvalid : validTransition cycle.status target = true) :
      Step settings sys (.readTarget w)
        (sys.moveWorker w sys.db (.recording j result seen (some cycle.status) none))
  | raisePatch (w : WorkerId) (j : JobId) (result : OperatorResult) (seen : JobStatus) (job : Job)
      (cycle : ResearchCycle) (target : CycleStatus)
      (hpc : sys.workers w = .outcome j result seen) (hj : sys.db.jobs[j]? = some job)
      (hresult : result.success = true)
      (hpatch : patchTarget sys.db job result = some (cycle, target))
      (hvalid : validTransition cycle.status target = false) :
      Step settings sys (.readTarget w) (sys.moveWorker w sys.db .stopped)
  | writeOutcome (w : WorkerId) (j : JobId) (result : OperatorResult) (seen : JobStatus)
      (cycleSeen : Option CycleStatus) (runSeen : Option RunStatus) (job : Job)
      (hpc : sys.workers w = .recording j result seen cycleSeen runSeen)
      (hj : sys.db.jobs[j]? = some job) :
      Step settings sys (.writeOutcome w)
        (sys.moveWorker w
          (Worker.writeOutcome sys.db j job result seen cycleSeen runSeen) .idle)
  | heartbeat (w : WorkerId) (j : JobId) (hpc : (sys.workers w).job? = some j) :
      Step settings sys (.heartbeat w) { sys with db := heartbeatJob sys.db j }
  | readStale (w : WorkerId) (hpc : sys.workers w = .idle) :
      Step settings sys (.readStale w)
        (sys.moveWorker w sys.db (.reclaiming (staleJobs sys.db settings.heartbeatTimeout)))
  | writeStale (w : WorkerId) (stale : List (JobId × Job))
      (hpc : sys.workers w = .reclaiming stale) :
      Step settings sys (.writeStale w)
        (sys.moveWorker w (reclaimStaleJobs settings.maxReclaims sys.db stale) .idle)
  | crash (w : WorkerId) :
      Step settings sys (.crash w) (sys.moveWorker w sys.db .stopped)
  | receive (q : Nat) (body : Request) (hpc : sys.requests q = .idle) :
      Step settings sys (.receive q body) (sys.moveRequest q sys.db (.opened body sys.db))
  | respond (q : Nat) (body : Request) (seen db : Db)
      (hpc : sys.requests q = .opened body seen) (hanswer : Responds seen sys.db body db) :
      Step settings sys (.respond q) (sys.moveRequest q db .idle)
  | reject (q : Nat) (body : Request) (seen : Db) (error : String)
      (hpc : sys.requests q = .opened body seen)
      (herror : Api.respond body seen sys.db = .error error) :
      Step settings sys (.respond q) (sys.moveRequest q sys.db .idle)
  | drop (q : Nat) :
      Step settings sys (.drop q) (sys.moveRequest q sys.db .idle)

variable {settings : Settings} {sys sys' : Runtime}

theorem step_readTarget {w : WorkerId} (h : sys.readTarget w = some sys') :
    Step settings sys (.readTarget w) sys' := by
  unfold Runtime.readTarget at h
  split at h
  · rename_i j result seen hpc
    obtain ⟨job, hj, rfl⟩ := Option.map_eq_some_iff.mp h
    by_cases hresult : result.success = true
    · rw [if_pos hresult]
      cases hpatch : patchTarget sys.db job result with
      | none => exact .readNoPatch w j result seen job hpc hj hresult hpatch
      | some found =>
        obtain ⟨cycle, target⟩ := found
        by_cases hvalid : validTransition cycle.status target = true
        · simp only [hvalid, if_true]
          exact .readPatch w j result seen job cycle target hpc hj hresult hpatch hvalid
        · simp only [hvalid, Bool.false_eq_true, if_false]
          exact .raisePatch w j result seen job cycle target hpc hj hresult hpatch
            (by simpa using hvalid)
    · rw [if_neg hresult]
      exact .readFailure w j result seen job hpc hj (by simpa using hresult)
  · exact absurd h nofun

theorem step_respond {q : Nat} (h : sys.respond q = some sys') :
    Step settings sys (.respond q) sys' := by
  unfold Runtime.respond at h
  split at h
  · exact absurd h nofun
  · rename_i body seen hpc
    cases hanswer : Api.respond body seen sys.db with
    | ok db =>
      rw [hanswer] at h
      obtain rfl := Option.some.inj h
      exact .respond q body seen db hpc (respond_cases hanswer)
    | error error =>
      rw [hanswer] at h
      obtain rfl := Option.some.inj h
      exact .reject q body seen error hpc hanswer

theorem step_cases {l : Label} (h : Runtime.step settings sys l = some sys') :
    Step settings sys l sys' := by
  cases l with
  | tick elapsed =>
    obtain rfl := Option.some.inj h
    exact .tick elapsed
  | claim w locked =>
    change sys.claim w locked = some sys' at h
    unfold Runtime.claim at h
    split at h
    · obtain ⟨j, hj, rfl⟩ := Option.map_eq_some_iff.mp h
      exact .claim w locked j ‹_› hj
    · exact absurd h nofun
  | start w =>
    change sys.start w = some sys' at h
    unfold Runtime.start at h
    split at h
    · obtain rfl := Option.some.inj h
      exact .start w _ ‹_›
    · exact absurd h nofun
  | exec w world =>
    change sys.exec w world = some sys' at h
    unfold Runtime.exec at h
    split at h
    · obtain ⟨job, hj, rfl⟩ := Option.map_eq_some_iff.mp h
      exact .exec w world _ _ job _ _ ‹_› hj rfl
    · exact absurd h nofun
  | readOutcome w =>
    change sys.readOutcome w = some sys' at h
    unfold Runtime.readOutcome at h
    split at h
    · obtain ⟨job, hj, rfl⟩ := Option.map_eq_some_iff.mp h
      split
      · exact .acknowledge w _ _ job ‹_› hj ‹_›
      · exact .readOutcome w _ _ job ‹_› hj ‹_›
    · exact absurd h nofun
  | readTarget w => exact step_readTarget h
  | writeOutcome w =>
    change sys.writeOutcome w = some sys' at h
    unfold Runtime.writeOutcome at h
    split at h
    · obtain ⟨job, hj, rfl⟩ := Option.map_eq_some_iff.mp h
      exact .writeOutcome w _ _ _ _ _ job ‹_› hj
    · exact absurd h nofun
  | heartbeat w =>
    change sys.heartbeat w = some sys' at h
    unfold Runtime.heartbeat at h
    split at h
    all_goals first
      | (rename_i hpc
         obtain rfl := Option.some.inj h
         exact .heartbeat w _ (by rw [hpc]; rfl))
      | exact absurd h nofun
  | readStale w =>
    change sys.readStale settings w = some sys' at h
    unfold Runtime.readStale at h
    split at h
    · obtain rfl := Option.some.inj h
      exact .readStale w ‹_›
    · exact absurd h nofun
  | writeStale w =>
    change sys.writeStale settings w = some sys' at h
    unfold Runtime.writeStale at h
    split at h
    · obtain rfl := Option.some.inj h
      exact .writeStale w _ ‹_›
    · exact absurd h nofun
  | crash w =>
    change sys.crash w = some sys' at h
    unfold Runtime.crash at h
    split at h
    · exact absurd h nofun
    · obtain rfl := Option.some.inj h
      exact .crash w
  | receive q body =>
    change sys.receive q body = some sys' at h
    unfold Runtime.receive at h
    split at h
    · obtain rfl := Option.some.inj h
      exact .receive q body ‹_›
    · exact absurd h nofun
  | respond q => exact step_respond h
  | drop q =>
    change sys.drop q = some sys' at h
    unfold Runtime.drop at h
    split at h
    · exact absurd h nofun
    · obtain rfl := Option.some.inj h
      exact .drop q

end Synthetos
