import Synthetos.Storage.Session

/-!
# Job service

The writes of the job queue.  Apart from the claim, each names its row by id and writes without
looking at the row's status.
-/

namespace Synthetos.Core

open Storage Lib

def updateJob (db : Db) (j : JobId) (f : Job → Job) : Db :=
  { db with jobs := Table.update db.jobs j f }

def emit (db : Db) (events : List DomainEvent) : Db := { db with events := db.events ++ events }

/-- Pending jobs no other transaction has locked, in creation order. -/
def claimable (db : Db) (locked : List JobId) : List JobId :=
  (List.range db.jobs.length).filter fun j =>
    (db.jobs[j]?.any fun job => job.status == .pending) && !locked.contains j

def priorityOf (db : Db) (j : JobId) : Int := (db.jobs[j]?.map Job.priority).getD 0

/-- `ORDER BY priority DESC, created_at LIMIT 1` -/
def firstByPriority (db : Db) : List JobId → Option JobId
  | [] => none
  | j :: rest =>
    match firstByPriority db rest with
    | none => some j
    | some k => if priorityOf db k ≤ priorityOf db j then some j else some k

/-- The job `claim_job` selects, `SKIP LOCKED`. -/
def nextJob (db : Db) (locked : List JobId) : Option JobId :=
  firstByPriority db (claimable db locked)

def claimJob (db : Db) (j : JobId) (worker : WorkerId) : Db :=
  updateJob db j fun job =>
    { job with status := .claimed, claimedBy := some worker, claimedAt := some db.now }

def startJob (db : Db) (j : JobId) : Db :=
  emit (updateJob db j fun job => { job with status := .running }) [.jobStarted j]

def completeJob (db : Db) (j : JobId) : Db :=
  updateJob db j fun job => { job with status := .completed, completedAt := some db.now }

def failJob (db : Db) (j : JobId) (error : String) : Db :=
  updateJob db j fun job =>
    { job with status := .failed, error := some error, completedAt := some db.now }

def heartbeatJob (db : Db) (j : JobId) : Db :=
  updateJob db j fun job => { job with heartbeatAt := some db.now }

def pauseJob (db : Db) (j : JobId) : Db :=
  updateJob db j fun job => { job with status := .paused }

/-- Write back an attribute of a loaded row: only a changed attribute is written. -/
def ormSet {α : Type} [DecidableEq α] (seen new current : α) : α :=
  if seen = new then current else new

/-- No sign of life for `timeout`: by heartbeat, or by claim when there was none yet. -/
def isStale (now : Timestamp) (timeout : Nat) (job : Job) : Bool :=
  (job.status == .claimed || job.status == .running) &&
    match job.heartbeatAt with
    | none => job.claimedAt.any fun at' => decide (at' + timeout < now)
    | some at' => decide (at' + timeout < now)

def staleJobs (db : Db) (timeout : Nat) : List (JobId × Job) :=
  (db.jobs.zipIdx.filter fun row => isStale db.now timeout row.1).map fun row => (row.2, row.1)

/-- Return a stale job to the queue, or fail it after `maxReclaims` reclaims; `seen` is the row
the pass selected. -/
def reclaimJob (maxReclaims : Nat) (db : Db) (j : JobId) (seen : Job) : Db :=
  let nextCount := seen.reclaimCount + 1
  if maxReclaims < nextCount then
    emit (updateJob db j fun job =>
        { job with
          status := .failed
          error := some s!"reclaim_exhausted after {seen.reclaimCount} reclaims"
          completedAt := some db.now })
      [.jobReclaimExhausted j seen.reclaimCount]
  else
    emit (updateJob db j fun job =>
        { job with
          status := .pending
          claimedBy := ormSet seen.claimedBy none job.claimedBy
          claimedAt := ormSet seen.claimedAt none job.claimedAt
          heartbeatAt := ormSet seen.heartbeatAt none job.heartbeatAt
          reclaimCount := nextCount })
      [.jobReclaimed j nextCount]

/-- The write half of `reclaim_stale_jobs`. -/
def reclaimStaleJobs (maxReclaims : Nat) (db : Db) (stale : List (JobId × Job)) : Db :=
  stale.foldl (fun db row => reclaimJob maxReclaims db row.1 row.2) db

section Rows

variable (db : Db) (j k : JobId) (w : WorkerId) (f : Job → Job) (events : List DomainEvent)

@[simp] theorem emit_jobs : (emit db events).jobs = db.jobs := rfl
@[simp] theorem emit_runs : (emit db events).runs = db.runs := rfl
@[simp] theorem emit_cycles : (emit db events).cycles = db.cycles := rfl
@[simp] theorem updateJob_jobs : (updateJob db j f).jobs = Table.update db.jobs j f := rfl
@[simp] theorem updateJob_runs : (updateJob db j f).runs = db.runs := rfl
@[simp] theorem updateJob_cycles : (updateJob db j f).cycles = db.cycles := rfl

@[simp] theorem claimJob_runs : (claimJob db j w).runs = db.runs := rfl
@[simp] theorem claimJob_cycles : (claimJob db j w).cycles = db.cycles := rfl
@[simp] theorem startJob_runs : (startJob db j).runs = db.runs := rfl
@[simp] theorem startJob_cycles : (startJob db j).cycles = db.cycles := rfl
@[simp] theorem heartbeatJob_runs : (heartbeatJob db j).runs = db.runs := rfl
@[simp] theorem heartbeatJob_cycles : (heartbeatJob db j).cycles = db.cycles := rfl

theorem nextJob_pending {locked : List JobId} (h : nextJob db locked = some j) :
    ∃ job, db.jobs[j]? = some job ∧ job.status = .pending := by
  have hmem : ∀ (js : List JobId) (j : JobId), firstByPriority db js = some j → j ∈ js := by
    intro js
    induction js with
    | nil =>
      intro j h
      exact absurd h nofun
    | cons head rest ih =>
      intro j h
      unfold firstByPriority at h
      split at h
      · obtain rfl := Option.some.inj h
        exact List.mem_cons_self
      · rename_i k hk
        split at h
        · obtain rfl := Option.some.inj h
          exact List.mem_cons_self
        · obtain rfl := Option.some.inj h
          exact List.mem_cons_of_mem _ (ih _ hk)
  have hclaimable := List.mem_filter.mp (hmem _ j h)
  have hrow := hclaimable.2
  rw [Bool.and_eq_true, Option.any_eq_true] at hrow
  obtain ⟨job, hjob, hpending⟩ := hrow.1
  exact ⟨job, hjob, by simpa using hpending⟩

end Rows

end Synthetos.Core
