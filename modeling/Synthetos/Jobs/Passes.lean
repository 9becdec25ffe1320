import Synthetos.Runtime.Steps

/-!
# What a reclaim pass does to its rows

A pass writes each row it selected once and leaves the others alone.
-/

namespace Synthetos.Jobs

open Synthetos.Core Storage Lib

def shownAt (job : Job) : Option Timestamp :=
  match job.heartbeatAt with
  | some seen => some seen
  | none => job.claimedAt

def Held (job : Job) : Prop := job.status = .claimed ∨ job.status = .running

/-- The row a pass writes over `job`; `seen` is the row it selected. -/
def reclaimed (maxReclaims : Nat) (now : Timestamp) (seen job : Job) : Job :=
  if maxReclaims < seen.reclaimCount + 1 then
    { job with
      status := .failed
      error := some s!"reclaim_exhausted after {seen.reclaimCount} reclaims"
      completedAt := some now }
  else
    { job with
      status := .pending
      claimedBy := ormSet seen.claimedBy none job.claimedBy
      claimedAt := ormSet seen.claimedAt none job.claimedAt
      heartbeatAt := ormSet seen.heartbeatAt none job.heartbeatAt
      reclaimCount := seen.reclaimCount + 1 }

variable {db : Db} {timeout maxReclaims : Nat} {j k : JobId} {job seen old new : Job}
  {stale : List (JobId × Job)} {now later : Timestamp}

theorem isStale_iff : isStale now timeout job = true ↔
    Held job ∧ ∃ shown, shownAt job = some shown ∧ shown + timeout < now := by
  unfold isStale shownAt Held
  cases job.heartbeatAt <;> simp [Option.any_eq_true]

theorem isStale_mono (h : isStale now timeout job = true) (hle : now ≤ later) :
    isStale later timeout job = true := by
  obtain ⟨hheld, shown, hshown, hlt⟩ := isStale_iff.mp h
  exact isStale_iff.mpr ⟨hheld, shown, hshown, Nat.lt_of_lt_of_le hlt hle⟩

theorem mem_staleJobs : (j, job) ∈ staleJobs db timeout ↔
    db.jobs[j]? = some job ∧ isStale db.now timeout job = true := by
  unfold staleJobs
  rw [List.mem_map]
  constructor
  · rintro ⟨⟨row, k⟩, hrow, heq⟩
    obtain ⟨rfl, rfl⟩ := Prod.mk.inj heq
    obtain ⟨hmem, hstale⟩ := List.mem_filter.mp hrow
    exact ⟨List.mem_zipIdx_iff_getElem?.mp hmem, hstale⟩
  · rintro ⟨hrow, hstale⟩
    exact ⟨(job, j), List.mem_filter.mpr ⟨List.mem_zipIdx_iff_getElem?.mpr hrow, hstale⟩, rfl⟩

theorem staleJobs_nodup (db : Db) (timeout : Nat) :
    ((staleJobs db timeout).map Prod.fst).Nodup := by
  unfold staleJobs
  rw [List.map_map]
  have hindices : (db.jobs.zipIdx.map Prod.snd).Nodup := by
    rw [List.zipIdx_map_snd]
    exact List.nodup_range'
  exact hindices.sublist (List.filter_sublist.map _)

theorem reclaimJob_jobs (maxReclaims : Nat) (db : Db) (j : JobId) (seen : Job) :
    (reclaimJob maxReclaims db j seen).jobs =
      Table.update db.jobs j (reclaimed maxReclaims db.now seen) := by
  unfold reclaimJob
  dsimp only
  split
  · rename_i hcount
    refine congrArg (Table.update db.jobs j) (funext fun job => ?_)
    rw [reclaimed, if_pos hcount]
  · rename_i hcount
    refine congrArg (Table.update db.jobs j) (funext fun job => ?_)
    rw [reclaimed, if_neg hcount]

theorem reclaimJob_now (maxReclaims : Nat) (db : Db) (j : JobId) (seen : Job) :
    (reclaimJob maxReclaims db j seen).now = db.now := by
  unfold reclaimJob
  dsimp only
  split <;> rfl

theorem reclaimStaleJobs_now (maxReclaims : Nat) (db : Db) (stale : List (JobId × Job)) :
    (reclaimStaleJobs maxReclaims db stale).now = db.now := by
  induction stale generalizing db with
  | nil => rfl
  | cons entry rest ih => exact (ih _).trans (reclaimJob_now ..)

theorem pass_other (hk : k ∉ stale.map Prod.fst) :
    (reclaimStaleJobs maxReclaims db stale).jobs[k]? = db.jobs[k]? := by
  induction stale generalizing db with
  | nil => rfl
  | cons entry rest ih =>
    rw [List.map_cons, List.mem_cons, not_or] at hk
    refine (ih hk.2).trans ?_
    dsimp only
    rw [reclaimJob_jobs]
    exact Table.getElem?_update_ne fun h => hk.1 h.symm

theorem pass_selected (hnodup : (stale.map Prod.fst).Nodup) (hmem : (k, seen) ∈ stale)
    (hold : db.jobs[k]? = some old) :
    (reclaimStaleJobs maxReclaims db stale).jobs[k]? =
      some (reclaimed maxReclaims db.now seen old) := by
  induction stale generalizing db with
  | nil => exact absurd hmem List.not_mem_nil
  | cons entry rest ih =>
    rw [List.map_cons, List.nodup_cons] at hnodup
    rcases List.mem_cons.mp hmem with rfl | hrest
    · refine (pass_other hnodup.1).trans ?_
      dsimp only
      rw [reclaimJob_jobs, Table.getElem?_update_self, hold]
      rfl
    · have hne : entry.1 ≠ k := by
        intro heq
        have hin := List.mem_map_of_mem (f := Prod.fst) hrest
        rw [← heq] at hin
        exact hnodup.1 hin
      have hkept : (reclaimJob maxReclaims db entry.1 entry.2).jobs[k]? = some old := by
        rw [reclaimJob_jobs, Table.getElem?_update_ne hne, hold]
      have hnew := ih hnodup.2 hrest hkept
      rwa [reclaimJob_now] at hnew

end Synthetos.Jobs
