import Synthetos.Jobs.Passes
import Synthetos.Runtime.Solo

/-!
# Stale-job recovery

The queue is observed together with the signs of life of the current claims and the number of
times each job was found stale.  While claims take only jobs without a heartbeat, the timestamps
of a row are never older than its claim's last sign of life.
-/

namespace Synthetos.Jobs

open Synthetos.Core Storage Lib Worker Api

structure Observed where
  sys : Runtime
  /-- The last claim of a job, or the last heartbeat of its claimant since. -/
  life : JobId → Option Timestamp
  /-- How often a pass found a job stale. -/
  found : JobId → Nat

def lifeAfter (o : Observed) : Label → JobId → Option Timestamp
  | .claim _ locked =>
    match nextJob o.sys.db locked with
    | some j => Function.update o.life j (some o.sys.db.now)
    | none => o.life
  | .heartbeat w =>
    match (o.sys.workers w).job? with
    | some j =>
      if o.sys.db.jobs[j]?.bind Job.claimedBy = some w then
        Function.update o.life j (some o.sys.db.now)
      else o.life
    | none => o.life
  | _ => o.life

def foundAfter (o : Observed) : Label → JobId → Nat
  | .writeStale w =>
    match o.sys.workers w with
    | .reclaiming stale => fun j => o.found j + (stale.map Prod.fst).count j
    | _ => o.found
  | _ => o.found

def Observed.step (settings : Settings) (o : Observed) (l : Label) : Option Observed :=
  (Runtime.step settings o.sys l).map fun sys => ⟨sys, lifeAfter o l, foundAfter o l⟩

/-- Claims, starts, heartbeats and reclaim passes, and what makes a worker fall silent. -/
def recovers : Label → Bool
  | .tick _ | .claim _ _ | .start _ | .heartbeat _ | .readStale _ | .writeStale _ | .crash _ => true
  | _ => false

/-- Apart from a start, nothing happened to the row since the pass selected it. -/
def StillSelected (db : Db) (entry : JobId × Job) : Prop :=
  ∃ status, (status = .claimed ∨ status = .running) ∧
    db.jobs[entry.1]? = some { entry.2 with status := status }

structure Recovers (o : Observed) (l : Label) : Prop where
  label : recovers l = true
  claim : ∀ w locked j (job : Job), l = .claim w locked → nextJob o.sys.db locked = some j →
    o.sys.db.jobs[j]? = some job → job.heartbeatAt = none
  start : ∀ w j (job : Job), l = .start w → o.sys.workers w = .claimed j →
    o.sys.db.jobs[j]? = some job → job.status ≠ .failed
  pass : ∀ w stale, l = .writeStale w → o.sys.workers w = .reclaiming stale →
    ∀ entry ∈ stale, StillSelected o.sys.db entry

/-- A job table as the recovery left it: no pass is open, no row shows less than the last sign of
life of its claim, and each row counts how often its job was found stale. -/
structure Starts (settings : Settings) (o : Observed) : Prop where
  passes : ∀ w stale, o.sys.workers w ≠ .reclaiming stale
  past : ∀ j lived, o.life j = some lived → lived ≤ o.sys.db.now
  signs : ∀ j (job : Job) lived shown, o.sys.db.jobs[j]? = some job → o.life j = some lived →
    shownAt job = some shown → lived ≤ shown
  counts : ∀ j (job : Job), o.sys.db.jobs[j]? = some job →
    job.reclaimCount ≤ settings.maxReclaims ∧ o.found j = job.reclaimCount

/-- How often a job was found stale, by its row. -/
def Counts (maxReclaims found : Nat) (job : Job) : Prop :=
  job.reclaimCount ≤ maxReclaims ∧ (found = job.reclaimCount ∨
    found = maxReclaims + 1 ∧ job.reclaimCount = maxReclaims ∧ job.status = .failed)

structure Consistent (settings : Settings) (o : Observed) : Prop where
  past : ∀ j lived, o.life j = some lived → lived ≤ o.sys.db.now
  signs : ∀ j (job : Job) lived shown, o.sys.db.jobs[j]? = some job → o.life j = some lived →
    shownAt job = some shown → lived ≤ shown
  counts : ∀ j (job : Job), o.sys.db.jobs[j]? = some job →
    Counts settings.maxReclaims (o.found j) job
  selected : ∀ w stale, o.sys.workers w = .reclaiming stale →
    (stale.map Prod.fst).Nodup ∧
      ∀ entry ∈ stale, isStale o.sys.db.now settings.heartbeatTimeout entry.2 = true

/-- What a pass makes of a job it finds stale for the `found`-th time. -/
def Outcome (maxReclaims found : Nat) (new : Job) : Prop :=
  (found ≤ maxReclaims ∧ new.status = .pending ∧ new.claimedBy = none ∧ new.claimedAt = none ∧
    new.heartbeatAt = none ∧ new.reclaimCount = found) ∨
  (found = maxReclaims + 1 ∧ new.status = .failed)

variable {settings : Settings} {o o' start : Observed} {l : Label} {j k : JobId}
  {old new seen : Job} {w : WorkerId} {stale : List (JobId × Job)}

theorem Starts.consistent (h : Starts settings o) : Consistent settings o where
  past := h.past
  signs := h.signs
  counts j job hj := ⟨(h.counts j job hj).1, .inl (h.counts j job hj).2⟩
  selected w stale hpc := absurd hpc (h.passes w stale)

/-! ### A pass -/

theorem reclaimed_cleared (now : Timestamp) (status : JobStatus)
    (hcount : seen.reclaimCount + 1 ≤ settings.maxReclaims) :
    let new := reclaimed settings.maxReclaims now seen { seen with status }
    new.status = .pending ∧ new.claimedBy = none ∧ new.claimedAt = none ∧
      new.heartbeatAt = none ∧ new.reclaimCount = seen.reclaimCount + 1 := by
  have cleared {α : Type} [DecidableEq α] (value : Option α) : ormSet value none value = none := by
    unfold ormSet
    split <;> first | assumption | rfl
  dsimp only
  rw [reclaimed, if_neg (by omega)]
  exact ⟨rfl, cleared _, cleared _, cleared _, rfl⟩

theorem pass_outcome (hinv : Consistent settings o) (hpc : o.sys.workers w = .reclaiming stale)
    (hpass : ∀ entry ∈ stale, StillSelected o.sys.db entry) (hmem : (k, seen) ∈ stale)
    (hold : o.sys.db.jobs[k]? = some old) :
    let new := reclaimed settings.maxReclaims o.sys.db.now seen old
    Held old ∧ shownAt old = shownAt seen ∧
      isStale o.sys.db.now settings.heartbeatTimeout old = true ∧
      o.found k = old.reclaimCount ∧ Outcome settings.maxReclaims (o.found k + 1) new ∧
      Counts settings.maxReclaims (o.found k + 1) new ∧
      (shownAt new = none ∨ shownAt new = shownAt old) := by
  obtain ⟨status, hheld, hrow⟩ := hpass _ hmem
  obtain rfl := Option.some.inj (hold.symm.trans hrow)
  obtain ⟨-, hstale⟩ := hinv.selected w stale hpc
  obtain ⟨-, shown, hshown, hlt⟩ := isStale_iff.mp (hstale _ hmem)
  obtain ⟨hle, hcount⟩ := hinv.counts k _ hold
  have hfound : o.found k = seen.reclaimCount := by
    rcases hcount with hcount | ⟨-, -, hfailed⟩
    · exact hcount
    · rcases hheld with rfl | rfl <;> exact absurd hfailed nofun
  refine ⟨hheld, rfl, isStale_iff.mpr ⟨hheld, shown, hshown, hlt⟩, hfound, ?_⟩
  change seen.reclaimCount ≤ settings.maxReclaims at hle
  by_cases hmax : seen.reclaimCount + 1 ≤ settings.maxReclaims
  · obtain ⟨hpending, hclaimant, hclaim, hheartbeat, hreclaims⟩ :=
      reclaimed_cleared o.sys.db.now status hmax
    rw [hfound]
    refine ⟨.inl ⟨hmax, hpending, hclaimant, hclaim, hheartbeat, hreclaims⟩,
      ⟨hreclaims ▸ hmax, .inl hreclaims.symm⟩, .inl ?_⟩
    rw [shownAt, hheartbeat]
    exact hclaim
  · have hlast : seen.reclaimCount = settings.maxReclaims := by omega
    have hcount : seen.reclaimCount + 1 = settings.maxReclaims + 1 := congrArg (· + 1) hlast
    rw [reclaimed, if_pos (by omega), hfound]
    exact ⟨.inr ⟨hcount, rfl⟩, ⟨hle, .inr ⟨hcount, hlast, rfl⟩⟩, .inr rfl⟩

/-! ### Steps -/

theorem selected_other {db : Db} {pc : WorkerPc} (hinv : Consistent settings o) {w' : WorkerId}
    (hpc : (o.sys.moveWorker w db pc).workers w' = .reclaiming stale)
    (hother : ∀ stale, pc ≠ .reclaiming stale) :
    (stale.map Prod.fst).Nodup ∧
      ∀ entry ∈ stale, isStale o.sys.db.now settings.heartbeatTimeout entry.2 = true := by
  rw [Runtime.moveWorker_workers] at hpc
  split at hpc
  · exact absurd hpc (hother stale)
  · exact hinv.selected w' stale hpc

theorem counts_moved {maxReclaims found : Nat} {job : Job} (h : Counts maxReclaims found job)
    (hstatus : job.status ≠ .failed) (new : Job) (hsame : new.reclaimCount = job.reclaimCount) :
    Counts maxReclaims found new := by
  obtain ⟨hle, hcount⟩ := h
  rcases hcount with hcount | ⟨-, -, hfailed⟩
  · exact ⟨hsame.le.trans hle, .inl (hcount.trans hsame.symm)⟩
  · exact absurd hfailed hstatus

theorem claim_consistent (hinv : Consistent settings o) {locked : List JobId}
    (hj : nextJob o.sys.db locked = some j)
    (hfresh : ∀ job, o.sys.db.jobs[j]? = some job → job.heartbeatAt = none) :
    Consistent settings ⟨o.sys.moveWorker w (claimJob o.sys.db j w) (.claimed j),
      lifeAfter o (.claim w locked), o.found⟩ := by
  have hlife : lifeAfter o (.claim w locked) = Function.update o.life j (some o.sys.db.now) := by
    rw [lifeAfter, hj]
  obtain ⟨row, hrow, hpending⟩ := nextJob_pending _ _ hj
  rw [hlife]
  constructor
  · intro k lived hlived
    dsimp only at hlived
    rw [Function.update_apply] at hlived
    split at hlived
    · exact (Option.some.inj hlived).symm.le
    · exact hinv.past k lived hlived
  · intro k new lived shown hnew hlived hshown
    dsimp only at hlived
    rw [Function.update_apply] at hlived
    obtain ⟨old, hold, rfl⟩ := Table.exists_of_getElem?_update hnew
    by_cases hk : j = k
    · subst hk
      rw [if_pos rfl] at hshown hlived
      rw [shownAt, hfresh old hold] at hshown
      obtain rfl := Option.some.inj hlived
      obtain rfl := Option.some.inj hshown
      exact Nat.le_refl _
    · rw [if_neg hk] at hshown
      rw [if_neg fun h => hk h.symm] at hlived
      exact hinv.signs k old lived shown hold hlived hshown
  · intro k new hnew
    obtain ⟨old, hold, rfl⟩ := Table.exists_of_getElem?_update hnew
    split
    · rename_i hk
      subst hk
      obtain rfl := Option.some.inj (hrow.symm.trans hold)
      exact counts_moved (hinv.counts j row hold) (by rw [hpending]; decide) _ rfl
    · exact hinv.counts k old hold
  · intro w' stale hpc
    have hselected := selected_other hinv hpc fun _ => nofun
    exact hselected

theorem start_consistent (hinv : Consistent settings o)
    (hopen : ∀ job, o.sys.db.jobs[j]? = some job → job.status ≠ .failed) :
    Consistent settings ⟨o.sys.moveWorker w (startJob o.sys.db j) (.executing j .start),
      o.life, o.found⟩ := by
  constructor
  · exact hinv.past
  · intro k new lived shown hnew hlived hshown
    obtain ⟨old, hold, rfl⟩ := Table.exists_of_getElem?_update hnew
    split at hshown <;> exact hinv.signs k old lived shown hold hlived hshown
  · intro k new hnew
    obtain ⟨old, hold, rfl⟩ := Table.exists_of_getElem?_update hnew
    split
    · rename_i hk
      subst hk
      exact counts_moved (hinv.counts j old hold) (hopen old hold) _ rfl
    · exact hinv.counts k old hold
  · intro w' stale hpc
    have hselected := selected_other hinv hpc fun _ => nofun
    exact hselected

theorem heartbeat_consistent (hinv : Consistent settings o)
    (hpc : (o.sys.workers w).job? = some j) :
    Consistent settings ⟨{ o.sys with db := heartbeatJob o.sys.db j },
      lifeAfter o (.heartbeat w), o.found⟩ := by
  have hlife : lifeAfter o (.heartbeat w) = o.life ∨
      lifeAfter o (.heartbeat w) = Function.update o.life j (some o.sys.db.now) := by
    rw [lifeAfter, hpc]
    dsimp only
    split
    · exact .inr rfl
    · exact .inl rfl
  have hpast (k : JobId) (lived : Timestamp) (hlived : lifeAfter o (.heartbeat w) k = some lived) :
      lived ≤ o.sys.db.now := by
    rcases hlife with hold | hnew
    · rw [hold] at hlived
      exact hinv.past k lived hlived
    · rw [hnew, Function.update_apply] at hlived
      split at hlived
      · exact (Option.some.inj hlived).symm.le
      · exact hinv.past k lived hlived
  have hother (k : JobId) (hk : j ≠ k) : lifeAfter o (.heartbeat w) k = o.life k := by
    rcases hlife with hold | hnew
    · rw [hold]
    · rw [hnew, Function.update_of_ne fun h => hk h.symm]
  constructor
  · exact hpast
  · intro k new lived shown hnew hlived hshown
    obtain ⟨old, hold, rfl⟩ := Table.exists_of_getElem?_update hnew
    by_cases hk : j = k
    · rw [if_pos hk] at hshown
      obtain rfl := Option.some.inj hshown
      exact hpast k lived hlived
    · rw [if_neg hk] at hshown
      exact hinv.signs k old lived shown hold ((hother k hk).symm.trans hlived) hshown
  · intro k new hnew
    obtain ⟨old, hold, rfl⟩ := Table.exists_of_getElem?_update hnew
    split <;> exact hinv.counts k old hold
  · exact hinv.selected

theorem pass_row (hinv : Consistent settings o) (hpc : o.sys.workers w = .reclaiming stale)
    (hpass : ∀ entry ∈ stale, StillSelected o.sys.db entry)
    (hnew : (reclaimStaleJobs settings.maxReclaims o.sys.db stale).jobs[k]? = some new) :
    (o.sys.db.jobs[k]? = some new ∧ foundAfter o (.writeStale w) k = o.found k) ∨
      ∃ old seen, (k, seen) ∈ stale ∧ o.sys.db.jobs[k]? = some old ∧
        new = reclaimed settings.maxReclaims o.sys.db.now seen old ∧
        foundAfter o (.writeStale w) k = o.found k + 1 := by
  obtain ⟨hnodup, -⟩ := hinv.selected w stale hpc
  have hfound : foundAfter o (.writeStale w) k =
      o.found k + (stale.map Prod.fst).count k := by rw [foundAfter, hpc]
  by_cases hk : k ∈ stale.map Prod.fst
  · obtain ⟨⟨j, seen⟩, hmem, rfl⟩ := List.mem_map.mp hk
    obtain ⟨status, -, hold⟩ := hpass _ hmem
    rw [pass_selected hnodup hmem hold] at hnew
    refine .inr ⟨_, seen, hmem, hold, (Option.some.inj hnew).symm, ?_⟩
    rw [hfound, List.count_eq_one_of_mem hnodup hk]
  · rw [pass_other hk] at hnew
    exact .inl ⟨hnew, by rw [hfound, List.count_eq_zero.mpr hk]; rfl⟩

theorem pass_consistent (hinv : Consistent settings o) (hpc : o.sys.workers w = .reclaiming stale)
    (hpass : ∀ entry ∈ stale, StillSelected o.sys.db entry) :
    Consistent settings
      ⟨o.sys.moveWorker w (reclaimStaleJobs settings.maxReclaims o.sys.db stale) .idle,
        o.life, foundAfter o (.writeStale w)⟩ := by
  have hnow := reclaimStaleJobs_now settings.maxReclaims o.sys.db stale
  constructor
  · intro k lived hlived
    rw [Runtime.moveWorker_db, hnow]
    exact hinv.past k lived hlived
  · intro k new lived shown hnew hlived hshown
    rcases pass_row hinv hpc hpass hnew with ⟨hold, -⟩ | ⟨old, seen, hmem, hold, rfl, -⟩
    · exact hinv.signs k new lived shown hold hlived hshown
    · obtain ⟨-, -, -, -, -, -, hshows⟩ := pass_outcome hinv hpc hpass hmem hold
      rcases hshows with hnone | hsame
      · exact absurd (hnone.symm.trans hshown) nofun
      · exact hinv.signs k old lived shown hold hlived (hsame.symm.trans hshown)
  · intro k new hnew
    dsimp only
    rcases pass_row hinv hpc hpass hnew with ⟨hold, hcount⟩ | ⟨old, seen, hmem, hold, rfl, hcount⟩
    · rw [hcount]
      exact hinv.counts k new hold
    · rw [hcount]
      obtain ⟨-, -, -, -, -, hcounts, -⟩ := pass_outcome hinv hpc hpass hmem hold
      exact hcounts
  · intro w' stale' hpc'
    rw [Runtime.moveWorker_db, hnow]
    exact selected_other hinv hpc' fun _ => nofun

theorem consistent_step (hinv : Consistent settings o) (hok : Recovers o l)
    (h : o.step settings l = some o') : Consistent settings o' := by
  obtain ⟨sys', hstep, rfl⟩ := Option.map_eq_some_iff.mp h
  have hlabel := hok.label
  cases step_cases hstep with
  | tick elapsed =>
    have hlater : o.sys.db.now ≤ o.sys.db.now + elapsed := Nat.le_add_right _ _
    refine ⟨fun j lived hlived => (hinv.past j lived hlived).trans hlater, hinv.signs, hinv.counts, ?_⟩
    intro w stale hpc
    obtain ⟨hnodup, hstale⟩ := hinv.selected w stale hpc
    exact ⟨hnodup, fun entry hentry => isStale_mono (hstale entry hentry) hlater⟩
  | claim w locked j hpc hj =>
    exact claim_consistent hinv hj fun job hjob => hok.claim w locked j job rfl hj hjob
  | start w j hpc => exact start_consistent hinv fun job hjob => hok.start w j job rfl hpc hjob
  | heartbeat w j hpc => exact heartbeat_consistent hinv hpc
  | readStale w hpc =>
    refine ⟨hinv.past, hinv.signs, hinv.counts, fun w' stale hpc' => ?_⟩
    change Function.update o.sys.workers w _ w' = _ at hpc'
    rw [Function.update_apply] at hpc'
    split at hpc'
    · obtain rfl := WorkerPc.reclaiming.inj hpc'
      exact ⟨staleJobs_nodup _ _, fun entry hentry => (mem_staleJobs.mp hentry).2⟩
    · exact hinv.selected w' stale hpc'
  | writeStale w stale hpc => exact pass_consistent hinv hpc (hok.pass w stale rfl hpc)
  | crash w =>
    refine ⟨hinv.past, hinv.signs, hinv.counts, fun w' stale hpc => ?_⟩
    have hselected := selected_other hinv hpc fun _ => nofun
    exact hselected
  | _ => exact absurd hlabel nofun

theorem consistent_run (hstart : Starts settings start)
    (hrun : Reaches Recovers (Observed.step settings) start o) : Consistent settings o :=
  hrun.invariant (Consistent settings) (fun _ _ _ hinv hok hstep => consistent_step hinv hok hstep)
    hstart.consistent

theorem pass_recovers (hinv : Consistent settings o) (hok : Recovers o (.writeStale w))
    (h : o.step settings (.writeStale w) = some o') (hold : o.sys.db.jobs[k]? = some old)
    (hnew : o'.sys.db.jobs[k]? = some new) :
    (new = old ∧ o'.found k = o.found k) ∨
      (Held old ∧
        (∀ lived, o.life k = some lived → lived + settings.heartbeatTimeout < o.sys.db.now) ∧
        o'.found k = o.found k + 1 ∧ Outcome settings.maxReclaims (o'.found k) new) := by
  obtain ⟨sys', hstep, rfl⟩ := Option.map_eq_some_iff.mp h
  cases step_cases hstep with
  | writeStale _ stale hpc =>
    have hpass := hok.pass w stale rfl hpc
    rcases pass_row hinv hpc hpass hnew with ⟨hsame, hcount⟩ | ⟨before, seen, hmem, hrow, rfl, hcount⟩
    · exact .inl ⟨Option.some.inj (hsame.symm.trans hold), hcount⟩
    · obtain rfl := Option.some.inj (hrow.symm.trans hold)
      obtain ⟨hheld, -, hstale, -, houtcome, -⟩ := pass_outcome hinv hpc hpass hmem hrow
      obtain ⟨-, shown, hshown, hlt⟩ := isStale_iff.mp hstale
      refine .inr ⟨hheld, fun lived hlived => ?_, hcount, ?_⟩
      · have hle := hinv.signs k before lived shown hrow hlived hshown
        exact Nat.lt_of_le_of_lt (Nat.add_le_add_right hle _) hlt
      · dsimp only
        rw [hcount]
        exact houtcome

theorem step_fails (hok : Recovers o l) (h : o.step settings l = some o')
    (hold : o.sys.db.jobs[k]? = some old) (hnew : o'.sys.db.jobs[k]? = some new)
    (hopen : old.status ≠ .failed) (hfailed : new.status = .failed) : ∃ w, l = .writeStale w := by
  obtain ⟨sys', hstep, rfl⟩ := Option.map_eq_some_iff.mp h
  have hlabel := hok.label
  have kept (hsame : o.sys.db.jobs[k]? = some new) : ∃ w, l = .writeStale w := by
    obtain rfl := Option.some.inj (hold.symm.trans hsame)
    exact absurd hfailed hopen
  have updated {j : JobId} {f : Job → Job}
      (hrow : (Table.update o.sys.db.jobs j f)[k]? = some new)
      (hstatus : ∀ job, (f job).status ≠ .failed ∨ (f job).status = job.status) :
      ∃ w, l = .writeStale w := by
    obtain ⟨before, hbefore, rfl⟩ := Table.exists_of_getElem?_update hrow
    obtain rfl := Option.some.inj (hold.symm.trans hbefore)
    split at hfailed
    · rcases hstatus old with hne | hsame
      · exact absurd hfailed hne
      · exact absurd (hsame.symm.trans hfailed) hopen
    · exact absurd hfailed hopen
  cases step_cases hstep with
  | writeStale w => exact ⟨w, rfl⟩
  | tick | readStale | crash => exact kept hnew
  | claim => exact updated hnew fun _ => .inl nofun
  | start => exact updated hnew fun _ => .inl nofun
  | heartbeat => exact updated hnew fun _ => .inr rfl
  | _ => exact absurd hlabel nofun

/-- Where claims take only jobs without a heartbeat, nothing overtakes a pass and failed jobs are
not started, a pass touches only jobs that were silent for the whole timeout: it returns them to
the queue the first `maxReclaims` times and fails them the next time, and nothing else fails a
job. -/
theorem stale_jobs_recovered {settings : Settings} {start o : Observed}
    (hstart : Starts settings start) (hrun : Reaches Recovers (Observed.step settings) start o) :
    (∀ (j : JobId) (job : Job), o.sys.db.jobs[j]? = some job →
      job.reclaimCount ≤ settings.maxReclaims) ∧
      (∀ w o', Recovers o (.writeStale w) → o.step settings (.writeStale w) = some o' →
        ∀ (k : JobId) (old new : Job), o.sys.db.jobs[k]? = some old → o'.sys.db.jobs[k]? = some new →
          (new = old ∧ o'.found k = o.found k) ∨
            ((old.status = .claimed ∨ old.status = .running) ∧
              (∀ lived, o.life k = some lived →
                lived + settings.heartbeatTimeout < o.sys.db.now) ∧
              o'.found k = o.found k + 1 ∧ Outcome settings.maxReclaims (o'.found k) new)) ∧
      ∀ l o', Recovers o l → o.step settings l = some o' →
        ∀ (k : JobId) (old new : Job), o.sys.db.jobs[k]? = some old → o'.sys.db.jobs[k]? = some new →
          old.status ≠ .failed → new.status = .failed → o'.found k = settings.maxReclaims + 1 := by
  have hinv := consistent_run hstart hrun
  refine ⟨fun j job hj => (hinv.counts j job hj).1, ?_, ?_⟩
  · intro w o' hok hstep k old new hold hnew
    exact pass_recovers hinv hok hstep hold hnew
  · intro l o' hok hstep k old new hold hnew hopen hfailed
    obtain ⟨w, rfl⟩ := step_fails hok hstep hold hnew hopen hfailed
    rcases pass_recovers hinv hok hstep hold hnew with ⟨rfl, -⟩ | ⟨-, -, -, houtcome⟩
    · exact absurd hfailed hopen
    · rcases houtcome with ⟨-, hpending, -⟩ | ⟨hlast, -⟩
      · rw [hpending] at hfailed
        exact absurd hfailed nofun
      · exact hlast

/-! ### Two passes -/

/-- A job worker 1 has claimed at time 0. -/
def lostJob (reclaims : Nat) : Job :=
  { cycleId := none, jobType := .executionRun, status := .running, claimedBy := some 1
    claimedAt := some 0, reclaimCount := reclaims, createdAt := 0 }

/-- Two lost jobs, one of them found stale three times before. -/
def lostJobs : Observed where
  sys := { db := { jobs := [lostJob 0, lostJob 3] } }
  life _ := some 0
  found j := if j = 0 then 0 else 3

theorem lostJobs_starts : Starts {} lostJobs where
  passes _ _ := nofun
  past _ _ hlived := (Option.some.inj hlived).symm.le
  signs j job lived shown _ hlived _ := by
    obtain rfl := Option.some.inj hlived
    exact Nat.zero_le shown
  counts j job hj := by
    rcases j with - | - | j
    · obtain rfl := Option.some.inj hj
      exact ⟨by decide, rfl⟩
    · obtain rfl := Option.some.inj hj
      exact ⟨by decide, rfl⟩
    · exact absurd hj nofun

theorem recovers_of_label (hlabel : recovers l = true) (hclaim : ∀ w locked, l ≠ .claim w locked)
    (hstart : ∀ w, l ≠ .start w) (hpass : ∀ w, l ≠ .writeStale w) : Recovers o l where
  label := hlabel
  claim w locked _ _ hl := absurd hl (hclaim w locked)
  start w _ _ hl := absurd hl (hstart w)
  pass w _ hl := absurd hl (hpass w)

/-- The pass after the timeout returns the first job to the queue and fails the second. -/
theorem stale_jobs_recovered_lost : ∃ o o' : Observed, ∃ first second : Job,
    Reaches Recovers (Observed.step {}) lostJobs o ∧
      o.step {} (.writeStale 0) = some o' ∧ o'.sys.db.jobs[0]? = some first ∧
      o'.sys.db.jobs[1]? = some second ∧ Outcome 3 1 first ∧ Outcome 3 4 second := by
  let stale := [(0, lostJob 0), (1, lostJob 3)]
  let late : Db := { now := 120000001, jobs := [lostJob 0, lostJob 3] }
  let o : Observed :=
    ⟨({ db := late } : Runtime).moveWorker 0 late (.reclaiming stale), lostJobs.life, lostJobs.found⟩
  have hrun : Reaches Recovers (Observed.step {}) lostJobs o :=
    ((Reaches.refl lostJobs).tail ⟨.tick 120000001,
      recovers_of_label rfl (fun _ _ => nofun) (fun _ => nofun) (fun _ => nofun), rfl⟩).tail
      ⟨.readStale 0,
        recovers_of_label rfl (fun _ _ => nofun) (fun _ => nofun) (fun _ => nofun), rfl⟩
  have hok : Recovers o (.writeStale 0) := by
    refine ⟨rfl, fun _ _ _ _ => nofun, fun _ _ _ => nofun, ?_⟩
    intro w opened hl hpc
    obtain rfl := Label.writeStale.inj hl
    obtain rfl := WorkerPc.reclaiming.inj hpc
    intro entry hentry
    simp only [stale, List.mem_cons, List.not_mem_nil, or_false] at hentry
    rcases hentry with rfl | rfl
    · exact ⟨.running, .inr rfl, rfl⟩
    · exact ⟨.running, .inr rfl, rfl⟩
  have hpass := (stale_jobs_recovered lostJobs_starts hrun).2.1 0 _ hok rfl
  refine ⟨o, _, _, _, hrun, rfl, rfl, rfl, ?_, ?_⟩
  · rcases hpass 0 _ _ rfl rfl with ⟨-, hsame⟩ | ⟨-, -, -, houtcome⟩
    · exact absurd hsame (by decide)
    · exact houtcome
  · rcases hpass 1 _ _ rfl rfl with ⟨-, hsame⟩ | ⟨-, -, -, houtcome⟩
    · exact absurd hsame (by decide)
    · exact houtcome

def pendingJob : Observed where
  sys := { db := { jobs := [{ cycleId := none, jobType := .executionRun, createdAt := 0 }] } }
  life _ := none
  found _ := 0

/-- Worker 1 loses the job and sends a late heartbeat; worker 2 claims it two minutes later, and the
pass takes the job from it at once. -/
def lateHeartbeat : List Label :=
  [.claim 1 [], .start 1, .tick 120000001, .readStale 0, .writeStale 0, .heartbeat 1,
    .tick 120000001, .claim 2 [], .readStale 0]

theorem fresh_claim_reclaimed : ∃ o o' : Observed, Starts {} pendingJob ∧
    Reaches (fun _ l => recovers l = true) (Observed.step {}) pendingJob o ∧
      o.step {} (.writeStale 0) = some o' ∧ o.sys.db.jobStatus? 0 = some .claimed ∧
      o'.sys.db.jobStatus? 0 = some .pending ∧ o.life 0 = some o.sys.db.now := by
  have hstart : Starts {} pendingJob := by
    refine ⟨fun _ _ => nofun, fun _ _ => nofun, fun _ _ _ _ _ => nofun, fun j job hj => ?_⟩
    rcases j with - | j
    · obtain rfl := Option.some.inj hj
      exact ⟨Nat.zero_le _, rfl⟩
    · exact absurd hj nofun
  obtain ⟨o, hrun, -, htest⟩ := Reaches.of_perform_any (fun _ => True) (fun _ _ _ h => h)
    (fun _ _ _ _ _ _ => trivial) trivial
    (show (perform (fun _ l => recovers l) (Observed.step {}) pendingJob lateHeartbeat).any (fun o =>
      o.sys.db.jobStatus? 0 == some .claimed && o.life 0 == some o.sys.db.now &&
        (o.step {} (.writeStale 0)).any fun o' => o'.sys.db.jobStatus? 0 == some .pending) = true
      by decide +kernel)
  simp only [Bool.and_eq_true, beq_iff_eq] at htest
  obtain ⟨⟨hclaimed, hlife⟩, hstep⟩ := htest
  obtain ⟨o', hstep, hpending⟩ := (Option.any_eq_true _ _).mp hstep
  exact ⟨o, o', hstart, hrun, hstep, hclaimed, beq_iff_eq.mp hpending, hlife⟩

end Synthetos.Jobs
