import Synthetos.Cycles.Ownership
import Synthetos.Cycles.Transitions

/-!
# Turns

The pipeline of a cycle moves by turns: a worker has the turn from its claim until the status patch
of its job is applied.
-/

namespace Synthetos.Cycles

open Synthetos.Core Storage Lib Worker Api Jobs

/-- The job an operator has returned from, with its result. -/
def outcomeOf : WorkerPc → Option (JobId × OperatorResult)
  | .returned j result | .outcome j result _ | .recording j result _ _ _ => some (j, result)
  | .idle | .claimed _ | .executing _ _ | .reclaiming _ | .stopped => none

/-- Worker `w` has still to patch cycle `c` with status `t`. -/
structure Owes (sys : Runtime) (w : WorkerId) (c : CycleId) (t : CycleStatus) : Prop where
  job : ∃ j result job, outcomeOf (sys.workers w) = some (j, result) ∧
    sys.db.jobs[j]? = some job ∧ Staged c job ∧ patchOf result = some t

/-- Worker `w` has the turn in cycle `c`. -/
inductive Busy (sys : Runtime) (w : WorkerId) (c : CycleId) : Prop where
  | works (j : JobId) (job : Job) (hworks : Works j (sys.workers w))
      (hj : sys.db.jobs[j]? = some job) (hjob : Staged c job)
  | owes (t : CycleStatus) (howes : Owes sys w c t)

/-- Nobody has the turn in cycle `c`, and no job waits, or the request cancels those that do. -/
structure Undisturbed (sys : Runtime) (q : Nat) (c : CycleId) : Prop where
  quiet : ∀ w, ¬ Busy sys w c
  waiting : (∃ seen, sys.requests q = .opened (.stopLoop c) seen) ∨
    ∀ (j : JobId) (job : Job), sys.db.jobs[j]? = some job → Staged c job → job.status ≠ .pending

structure InTurn (settings : Settings) (sys : Runtime) (l : Label) : Prop where
  /-- A job is claimed when the patches of its cycle are applied. -/
  claim : ∀ w locked j (job : Job) c, l = .claim w locked → nextJob sys.db locked = some j →
    sys.db.jobs[j]? = some job → Staged c job → ∀ w' t, ¬ Owes sys w' c t
  /-- A job is returned to the queue when it is the last of its cycle, nobody has the turn and the
  cycle is in the status the job works in. -/
  requeue : ∀ (j : JobId) (job : Job) c (cycle : ResearchCycle), Returns settings sys j l →
    sys.db.jobs[j]? = some job → Staged c job → sys.db.cycles[c]? = some cycle →
      Newest sys.db.jobs (Staged c) j ∧ stage job = some cycle.status ∧ ∀ w, ¬ Busy sys w c
  /-- No patch is lost in a crash or with the outcome of a cancelled job. -/
  crash : ∀ w, l = .crash w → ∀ c t, ¬ Owes sys w c t
  cancelled : ∀ w j result (job : Job), l = .readOutcome w → sys.workers w = .returned j result →
    sys.db.jobs[j]? = some job → job.status = .cancelled → ∀ c t, ¬ Owes sys w c t
  /-- A request writes the status of a cycle that is undisturbed and has the status it read. -/
  write : ∀ q c seen target, l = .respond q → CycleWrite sys l c seen target →
    Undisturbed sys q c ∧ sys.db.cycleStatus? c = some seen
  /-- A request adds a job to a cycle that is undisturbed, and in the status the job works in or
  moved there by the request. -/
  add : ∀ q (new : Job) c (cycle : ResearchCycle), l = .respond q → Born sys l new →
    Staged c new → sys.db.cycles[c]? = some cycle → Undisturbed sys q c ∧
      ((stage new = some cycle.status ∧ ∀ seen target, CycleWrite sys l c seen target → seen = target) ∨
        ∃ seen target, CycleWrite sys l c seen target ∧ stage new = some target)
  ungated : ∀ w world j phase (job : Job), l = .exec w world →
    sys.workers w = .executing j phase → sys.db.jobs[j]? = some job →
      Ungated sys.db (operatorInput j job) phase

/-- The jobs and patches of every cycle follow its status. -/
structure InStep (sys : Runtime) : Prop where
  owned : Owned sys
  staged : ∀ w j result (job : Job) t, outcomeOf (sys.workers w) = some (j, result) →
    sys.db.jobs[j]? = some job → patchOf result = some t → ∃ s, stage job = some s
  pending : ∀ (j : JobId) (job : Job) c, sys.db.jobs[j]? = some job → Staged c job →
    job.status = .pending → Newest sys.db.jobs (Staged c) j
  working : ∀ w j (job : Job) c, Works j (sys.workers w) → sys.db.jobs[j]? = some job →
    Staged c job → Newest sys.db.jobs (Staged c) j ∧ job.status ≠ .pending
  alone : ∀ w w' c, Busy sys w c → Busy sys w' c → w = w'
  waiting : ∀ (j : JobId) (job : Job) c (cycle : ResearchCycle), sys.db.jobs[j]? = some job →
    Staged c job → job.status = .pending → sys.db.cycles[c]? = some cycle →
      (∀ w t, Owes sys w c t → stage job = some t) ∧
        ((∀ w t, ¬ Owes sys w c t) → stage job = some cycle.status)
  atWork : ∀ w j (job : Job) c (cycle : ResearchCycle), Works j (sys.workers w) →
    sys.db.jobs[j]? = some job → Staged c job → sys.db.cycles[c]? = some cycle →
      stage job = some cycle.status
  owed : ∀ w c t (cycle : ResearchCycle), Owes sys w c t → sys.db.cycles[c]? = some cycle →
    validTransition cycle.status t = true
  recorded : ∀ w j result status cycleSeen runSeen (job : Job) c t (cycle : ResearchCycle),
    sys.workers w = .recording j result status cycleSeen runSeen → sys.db.jobs[j]? = some job →
      job.cycleId = some c → patchOf result = some t → sys.db.cycles[c]? = some cycle →
        cycleSeen = some cycle.status

variable {settings : Settings} {sys sys' : Runtime} {l : Label} {c : CycleId} {j k : JobId}
  {w : WorkerId} {t : CycleStatus} {job old new : Job} {result : OperatorResult} {q : Nat}
  {cycle now : ResearchCycle}

theorem Owes.not_works (howes : Owes sys w c t) : ¬ Works j (sys.workers w) := by
  obtain ⟨k, result, job, hpc, -⟩ := howes.job
  intro hworks
  cases hworks' : sys.workers w <;> rw [hworks'] at hpc hworks
  case claimed | executing => exact absurd hpc nofun
  all_goals exact absurd hworks nofun

theorem job?_of_outcome {pc : WorkerPc} (h : outcomeOf pc = some (j, result)) :
    pc.job? = some j := by
  cases pc
  case returned | outcome | recording =>
    obtain ⟨rfl, -⟩ := Prod.mk.inj (Option.some.inj h)
    rfl
  all_goals exact absurd h nofun

theorem step_outcome (h : Step settings sys l sys')
    (hpc : outcomeOf (sys'.workers w) = some (j, result)) :
    outcomeOf (sys.workers w) = some (j, result) ∨ ∃ world phase job txn, l = .exec w world ∧
      sys.workers w = .executing j phase ∧ sys.db.jobs[j]? = some job ∧
      execute sys.db (operatorInput j job) phase world = (txn, .finish result) := by
  by_cases hl : l.worker? = some w
  case neg => exact .inl (step_other_worker h hl ▸ hpc)
  cases h with
  | heartbeat => exact .inl hpc
  | readOutcome w' m result' job hpc' | readFailure w' m result' seen job hpc'
  | readNoPatch w' m result' seen job hpc' | readPatch w' m result' seen job cycle target hpc' =>
    obtain rfl := Option.some.inj hl
    rw [Runtime.moveWorker_self] at hpc
    exact .inl (by rw [hpc']; exact hpc)
  | exec w' world m phase job txn next hpc' hm hout =>
    obtain rfl := Option.some.inj hl
    rw [Runtime.moveWorker_self] at hpc
    cases next with
    | suspend phase' => exact absurd hpc nofun
    | finish result' =>
      obtain ⟨rfl, rfl⟩ := Prod.mk.inj (Option.some.inj hpc)
      exact .inr ⟨world, phase, job, txn, rfl, hpc', hm, hout⟩
  | tick | receive | respond | reject | drop => exact absurd hl nofun
  | claim w' | start w' | acknowledge w' | raisePatch w' | writeOutcome w' | readStale w'
  | writeStale w' | crash w' =>
    obtain rfl := Option.some.inj hl
    rw [Runtime.moveWorker_self] at hpc
    exact absurd hpc nofun

theorem staged_before {new old : Job} (h : Step settings sys l sys') (hj : sys'.db.jobs[j]? = some new)
    (hnew : Staged c new) (hold : sys.db.jobs[j]? = some old) : Staged c old := by
  obtain ⟨row, hrow, hsame⟩ := (step_grows h).jobs j old hold
  obtain rfl := Option.some.inj (hj.symm.trans hrow)
  exact (staged_fixed c old new hsame).mp hnew

theorem step_owes (howned : Owned sys) (h : Step settings sys l sys') (howes : Owes sys' w c t) :
    Owes sys w c t ∨ ∃ world phase j job txn result, l = .exec w world ∧
      sys.workers w = .executing j phase ∧ sys.db.jobs[j]? = some job ∧
      execute sys.db (operatorInput j job) phase world = (txn, .finish result) ∧
      Staged c job ∧ patchOf result = some t := by
  obtain ⟨j, result, new, hpc, hj, hnew, ht⟩ := howes.job
  have later {old : Job} (hold : sys.db.jobs[j]? = some old) : Staged c old :=
    staged_before h hj hnew hold
  rcases step_outcome h hpc with hbefore | ⟨world, phase, job, txn, hl, hpc', hm, hout⟩
  · obtain ⟨old, hold⟩ := howned.rows w j (job?_of_outcome hbefore)
    exact .inl ⟨j, result, old, hbefore, hold, later hold, ht⟩
  · exact .inr ⟨world, phase, j, job, txn, result, hl, hpc', hm, hout, later hm, ht⟩

theorem step_busy (howned : Owned sys) (h : Step settings sys l sys') (hbusy : Busy sys' w c) :
    Busy sys w c ∨ ∃ locked j job, l = .claim w locked ∧ nextJob sys.db locked = some j ∧
      sys.db.jobs[j]? = some job ∧ Staged c job := by
  cases hbusy with
  | works j new hworks hj hjob =>
    have later {old : Job} (hold : sys.db.jobs[j]? = some old) : Staged c old :=
      staged_before h hj hjob hold
    rcases step_works h hworks with hbefore | ⟨locked, hl, hnext, -⟩
    · obtain ⟨old, hold⟩ := howned.rows w j hbefore.job?
      exact .inl (.works j old hbefore hold (later hold))
    · obtain ⟨old, hold, -⟩ := nextJob_pending _ _ hnext
      exact .inr ⟨locked, j, old, hl, hnext, hold, later hold⟩
  | owes t howes =>
    rcases step_owes howned h howes with hbefore | ⟨world, phase, m, job, txn, result, -, hpc, hm,
      hout, hjob, ht⟩
    · exact .inl (.owes t hbefore)
    · refine .inl (.works m job ?_ hm hjob)
      rw [hpc]
      exact .executing phase

/-- A write of a status either applies the patch of the worker that has the turn, or comes from a
request while nobody has it. -/
theorem write_turn {seen target : CycleStatus} (hinv : InStep sys) (hok : InTurn settings sys l)
    (hwrite : CycleWrite sys l c seen target) (hc : sys.db.cycles[c]? = some cycle) :
    cycle.status = seen ∧ ((∃ w, l = .writeOutcome w ∧ Owes sys w c target) ∨
      ∃ q, l = .respond q ∧ Undisturbed sys q c) := by
  have request {q : Nat} (hl : l = .respond q) (hwrite : CycleWrite sys l c seen target) :
      cycle.status = seen ∧ ((∃ w, l = .writeOutcome w ∧ Owes sys w c target) ∨
        ∃ q, l = .respond q ∧ Undisturbed sys q c) := by
    obtain ⟨hquiet, hseen⟩ := hok.write q c seen target hl hwrite
    rw [Db.cycleStatus?, hc] at hseen
    exact ⟨Option.some.inj hseen, .inr ⟨q, hl, hquiet⟩⟩
  have hwrite' := hwrite
  cases hwrite with
  | patch w j result status job c seen target runSeen hpc hj hresult hpatch hjc =>
    have ht : patchOf result = some target := by
      rw [patchOf, if_pos hresult, hpatch]
    have hfresh := hinv.recorded w j result status _ runSeen job c target cycle hpc hj hjc ht hc
    have houtcome : outcomeOf (sys.workers w) = some (j, result) := by
      rw [hpc]
      rfl
    have hstaged := hinv.staged w j result job target houtcome hj ht
    exact ⟨(Option.some.inj hfresh).symm,
      .inl ⟨w, rfl, j, result, job, houtcome, hj, ⟨hjc, hstaged⟩, ht⟩⟩
  | transitionCycle q | startAnalysis q | startRun q | control q | stopLoop q =>
    exact request rfl hwrite'

theorem step_status (hinv : InStep sys) (hok : InTurn settings sys l) (h : Step settings sys l sys')
    (hc : sys.db.cycles[c]? = some cycle) (hnow : sys'.db.cycles[c]? = some now) :
    now.status = cycle.status ∨ (∃ w, l = .writeOutcome w ∧ Owes sys w c now.status) ∨
      (∃ q seen, l = .respond q ∧ Undisturbed sys q c ∧ CycleWrite sys l c seen now.status) := by
  obtain ⟨row, hrow, -, hchange⟩ := step_cycle h hc
  obtain rfl := Option.some.inj (hnow.symm.trans hrow)
  rcases hchange with hkept | ⟨seen, target, hwrite, hstatus⟩
  · exact .inl hkept
  · obtain ⟨hfresh, hturn⟩ := write_turn hinv hok hwrite hc
    rw [ormSet_of_eq hfresh] at hstatus
    subst hstatus
    rcases hturn with ⟨w, hl, howes⟩ | ⟨q, hl, hquiet⟩
    · exact .inr (.inl ⟨w, hl, howes⟩)
    · exact .inr (.inr ⟨q, seen, hl, hquiet, hwrite⟩)

end Synthetos.Cycles
