import Synthetos.Cycles.InStep

/-!
# Every step keeps the cycles in step
-/

namespace Synthetos.Cycles

open Synthetos.Core Storage Lib Worker Api Jobs

variable {settings : Settings} {start sys sys' : Runtime} {l : Label} {c : CycleId} {j : JobId}
  {w w' : WorkerId} {t : CycleStatus} {old new : Job} {result : OperatorResult}
  {cycle now : ResearchCycle}

theorem staged_old (hinv : InStep sys) (h : Step settings sys l sys')
    (hold : sys.db.jobs[j]? = some old) (hj : sys'.db.jobs[j]? = some new) (hnew : Staged c new) :
    Staged c old ∧ stage new = stage old ∧ JobChange settings sys j old l new ∧
      ∃ cycle, sys.db.cycles[c]? = some cycle := by
  obtain ⟨row, hrow, hsame, hchange⟩ := step_row h hold
  obtain rfl := Option.some.inj (hj.symm.trans hrow)
  have hstaged := (staged_fixed c old new hsame).mp hnew
  obtain ⟨s, hs⟩ := hstaged.stage
  obtain ⟨c', cycle, hc, hcycle⟩ := hinv.owned.cycle j old s hold hs
  obtain rfl := Option.some.inj (hstaged.cycle.symm.trans hc)
  exact ⟨hstaged, stage_of_same hsame, hchange, cycle, hcycle⟩

theorem status_of_busy (hinv : InStep sys) (hok : InTurn settings sys l)
    (h : Step settings sys l sys') (hbusy : Busy sys w c) (hc : sys.db.cycles[c]? = some cycle)
    (hnow : sys'.db.cycles[c]? = some now) (hl : l ≠ .writeOutcome w) :
    now.status = cycle.status := by
  rcases step_status hinv hok h hc hnow with hkept | ⟨w', hl', howes⟩ | ⟨q, seen, -, hquiet, -⟩
  · exact hkept
  · obtain rfl := hinv.alone w' w c (.owes _ howes) hbusy
    exact absurd hl' hl
  · exact absurd hbusy (hquiet.quiet w)

theorem keeps_staged {job : Job} (hinv : InStep sys) (h : Step settings sys l sys')
    (hpc : outcomeOf (sys'.workers w) = some (j, result)) (hj : sys'.db.jobs[j]? = some job)
    (ht : patchOf result = some t) : ∃ s, stage job = some s := by
  have later {old : Job} (hold : sys.db.jobs[j]? = some old) (hs : ∃ s, stage old = some s) :
      ∃ s, stage job = some s := by
    obtain ⟨row, hrow, hsame⟩ := (step_grows h).jobs j old hold
    obtain rfl := Option.some.inj (hj.symm.trans hrow)
    rwa [stage_of_same hsame]
  rcases step_outcome h hpc with hbefore | ⟨world, phase, old, txn, -, -, hold, hout⟩
  · obtain ⟨old, hold⟩ := hinv.owned.rows w j (job?_of_outcome hbefore)
    exact later hold (hinv.staged w j result old t hbefore hold ht)
  · exact later hold (exit_patch_staged (execute_exit hout) ht)

theorem keeps_newest (hinv : InStep sys) (hok : InTurn settings sys l)
    (h : Step settings sys l sys') (hold : sys.db.jobs[j]? = some old)
    (hj : sys'.db.jobs[j]? = some new) (hnew : Staged c new)
    (hlive : new.status = .pending ∨ ∃ w, Works j (sys'.workers w))
    (hnewest : Newest sys.db.jobs (Staged c) j) : Newest sys'.db.jobs (Staged c) j := by
  refine newest_step (staged_fixed c) h hnewest fun row hrow _ hstaged => ?_
  have hnone := List.getElem?_eq_none (Nat.le_refl sys.db.jobs.length)
  obtain ⟨hpending, hworks⟩ := new_staged_job hinv hok h hnone hrow hstaged hold hj hnew
  rcases hlive with hlive | ⟨w, hlive⟩
  · exact hpending hlive
  · exact hworks w hlive

theorem keeps_pending (hinv : InStep sys) (hok : InTurn settings sys l)
    (h : Step settings sys l sys') (hj : sys'.db.jobs[j]? = some new) (hnew : Staged c new)
    (hstatus : new.status = .pending) : Newest sys'.db.jobs (Staged c) j := by
  cases hold : sys.db.jobs[j]? with
  | none => exact newest_born h hold hj
  | some old =>
    obtain ⟨hstaged, -, hchange, cycle, hc⟩ := staged_old hinv h hold hj hnew
    refine keeps_newest hinv hok h hold hj hnew (.inl hstatus) ?_
    rcases jobChange_pending hchange hstatus with hpending | hreturns
    · exact hinv.pending j old c hold hstaged hpending
    · exact (hok.requeue j old c cycle hreturns hold hstaged hc).1

theorem works_before (hinv : InStep sys) (h : Step settings sys l sys')
    (hw : Works j (sys'.workers w)) (hj : sys'.db.jobs[j]? = some new) (hnew : Staged c new) :
    ∃ old, sys.db.jobs[j]? = some old ∧ Staged c old ∧ (Works j (sys.workers w) ∨
      ∃ locked, l = .claim w locked ∧ nextJob sys.db locked = some j ∧ old.status = .pending ∧
        new.status = .claimed) := by
  rcases step_works h hw with hbefore | ⟨locked, hl, hnext, hdb⟩
  · obtain ⟨old, hold⟩ := hinv.owned.rows w j hbefore.job?
    exact ⟨old, hold, (staged_old hinv h hold hj hnew).1, .inl hbefore⟩
  · obtain ⟨old, hold, hpending⟩ := nextJob_pending _ _ hnext
    refine ⟨old, hold, (staged_old hinv h hold hj hnew).1, .inr ⟨locked, hl, hnext, hpending, ?_⟩⟩
    rw [hdb, claimJob, updateJob_jobs, Table.getElem?_update_self, hold] at hj
    obtain rfl := Option.some.inj hj
    rfl

theorem keeps_working (hinv : InStep sys) (hok : InTurn settings sys l)
    (h : Step settings sys l sys') (hw : Works j (sys'.workers w))
    (hj : sys'.db.jobs[j]? = some new) (hnew : Staged c new) :
    Newest sys'.db.jobs (Staged c) j ∧ new.status ≠ .pending := by
  obtain ⟨old, hold, hstaged, hbefore⟩ := works_before hinv h hw hj hnew
  obtain ⟨-, -, hchange, cycle, hc⟩ := staged_old hinv h hold hj hnew
  have kept := keeps_newest hinv hok h hold hj hnew (.inr ⟨w, hw⟩)
  rcases hbefore with hbefore | ⟨locked, -, -, hpending, hclaimed⟩
  · obtain ⟨hnewest, hstatus⟩ := hinv.working w j old c hbefore hold hstaged
    refine ⟨kept hnewest, fun hpending => ?_⟩
    rcases jobChange_pending hchange hpending with hpending | hreturns
    · exact hstatus hpending
    · exact (hok.requeue j old c cycle hreturns hold hstaged hc).2.2 w (.works j old hbefore hold hstaged)
  · exact ⟨kept (hinv.pending j old c hold hstaged hpending), by rw [hclaimed]; exact nofun⟩

theorem claim_quiet {locked : List JobId} (hinv : InStep sys)
    (hok : InTurn settings sys (.claim w locked)) (hnext : nextJob sys.db locked = some j)
    (hold : sys.db.jobs[j]? = some old) (hstaged : Staged c old) (w' : WorkerId) :
    ¬ Busy sys w' c := by
  intro hbusy
  cases hbusy with
  | works k row hworks hk hrow =>
    obtain ⟨pending, hpending, hstatus⟩ := nextJob_pending _ _ hnext
    obtain rfl := Option.some.inj (hold.symm.trans hpending)
    have hlast := hinv.pending j old c hold hstaged hstatus
    obtain rfl := last_of_working hinv hworks hk hrow hold hstaged hlast
    exact (hinv.working w' j old c hworks hold hstaged).2 hstatus
  | owes t howes => exact hok.claim w locked j old c rfl hnext hold hstaged w' t howes

theorem keeps_alone (hinv : InStep sys) (hok : InTurn settings sys l)
    (h : Step settings sys l sys') (hbusy : Busy sys' w c) (hbusy' : Busy sys' w' c) : w = w' := by
  rcases step_busy hinv.owned h hbusy with hw | ⟨locked, j, job, rfl, hnext, hj, hjob⟩
  · rcases step_busy hinv.owned h hbusy' with hw' | ⟨locked, j, job, rfl, hnext, hj, hjob⟩
    · exact hinv.alone w w' c hw hw'
    · exact absurd hw (claim_quiet hinv hok hnext hj hjob w)
  · rcases step_busy hinv.owned h hbusy' with hw' | ⟨locked', j', job', hl, -⟩
    · exact absurd hw' (claim_quiet hinv hok hnext hj hjob w')
    · exact (Label.claim.inj hl).1

theorem keeps_atWork (hinv : InStep sys) (hok : InTurn settings sys l)
    (h : Step settings sys l sys') (hw : Works j (sys'.workers w))
    (hj : sys'.db.jobs[j]? = some new) (hnew : Staged c new)
    (hnow : sys'.db.cycles[c]? = some now) : stage new = some now.status := by
  obtain ⟨old, hold, hstaged, hbefore⟩ := works_before hinv h hw hj hnew
  obtain ⟨-, hstage, -, cycle, hc⟩ := staged_old hinv h hold hj hnew
  rw [hstage]
  rcases hbefore with hbefore | ⟨locked, rfl, hnext, hpending, -⟩
  · have hl : l ≠ .writeOutcome w := by
      rintro rfl
      cases h with
      | writeOutcome =>
        rw [Runtime.moveWorker_self] at hw
        exact absurd hw nofun
    rw [status_of_busy hinv hok h (.works j old hbefore hold hstaged) hc hnow hl]
    exact hinv.atWork w j old c cycle hbefore hold hstaged hc
  · have hquiet := claim_quiet hinv hok hnext hold hstaged
    have hsame : now.status = cycle.status := by
      rcases step_status hinv hok h hc hnow with hkept | ⟨w', hl, -⟩ | ⟨q, seen, hl, -⟩
      · exact hkept
      · exact absurd hl nofun
      · exact absurd hl nofun
    rw [hsame]
    exact (hinv.waiting j old c cycle hold hstaged hpending hc).2 fun w' t howes =>
      hquiet w' (.owes t howes)

theorem cycle_of_owes (hinv : InStep sys) (howes : Owes sys w c t) :
    ∃ cycle, sys.db.cycles[c]? = some cycle := by
  obtain ⟨j, result, job, -, hj, hjob, -⟩ := howes.job
  obtain ⟨s, hs⟩ := hjob.stage
  obtain ⟨c', cycle, hc, hcycle⟩ := hinv.owned.cycle j job s hj hs
  obtain rfl := Option.some.inj (hjob.cycle.symm.trans hc)
  exact ⟨cycle, hcycle⟩

theorem not_writeOutcome_of_owes (h : Step settings sys l sys') (howes : Owes sys' w c t) :
    l ≠ .writeOutcome w := by
  rintro rfl
  obtain ⟨j, result, job, hpc, -⟩ := howes.job
  cases h with
  | writeOutcome =>
    rw [Runtime.moveWorker_self] at hpc
    exact absurd hpc nofun

theorem status_of_exec {world : External} (hinv : InStep sys)
    (hok : InTurn settings sys (.exec w world)) (h : Step settings sys (.exec w world) sys')
    (hc : sys.db.cycles[c]? = some cycle) (hnow : sys'.db.cycles[c]? = some now) :
    now.status = cycle.status := by
  rcases step_status hinv hok h hc hnow with hkept | ⟨w', hl, -⟩ | ⟨q, seen, hl, -⟩
  · exact hkept
  · exact absurd hl nofun
  · exact absurd hl nofun

theorem keeps_owed (hinv : InStep sys) (hok : InTurn settings sys l)
    (h : Step settings sys l sys') (howes : Owes sys' w c t)
    (hnow : sys'.db.cycles[c]? = some now) : validTransition now.status t = true := by
  rcases step_owes hinv.owned h howes with hbefore | ⟨world, phase, m, job, txn, result, rfl, hpc, hm,
    hout, hjob, ht⟩
  · obtain ⟨cycle, hc⟩ := cycle_of_owes hinv hbefore
    rw [status_of_busy hinv hok h (.owes t hbefore) hc hnow (not_writeOutcome_of_owes h howes)]
    exact hinv.owed w c t cycle hbefore hc
  · obtain ⟨s, hs⟩ := hjob.stage
    obtain ⟨c', cycle, hjc, hc⟩ := hinv.owned.cycle m job s hm hs
    obtain rfl := Option.some.inj (hjob.cycle.symm.trans hjc)
    have hworks : Works m (sys.workers w) := by
      rw [hpc]
      exact .executing phase
    have hstage := hinv.atWork w m job c cycle hworks hm hjob hc
    obtain ⟨status, hstatus, hvalid⟩ := (exit_advances (execute_exit hout)
      (hinv.owned.input hpc hm hjob) (hok.ungated w world m phase job rfl hpc hm)).patch result t rfl ht
    obtain rfl := Option.some.inj (hstatus.symm.trans hstage)
    rwa [status_of_exec hinv hok h hc hnow]

theorem keeps_recorded {job : Job} {status : JobStatus} {cycleSeen : Option CycleStatus}
    {runSeen : Option RunStatus} (hinv : InStep sys) (hok : InTurn settings sys l)
    (h : Step settings sys l sys')
    (hpc : sys'.workers w = .recording j result status cycleSeen runSeen)
    (hj : sys'.db.jobs[j]? = some job) (hjc : job.cycleId = some c) (ht : patchOf result = some t)
    (hnow : sys'.db.cycles[c]? = some now) : cycleSeen = some now.status := by
  have houtcome : outcomeOf (sys'.workers w) = some (j, result) := by
    rw [hpc]
    rfl
  have hjob : Staged c job := ⟨hjc, keeps_staged hinv h houtcome hj ht⟩
  have howes : Owes sys' w c t := ⟨j, result, job, houtcome, hj, hjob, ht⟩
  have unmoved (hpc : sys.workers w = .recording j result status cycleSeen runSeen) :
      cycleSeen = some now.status := by
    have houtcome : outcomeOf (sys.workers w) = some (j, result) := by
      rw [hpc]
      rfl
    obtain ⟨old, hold⟩ := hinv.owned.rows w j (job?_of_outcome houtcome)
    obtain ⟨hstaged, -, -, cycle, hc⟩ := staged_old hinv h hold hj hjob
    have hbusy : Busy sys w c := .owes t ⟨j, result, old, houtcome, hold, hstaged, ht⟩
    rw [status_of_busy hinv hok h hbusy hc hnow (not_writeOutcome_of_owes h howes)]
    exact hinv.recorded w j result status cycleSeen runSeen old c t cycle hpc hold hstaged.cycle ht hc
  by_cases hl : l.worker? = some w
  case neg => exact unmoved (step_other_worker h hl ▸ hpc)
  revert unmoved
  cases h with
  | heartbeat => exact fun unmoved => unmoved hpc
  | readPatch w' m result' seen row cycle target hpc' hm hresult hpatch hvalid =>
    obtain rfl := Option.some.inj hl
    rw [Runtime.moveWorker_self] at hpc
    obtain ⟨rfl, rfl, rfl, rfl, rfl⟩ := WorkerPc.recording.inj hpc
    obtain ⟨-, c', hc', hrow⟩ := patchTarget_eq_some hpatch
    obtain rfl := Option.some.inj (hj.symm.trans hm)
    obtain rfl := Option.some.inj (hjc.symm.trans hc')
    obtain rfl := Option.some.inj (hnow.symm.trans hrow)
    exact fun _ => rfl
  | readNoPatch w' m result' seen row hpc' hm hresult hpatch =>
    obtain rfl := Option.some.inj hl
    rw [Runtime.moveWorker_self] at hpc
    obtain ⟨rfl, rfl, rfl, rfl, rfl⟩ := WorkerPc.recording.inj hpc
    obtain rfl := Option.some.inj (hj.symm.trans hm)
    rw [patchOf, if_pos hresult] at ht
    rw [Runtime.moveWorker_db] at hnow
    have hsome : patchTarget sys.db job result' = some (now, t) := by
      unfold patchTarget
      rw [ht, hjc]
      simp [hnow]
    exact absurd (hpatch.symm.trans hsome) fun h => by cases h
  | readFailure w' m result' seen row hpc' hm hresult =>
    obtain rfl := Option.some.inj hl
    rw [Runtime.moveWorker_self] at hpc
    obtain ⟨rfl, rfl, rfl, rfl, rfl⟩ := WorkerPc.recording.inj hpc
    rw [patchOf, hresult] at ht
    exact absurd ht fun h => by cases h
  | exec w' world m phase row txn next =>
    obtain rfl := Option.some.inj hl
    rw [Runtime.moveWorker_self] at hpc
    cases next <;> exact absurd hpc fun h => by cases h
  | tick | receive | respond | reject | drop => exact absurd hl fun h => by cases h
  | claim w' | start w' | acknowledge w' | readOutcome w' | raisePatch w' | writeOutcome w'
  | readStale w' | writeStale w' | crash w' =>
    obtain rfl := Option.some.inj hl
    rw [Runtime.moveWorker_self] at hpc
    exact absurd hpc fun h => by cases h

end Synthetos.Cycles
