import Synthetos.Cycles.KeepsStep

/-!
# Waiting jobs fit the status of their cycle

A waiting job works in the status the cycle has, or in the one an outstanding patch will give it.
-/

namespace Synthetos.Cycles

open Synthetos.Core Storage Lib Worker Api Jobs

variable {settings : Settings} {start sys sys' : Runtime} {l : Label} {c : CycleId} {j : JobId}
  {w w' : WorkerId} {t : CycleStatus} {old new job : Job} {result : OperatorResult} {q : Nat}
  {cycle now : ResearchCycle}

/-- The job fits the cycle: it works in the status the cycle has after its outstanding patches. -/
def Fits (sys : Runtime) (c : CycleId) (status : CycleStatus) (job : Job) : Prop :=
  (∀ w t, Owes sys w c t → stage job = some t) ∧
    ((∀ w t, ¬ Owes sys w c t) → stage job = some status)

theorem owes_step (hinv : InStep sys) (hok : InTurn settings sys l) (h : Step settings sys l sys')
    (howes : Owes sys w c t) : Owes sys' w c t ∨ l = .writeOutcome w := by
  obtain ⟨cycle, hc⟩ := cycle_of_owes hinv howes
  obtain ⟨j, result, old, hpc, hj, hjob, ht⟩ := id howes.job
  obtain ⟨new, hnew, hsame⟩ := (step_grows h).jobs j old hj
  have still (hpc' : outcomeOf (sys'.workers w) = some (j, result)) : Owes sys' w c t :=
    ⟨j, result, new, hpc', hnew, (staged_fixed c old new hsame).mpr hjob, ht⟩
  by_cases hl : l.worker? = some w
  case neg => exact .inl (still (by rw [step_other_worker h hl]; exact hpc))
  revert still
  cases h with
  | heartbeat => exact fun still => .inl (still hpc)
  | readOutcome w' m result' job hpc' | readFailure w' m result' seen job hpc'
  | readNoPatch w' m result' seen job hpc' | readPatch w' m result' seen job cycle target hpc' =>
    obtain rfl := Option.some.inj hl
    rw [hpc'] at hpc
    obtain ⟨rfl, rfl⟩ := Prod.mk.inj (Option.some.inj hpc)
    exact fun still => .inl (still (by rw [Runtime.moveWorker_self]; rfl))
  | writeOutcome w' =>
    obtain rfl := Option.some.inj hl
    exact fun _ => .inr rfl
  | acknowledge w' m result' job hpc' hm hstatus =>
    obtain rfl := Option.some.inj hl
    exact absurd howes (hok.cancelled w' m result' job rfl hpc' hm hstatus c t)
  | crash w' =>
    obtain rfl := Option.some.inj hl
    exact absurd howes (hok.crash w' rfl c t)
  | raisePatch w' m result' seen job row target hpc' hm hresult hpatch hvalid =>
    obtain rfl := Option.some.inj hl
    rw [hpc'] at hpc
    obtain ⟨rfl, rfl⟩ := Prod.mk.inj (Option.some.inj hpc)
    obtain rfl := Option.some.inj (hj.symm.trans hm)
    obtain ⟨htarget, c', hc', hrow⟩ := patchTarget_eq_some hpatch
    rw [patchOf, if_pos hresult, htarget] at ht
    obtain rfl := Option.some.inj ht
    obtain rfl := Option.some.inj (hjob.cycle.symm.trans hc')
    exact absurd ((hinv.owed w' c target row howes hrow).symm.trans hvalid) fun h => by cases h
  | tick | receive | respond | reject | drop => exact absurd hl fun h => by cases h
  | claim w' locked m hpc' | start w' m hpc' | exec w' world m phase job txn next hpc'
  | readStale w' hpc' | writeStale w' stale hpc' =>
    obtain rfl := Option.some.inj hl
    rw [hpc'] at hpc
    exact absurd hpc fun h => by cases h

theorem request_writes {seen target : CycleStatus} (h : Step settings sys (.respond q) sys')
    (hchanged : sys'.db ≠ sys.db) (hwrite : CycleWrite sys (.respond q) c seen target)
    (hc : sys.db.cycles[c]? = some cycle) (hfresh : cycle.status = seen) :
    sys'.db.cycleStatus? c = some target := by
  have assigned {db : Db} {f : ResearchCycle → ResearchCycle}
      (hcycles : db.cycles = Table.update sys.db.cycles c f)
      (hf : (f cycle).status = ormSet seen target cycle.status) :
      db.cycleStatus? c = some target := by
    rw [Db.cycleStatus?, hcycles, Table.getElem?_update_self, hc, Option.map_some, Option.map_some,
      hf, ormSet_of_eq hfresh]
  cases h with
  | reject => exact absurd rfl hchanged
  | respond _ body seen' db hpc hanswer =>
    rw [Runtime.moveRequest_db]
    cases hwrite with
    | transitionCycle _ _ _ seen'' row hpc' hrow hvalid =>
      obtain ⟨rfl, rfl⟩ := RequestPc.opened.inj (hpc.symm.trans hpc')
      cases hanswer with
      | transitionCycle _ _ row' hrow' hvalid' =>
        obtain rfl := Option.some.inj (hrow.symm.trans hrow')
        exact assigned rfl rfl
    | startAnalysis _ _ seen'' row hpc' hrow hstatus =>
      obtain ⟨rfl, rfl⟩ := RequestPc.opened.inj (hpc.symm.trans hpc')
      cases hanswer with
      | startAnalysis _ row' moved hrow' hmoved =>
        obtain rfl := Option.some.inj (hrow.symm.trans hrow')
        rcases hmoved with ⟨-, rfl⟩ | ⟨hno, -⟩
        · exact assigned rfl rfl
        · exact absurd hstatus hno
    | startRun _ spec seen'' srow row hpc' hspec hrow hstatus =>
      obtain ⟨rfl, rfl⟩ := RequestPc.opened.inj (hpc.symm.trans hpc')
      cases hanswer with
      | startRun _ srow' row' moved hspec' hvalidated hrow' hmoved =>
        obtain rfl := Option.some.inj (hspec.symm.trans hspec')
        obtain rfl := Option.some.inj (hrow.symm.trans hrow')
        rcases hmoved with ⟨-, rfl⟩ | ⟨hno, -⟩
        · exact assigned rfl rfl
        · exact absurd hstatus hno
    | control _ r action _ run row hpc' haction hrun hrow hstatus =>
      obtain ⟨rfl, rfl⟩ := RequestPc.opened.inj (hpc.symm.trans hpc')
      have ensured {base : Db} (hbase : base.cycles = sys.db.cycles) :
          (ensureRunning seen' base run.cycleId).cycleStatus? run.cycleId = some .running := by
        unfold ensureRunning
        rw [hrow]
        dsimp only
        rw [if_neg hstatus]
        have hcycles : (assignCycleStatus base run.cycleId row.status .running).cycles =
            Table.update sys.db.cycles run.cycleId fun cycle =>
              { cycle with status := ormSet row.status .running cycle.status, updatedAt := base.now } := by
          rw [← hbase]
          rfl
        exact assigned hcycles rfl
      rcases haction with rfl | rfl
      · cases hanswer with
        | resumeRun _ run' hrun' hallowed =>
          obtain rfl := Option.some.inj (hrun.symm.trans hrun')
          exact ensured rfl
      · cases hanswer with
        | retryRun _ run' hrun' hallowed =>
          obtain rfl := Option.some.inj (hrun.symm.trans hrun')
          exact ensured rfl
    | stopLoop _ _ seen'' row hpc' hrow hstatus =>
      obtain ⟨rfl, rfl⟩ := RequestPc.opened.inj (hpc.symm.trans hpc')
      cases hanswer with
      | stopLoop _ row' moved hrow' hmoved =>
        obtain rfl := Option.some.inj (hrow.symm.trans hrow')
        rcases hmoved with ⟨-, rfl⟩ | ⟨hno, -⟩
        · exact assigned rfl rfl
        · exact absurd hstatus hno

theorem not_returns_of_write {seen target : CycleStatus} (h : CycleWrite sys l c seen target) :
    ¬ Returns settings sys j l := by
  intro hreturns
  cases hreturns with
  | reclaim => exact absurd h nofun
  | resumeJob q seen' row hpc =>
    cases h with
    | transitionCycle _ _ _ _ _ hpc' | startAnalysis _ _ _ _ hpc' | startRun _ _ _ _ _ hpc'
    | control _ _ _ _ _ _ hpc' | stopLoop _ _ _ _ hpc' =>
      exact absurd (RequestPc.opened.inj (hpc.symm.trans hpc')).1 nofun
  | resumeGate q seen' c' hpc =>
    cases h with
    | transitionCycle _ _ _ _ _ hpc' | startAnalysis _ _ _ _ hpc' | startRun _ _ _ _ _ hpc'
    | control _ _ _ _ _ _ hpc' | stopLoop _ _ _ _ hpc' =>
      exact absurd (RequestPc.opened.inj (hpc.symm.trans hpc')).1 nofun

theorem fits_enqueued {m : JobId} {world : External} {phase : Phase} {txn : Txn} {next : Core.Next}
    (hinv : InStep sys) (hok : InTurn settings sys (.exec w world))
    (h : Step settings sys (.exec w world) sys') (hpc : sys.workers w = .executing m phase)
    (hm : sys.db.jobs[m]? = some job)
    (hout : execute sys.db (operatorInput m job) phase world = (txn, next))
    (hone : txn.newJobs = [new]) (hnew : Staged c new) (hnow : sys'.db.cycles[c]? = some now) :
    Fits sys' c now.status new := by
  obtain ⟨s, hs⟩ := hnew.stage
  have hexit := execute_exit hout
  obtain ⟨u, hu⟩ := exit_staged hexit hone hs
  obtain ⟨c', hin⟩ := hinv.owned.inCycle hm hu
  have hjob : Staged c' job := ⟨hin.cycle, u, hu⟩
  obtain ⟨result, status, rfl, hstatus, hc, hnext⟩ := (exit_advances hexit
    (hinv.owned.input hpc hm hjob) (hok.ungated w world m phase job rfl hpc hm)).successor new s hone hs
  obtain rfl := Option.some.inj (hnew.cycle.symm.trans hc)
  have hworks : Works m (sys.workers w) := by
    rw [hpc]
    exact .executing phase
  obtain ⟨cycle, hcycle⟩ := hin.row
  have hstage := hinv.atWork w m job c cycle hworks hm hjob hcycle
  obtain rfl := Option.some.inj (hstatus.symm.trans hstage)
  rw [Fits, hs, hnext]
  constructor
  · intro w' t howes
    rcases step_owes hinv.owned h howes with hbefore | ⟨world', phase', m', job', txn', result', hl,
      hpc', hm', hout', -, ht⟩
    · obtain rfl := hinv.alone w' w c (.owes t hbefore) (.works m job hworks hm hjob)
      exact absurd hworks hbefore.not_works
    · obtain ⟨rfl, rfl⟩ := Label.exec.inj hl
      obtain ⟨rfl, rfl⟩ := WorkerPc.executing.inj (hpc.symm.trans hpc')
      obtain rfl := Option.some.inj (hm.symm.trans hm')
      obtain ⟨-, hresult⟩ := Prod.mk.inj (hout.symm.trans hout')
      obtain rfl := Core.Next.finish.inj hresult
      rw [ht]
      rfl
  · intro hnone
    cases ht : patchOf result with
    | none =>
      rw [status_of_exec hinv hok h hcycle hnow]
      rfl
    | some t =>
      obtain ⟨row, hrow, hsame⟩ := (step_grows h).jobs m job hm
      refine absurd ⟨m, result, row, ?_, hrow, (staged_fixed c job row hsame).mpr hjob, ht⟩ (hnone w t)
      rw [step_exec h hpc hm hout, Runtime.moveWorker_self]
      rfl

theorem fits_requested (hinv : InStep sys) (hok : InTurn settings sys (.respond q))
    (h : Step settings sys (.respond q) sys') (hborn : Born sys (.respond q) new)
    (hchanged : sys'.db ≠ sys.db) (hnew : Staged c new) (hc : sys.db.cycles[c]? = some cycle)
    (hnow : sys'.db.cycles[c]? = some now) : Fits sys' c now.status new := by
  obtain ⟨hquiet, hstage⟩ := hok.add q new c cycle rfl hborn hnew hc
  have hnone : ∀ w t, ¬ Owes sys' w c t := by
    intro w t howes
    rcases step_owes hinv.owned h howes with hbefore | ⟨_, _, _, _, _, _, hl, -⟩
    · exact hquiet.quiet w (.owes t hbefore)
    · exact absurd hl nofun
  refine ⟨fun w t howes => absurd howes (hnone w t), fun _ => ?_⟩
  rcases hstage with ⟨hcurrent, htrivial⟩ | ⟨seen, target, hwrite, htarget⟩
  · rw [hcurrent]
    rcases step_status hinv hok h hc hnow with hkept | ⟨w, hl, -⟩ | ⟨q', seen, -, -, hwrite⟩
    · rw [hkept]
    · exact absurd hl nofun
    · rw [← htrivial seen now.status hwrite, (write_turn hinv hok hwrite hc).1]
  · have hwritten := request_writes h hchanged hwrite hc (write_turn hinv hok hwrite hc).1
    rw [Db.cycleStatus?, hnow] at hwritten
    rw [htarget]
    exact hwritten.symm

theorem keeps_waiting (hinv : InStep sys) (hok : InTurn settings sys l)
    (h : Step settings sys l sys') (hj : sys'.db.jobs[j]? = some new) (hnew : Staged c new)
    (hstatus : new.status = .pending) (hnow : sys'.db.cycles[c]? = some now) :
    Fits sys' c now.status new := by
  cases hold : sys.db.jobs[j]? with
  | none =>
    obtain ⟨hlength, hborn⟩ := step_born h hold hj
    have hborn' := hborn
    cases hborn with
    | enqueued w world m phase job new txn next hpc hm hout hone =>
      exact fits_enqueued hinv hok h hpc hm hout hone hnew hnow
    | requested q body seen new hpc hrequested =>
      obtain ⟨c', cycle, hcycle, hc⟩ := requested_cycle hinv.owned hpc hrequested
      obtain rfl := Option.some.inj (hnew.cycle.symm.trans hcycle)
      refine fits_requested hinv hok h hborn' ?_ hnew hc hnow
      intro hsame
      rw [hsame, hold] at hj
      exact absurd hj fun h => by cases h
  | some old =>
    obtain ⟨hstaged, hstage, hchange, cycle, hc⟩ := staged_old hinv h hold hj hnew
    rw [Fits, hstage]
    rcases jobChange_pending hchange hstatus with hpending | hreturns
    · obtain ⟨howing, hsettled⟩ := hinv.waiting j old c cycle hold hstaged hpending hc
      have later {w : WorkerId} {t : CycleStatus} (howes : Owes sys' w c t) : Owes sys w c t := by
        rcases step_owes hinv.owned h howes with hbefore | ⟨world, phase, m, job, txn, result, -,
          hpc, hm, -, hjob, -⟩
        · exact hbefore
        · have hworks : Works m (sys.workers w) := by
            rw [hpc]
            exact .executing phase
          obtain rfl := last_of_working hinv hworks hm hjob hold hstaged
            (hinv.pending j old c hold hstaged hpending)
          exact absurd hpending (hinv.working w j old c hworks hold hstaged).2
      refine ⟨fun w t howes => howing w t (later howes), fun hnone => ?_⟩
      by_cases howed : ∃ w t, Owes sys w c t
      · obtain ⟨w, t, howes⟩ := howed
        rcases owes_step hinv hok h howes with hstill | rfl
        · exact absurd hstill (hnone w t)
        · have hpatched := writeOutcome_patches hinv h howes hc
          rw [Db.cycleStatus?, hnow] at hpatched
          rw [howing w t howes]
          exact hpatched.symm
      · have hquiet : ∀ w t, ¬ Owes sys w c t := fun w t howes => howed ⟨w, t, howes⟩
        rw [hsettled hquiet]
        rcases step_status hinv hok h hc hnow with hkept | ⟨w, -, howes⟩ | ⟨q, seen, rfl, hidle, hwrite⟩
        · rw [hkept]
        · exact absurd howes (hquiet w _)
        · by_cases hchanged : sys'.db = sys.db
          · rw [hchanged, hc] at hnow
            rw [Option.some.inj hnow]
          · rcases hidle.waiting with ⟨body, hpc⟩ | hnowait
            · exact absurd hstatus (stopLoop_clears h hpc hchanged hold hj hnew.cycle)
            · exact absurd hpending (hnowait j old hold hstaged)
    · obtain ⟨-, hcurrent, hidle⟩ := hok.requeue j old c cycle hreturns hold hstaged hc
      have hsame : now.status = cycle.status := by
        rcases step_status hinv hok h hc hnow with hkept | ⟨w, rfl, -⟩ | ⟨q, seen, -, -, hwrite⟩
        · exact hkept
        · exact absurd hreturns fun h => by cases h
        · exact absurd hreturns (not_returns_of_write hwrite)
      have hnone : ∀ w t, ¬ Owes sys' w c t := by
        intro w t howes
        rcases step_owes hinv.owned h howes with hbefore | ⟨_, _, _, _, _, _, rfl, -⟩
        · exact hidle w (.owes t hbefore)
        · exact absurd hreturns fun h => by cases h
      refine ⟨fun w t howes => absurd howes (hnone w t), fun _ => ?_⟩
      rw [hcurrent, hsame]

end Synthetos.Cycles
