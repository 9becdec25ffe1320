import Synthetos.Cycles.Turns

/-!
# The turn passes on

One lemma for each field of `InStep`.
-/

namespace Synthetos.Cycles

open Synthetos.Core Storage Lib Worker Api Jobs Runs

variable {settings : Settings} {start sys sys' : Runtime} {l : Label} {c : CycleId} {j k : JobId}
  {w w' : WorkerId} {t : CycleStatus} {job old new : Job} {result : OperatorResult} {q : Nat}
  {cycle now : ResearchCycle}

theorem writeOutcome_patches (hinv : InStep sys) (h : Step settings sys (.writeOutcome w) sys')
    (howes : Owes sys w c t) (hc : sys.db.cycles[c]? = some cycle) :
    sys'.db.cycleStatus? c = some t := by
  obtain ⟨j, result, job, hpc, hj, hjob, ht⟩ := howes.job
  have hjc := hjob.cycle
  cases h with
  | writeOutcome _ j' result' status cycleSeen runSeen job' hpc' hj' =>
    rw [hpc'] at hpc
    obtain ⟨rfl, rfl⟩ := Prod.mk.inj (Option.some.inj hpc)
    obtain rfl := Option.some.inj (hj.symm.trans hj')
    obtain rfl := hinv.recorded w j' result' status cycleSeen runSeen job c t cycle hpc' hj hjc ht hc
    unfold patchOf at ht
    split at ht
    · rename_i hresult
      have hpatched : (applyStatePatch sys.db job result' (some cycle.status)).cycleStatus? c =
          some t := by
        unfold applyStatePatch
        rw [hjc, ht]
        dsimp only
        rw [Db.cycleStatus?, setCycleStatus, emit_cycles, Table.getElem?_update_self, hc]
        exact congrArg some (ormSet_of_eq rfl)
      rw [Runtime.moveWorker_db, Worker.writeOutcome, if_pos hresult]
      dsimp only
      split
      · exact hpatched
      · exact hpatched
    · exact absurd ht fun h => by cases h

theorem stopLoop_clears {seen : Db} (h : Step settings sys (.respond q) sys')
    (hpc : sys.requests q = .opened (.stopLoop c) seen) (hchanged : sys'.db ≠ sys.db)
    (hold : sys.db.jobs[j]? = some old) (hj : sys'.db.jobs[j]? = some new)
    (hc : new.cycleId = some c) : new.status ≠ .pending := by
  cases h with
  | reject => exact absurd rfl hchanged
  | respond _ body seen' db hpc' hanswer =>
    obtain ⟨rfl, rfl⟩ := RequestPc.opened.inj (hpc.symm.trans hpc')
    cases hanswer with
    | stopLoop _ cycle moved hcycle hmoved =>
      have cleared (hrow : (stoppedLoop sys.db c cycle.charterId).jobs[j]? = some new) :
          new.status ≠ .pending := by
        obtain ⟨row, -, rfl⟩ := Table.exists_of_getElem?_updateWhere hrow
        split at hc
        · rename_i hcancelled
          rw [if_pos hcancelled]
          exact nofun
        · rename_i hkept
          rw [if_neg hkept]
          intro hpending
          exact hkept (by simp [hc, hpending, JobStatus.cancellable])
      rcases hmoved with ⟨-, rfl⟩ | ⟨-, rfl⟩
      · refine cleared ?_
        rcases Table.getElem?_append_singleton hj with hin | ⟨hlen, -⟩
        · exact hin
        · have hlength : (stoppedLoop sys.db c cycle.charterId).jobs.length = sys.db.jobs.length :=
            Table.length_updateWhere
          have hbound := Table.lt_length_of_getElem? hold
          exact absurd (hlen.trans hlength) (Nat.ne_of_lt hbound)
      · exact cleared hj

/-- Nothing of cycle `c` waits or is worked on. -/
def Vacant (sys : Runtime) (c : CycleId) (k : JobId) (row : Job) : Prop :=
  Staged c row → row.status ≠ .pending ∧ ∀ w, ¬ Works k (sys.workers w)

theorem last_of_working {m : JobId} (hinv : InStep sys) (hworks : Works m (sys.workers w))
    (hm : sys.db.jobs[m]? = some job) (hjob : Staged c job) (hk : sys.db.jobs[k]? = some old)
    (hold : Staged c old) (hlast : Newest sys.db.jobs (Staged c) k) : k = m :=
  newest_unique hk hm hold hjob hlast (hinv.working w m job c hworks hm hjob).1

theorem vacant_of_handover {m : JobId} {world : External} {phase : Phase} {txn : Txn} {row : Job}
    (hinv : InStep sys) (h : Step settings sys (.exec w world) sys')
    (hpc : sys.workers w = .executing m phase) (hm : sys.db.jobs[m]? = some job)
    (hout : execute sys.db (operatorInput m job) phase world = (txn, .finish result))
    (hjob : Staged c job) (hk : sys.db.jobs[k]? = some old) (hrow : sys'.db.jobs[k]? = some row) :
    Vacant sys' c k row := by
  intro hstaged
  have hworks : Works m (sys.workers w) := by
    rw [hpc]
    exact .executing phase
  obtain ⟨row', hrow', hsame, hchange⟩ := step_row h hk
  obtain rfl := Option.some.inj (hrow.symm.trans hrow')
  have hold := (staged_fixed c old row hsame).mp hstaged
  constructor
  · intro hpending
    rcases jobChange_pending hchange hpending with hpending | hreturns
    · obtain rfl := last_of_working hinv hworks hm hjob hk hold (hinv.pending k old c hk hold hpending)
      obtain rfl := Option.some.inj (hk.symm.trans hm)
      exact (hinv.working w k old c hworks hk hold).2 hpending
    · exact absurd hreturns nofun
  · intro w' hworks'
    rcases step_works h hworks' with hbefore | ⟨locked, hl, -⟩
    · have hsame := hinv.alone w' w c (.works k old hbefore hk hold) (.works m job hworks hm hjob)
      subst hsame
      rw [step_exec h hpc hm hout, Runtime.moveWorker_self] at hworks'
      exact absurd hworks' nofun
    · exact absurd hl nofun

theorem vacant_of_undisturbed {row : Job}
    (h : Step settings sys (.respond q) sys') (hquiet : Undisturbed sys q c)
    (hchanged : sys'.db ≠ sys.db) (hreturns : ∀ k, ¬ Returns settings sys k (.respond q))
    (hk : sys.db.jobs[k]? = some old) (hrow : sys'.db.jobs[k]? = some row) : Vacant sys' c k row := by
  intro hstaged
  obtain ⟨row', hrow', hsame, hchange⟩ := step_row h hk
  obtain rfl := Option.some.inj (hrow.symm.trans hrow')
  have hold := (staged_fixed c old row hsame).mp hstaged
  constructor
  · intro hpending
    rcases hquiet.waiting with ⟨seen, hpc⟩ | hnone
    · exact stopLoop_clears h hpc hchanged hk hrow hstaged.cycle hpending
    · rcases jobChange_pending hchange hpending with hpending | hreturned
      · exact hnone k old hk hold hpending
      · exact hreturns k hreturned
  · intro w' hworks'
    rcases step_works h hworks' with hbefore | ⟨locked, hl, -⟩
    · exact hquiet.quiet w' (.works k old hbefore hk hold)
    · exact absurd hl nofun

theorem new_staged_job {row : Job} (hinv : InStep sys) (hok : InTurn settings sys l)
    (h : Step settings sys l sys') (hnone : sys.db.jobs[j]? = none)
    (hj : sys'.db.jobs[j]? = some new) (hnew : Staged c new) (hk : sys.db.jobs[k]? = some old)
    (hrow : sys'.db.jobs[k]? = some row) : Vacant sys' c k row := by
  obtain ⟨-, hborn⟩ := step_born h hnone hj
  have hborn' := hborn
  obtain ⟨s, hs⟩ := hnew.stage
  cases hborn with
  | enqueued w world m phase job new txn next hpc hm hout hone =>
    have hexit := execute_exit hout
    obtain ⟨t, ht⟩ := exit_staged hexit hone hs
    obtain ⟨c', hin⟩ := hinv.owned.inCycle hm ht
    have hown := hinv.owned.input hpc hm ⟨hin.cycle, t, ht⟩
    have hungated := hok.ungated w world m phase job rfl hpc hm
    obtain ⟨result, status, rfl, -, hc, -⟩ := (exit_advances hexit hown hungated).successor new s hone hs
    obtain rfl := Option.some.inj (hnew.cycle.symm.trans hc)
    exact vacant_of_handover hinv h hpc hm hout ⟨hin.cycle, t, ht⟩ hk hrow
  | requested q body seen new hpc hrequested =>
    obtain ⟨c', cycle, hcycle, hc⟩ := requested_cycle hinv.owned hpc hrequested
    obtain rfl := Option.some.inj (hnew.cycle.symm.trans hcycle)
    obtain ⟨hquiet, -⟩ := hok.add q new c cycle rfl hborn' hnew hc
    refine vacant_of_undisturbed h hquiet ?_ (fun k => not_returns_of_born hborn') hk hrow
    intro hsame
    rw [hsame, hnone] at hj
    exact absurd hj nofun

end Synthetos.Cycles
