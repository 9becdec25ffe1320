import Synthetos.Runtime.CycleRows
import Synthetos.Runtime.Solo

/-!
# The transition table over whole runs

Two writers consult the transition table; the others assign the status after checks of their own.
The table is respected as long as a status is written before it changes again, runs are resumed
and retried in the phases that execute runs, and no loop is stopped in the phase `running`.
-/

namespace Synthetos.Cycles

open Synthetos.Core Storage Lib Worker Api

/-- The phases in which a run of the cycle may be resumed or retried. -/
def executesRuns : CycleStatus → Bool
  | .protocolReady | .running | .verifying | .loopDeciding => true
  | _ => false

structure WritesInPhase (sys : Runtime) (l : Label) : Prop where
  /-- The status a writer has read is still the status of the cycle. -/
  fresh : ∀ c seen target cycle, CycleWrite sys l c seen target → sys.db.cycles[c]? = some cycle →
    cycle.status = seen
  control : ∀ q r action seen run cycle, l = .respond q →
    sys.requests q = .opened (.controlRun r action) seen → action = .resume ∨ action = .retry →
    seen.runs[r]? = some run → seen.cycles[run.cycleId]? = some cycle →
    executesRuns cycle.status = true
  stopLoop : ∀ q c seen cycle, l = .respond q → sys.requests q = .opened (.stopLoop c) seen →
    seen.cycles[c]? = some cycle → cycle.status ≠ .running

/-- A worker about to apply a patch has validated it against the status it read. -/
def Validated (sys : Runtime) : Prop :=
  ∀ w j result status seen runSeen, sys.workers w = .recording j result status (some seen) runSeen →
    ∃ target, result.statePatch = some target ∧ validTransition seen target = true

variable {settings : Settings} {start sys sys' : Runtime} {l : Label} {c : CycleId}

theorem patchTarget_eq_some {db : Db} {job : Job} {result : OperatorResult} {cycle : ResearchCycle}
    {target : CycleStatus} (h : patchTarget db job result = some (cycle, target)) :
    result.statePatch = some target ∧ ∃ c, job.cycleId = some c ∧ db.cycles[c]? = some cycle := by
  unfold patchTarget at h
  obtain ⟨patch, hpatch, h⟩ := Option.bind_eq_some_iff.mp h
  obtain ⟨c, hc, h⟩ := Option.bind_eq_some_iff.mp h
  obtain ⟨row, hrow, h⟩ := Option.bind_eq_some_iff.mp h
  obtain ⟨rfl, rfl⟩ := Prod.mk.inj (Option.some.inj h)
  exact ⟨hpatch, c, hc, hrow⟩

/-- A worker that is about to apply a patch was so before, or has just validated it. -/
theorem recording_patch {w : WorkerId} {j : JobId} {result : OperatorResult} {status : JobStatus}
    {seen : CycleStatus} {runSeen : Option RunStatus} (h : Step settings sys l sys')
    (hpc : sys'.workers w = .recording j result status (some seen) runSeen) :
    sys.workers w = .recording j result status (some seen) runSeen ∨
      ∃ job c cycle target, sys'.db.jobs[j]? = some job ∧ job.cycleId = some c ∧
        sys'.db.cycles[c]? = some cycle ∧ result.statePatch = some target ∧
        validTransition seen target = true := by
  by_cases hl : l.worker? = some w
  case neg => exact .inl (by rwa [step_other_worker h hl] at hpc)
  cases h with
  | tick | receive | respond | reject | drop => exact absurd hl nofun
  | heartbeat => exact .inl hpc
  | readPatch w' k result' seen' job cycle target hpc' hk hresult hpatch hvalid =>
    obtain rfl := Option.some.inj hl
    rw [Runtime.moveWorker_self] at hpc
    cases hpc
    obtain ⟨htarget, c, hc, hcycle⟩ := patchTarget_eq_some hpatch
    exact .inr ⟨job, c, cycle, target, hk, hc, hcycle, htarget, hvalid⟩
  | exec w' world k phase job txn next =>
    obtain rfl := Option.some.inj hl
    rw [Runtime.moveWorker_self] at hpc
    cases next <;> exact absurd hpc nofun
  | claim w' | start w' | acknowledge w' | readOutcome w' | readFailure w' | readNoPatch w'
  | raisePatch w' | writeOutcome w' | readStale w' | writeStale w' | crash w' =>
    obtain rfl := Option.some.inj hl
    rw [Runtime.moveWorker_self] at hpc
    exact absurd hpc nofun

theorem validated_step (hinv : Validated sys) (h : Step settings sys l sys') : Validated sys' := by
  intro w j result status seen runSeen hpc
  rcases recording_patch h hpc with hold | ⟨job, c, cycle, target, -, -, -, htarget, hvalid⟩
  · exact hinv w j result status seen runSeen hold
  · exact ⟨target, htarget, hvalid⟩

theorem cycleWrite_valid {seen target : CycleStatus} (hinv : Validated sys)
    (hok : WritesInPhase sys l) (h : CycleWrite sys l c seen target) :
    validTransition seen target = true := by
  cases h with
  | patch w j result status job c seen target runSeen hpc hj hresult hpatch =>
    obtain ⟨target', hpatch', hvalid⟩ := hinv w j result status seen runSeen hpc
    obtain rfl := Option.some.inj (hpatch'.symm.trans hpatch)
    exact hvalid
  | transitionCycle q c target seen cycle hpc hcycle hvalid => exact hvalid
  | startAnalysis q c seen cycle hpc hcycle hstatus =>
    rcases hstatus with hstatus | hstatus
    · rw [hstatus]
      rfl
    · rw [hstatus]
      rfl
  | startRun q spec seen row cycle hpc hspec hcycle hstatus =>
    rw [hstatus]
    rfl
  | control q r action seen run cycle hpc haction hrun hcycle hstatus =>
    have hphase := hok.control q r action seen run cycle rfl hpc haction hrun hcycle
    cases hs : cycle.status <;> rw [hs] at hphase hstatus <;>
      first
      | rfl
      | exact absurd hphase nofun
  | stopLoop q c seen cycle hpc hcycle hstatus =>
    have hphase := hok.stopLoop q c seen cycle rfl hpc hcycle
    rcases hstatus with hstatus | hstatus
    · rw [hstatus]
      rfl
    · exact absurd hstatus hphase

theorem cycle_step {old : ResearchCycle} (hinv : Validated sys) (hok : WritesInPhase sys l)
    (h : Step settings sys l sys') (hc : sys.db.cycles[c]? = some old) :
    ∃ new, sys'.db.cycles[c]? = some new ∧
      (new.status = old.status ∨ validTransition old.status new.status = true) := by
  obtain ⟨new, hnew, -, hchange⟩ := step_cycle h hc
  refine ⟨new, hnew, ?_⟩
  rcases hchange with hkept | ⟨seen, target, hwrite, hstatus⟩
  · exact .inl hkept
  · right
    have hfresh := hok.fresh c seen target old hwrite hc
    rw [hstatus, ormSet_of_eq hfresh, hfresh]
    exact cycleWrite_valid hinv hok hwrite

theorem validated_run (hstart : start.Initial)
    (h : Reaches WritesInPhase (Runtime.step settings) start sys) : Validated sys := by
  refine h.invariant Validated (fun _ _ _ hinv _ hstep => validated_step hinv (step_cases hstep)) ?_
  intro w j result status seen runSeen hpc
  rw [hstart.workers] at hpc
  exact absurd hpc nofun

/-- Every step keeps a cycle's status or follows the table, and a closed cycle stays closed. -/
theorem status_follows_table {settings : Settings} {start sys : Runtime} (hstart : start.Initial)
    (hrun : Reaches WritesInPhase (Runtime.step settings) start sys) :
    (∀ (l : Label) (sys' : Runtime) (c : CycleId) (old : ResearchCycle), WritesInPhase sys l →
      Runtime.step settings sys l = some sys' → sys.db.cycles[c]? = some old →
        ∃ new : ResearchCycle, sys'.db.cycles[c]? = some new ∧
          (new.status = old.status ∨ validTransition old.status new.status = true)) ∧
      ∀ (later : Runtime) (c : CycleId), Reaches WritesInPhase (Runtime.step settings) sys later →
        sys.db.cycleStatus? c = some .closed → later.db.cycleStatus? c = some .closed := by
  constructor
  · intro l sys' c old hok hstep hc
    exact cycle_step (validated_run hstart hrun) hok (step_cases hstep) hc
  · intro later c hlater hclosed
    induction hlater with
    | refl => exact hclosed
    | tail hmid hnext ih =>
      obtain ⟨l, hok, hstep⟩ := hnext
      obtain ⟨old, hold, hstatus⟩ := Option.map_eq_some_iff.mp ih
      obtain ⟨new, hnew, hvalid⟩ :=
        cycle_step (validated_run hstart (hrun.trans hmid)) hok (step_cases hstep) hold
      rw [Db.cycleStatus?, hnew, Option.map_some]
      rcases hvalid with hkept | hvalid
      · rw [hkept, hstatus]
      · rw [hstatus] at hvalid
        exact absurd hvalid nofun

/-- A request that commits on the database it has read, outside run control and stops, writes in
phase. -/
theorem writesInPhase_of_current {q : Nat} {body : Request}
    (hpc : sys.requests q = .opened body sys.db) (hcontrol : ∀ r action, body ≠ .controlRun r action)
    (hstop : ∀ c, body ≠ .stopLoop c) : WritesInPhase sys (.respond q) where
  fresh := by
    intro c seen target cycle hwrite hc
    cases hwrite with
    | transitionCycle _ _ _ _ row hpc' hrow | startAnalysis _ _ _ row hpc' hrow
    | startRun _ _ _ _ row hpc' _ hrow | control _ _ _ _ _ row hpc' _ _ hrow
    | stopLoop _ _ _ row hpc' hrow =>
      obtain ⟨-, rfl⟩ := RequestPc.opened.inj (hpc'.symm.trans hpc)
      rw [Option.some.inj (hc.symm.trans hrow)]
  control := by
    intro q' r action seen run cycle hq hpc' haction hrun hcycle
    obtain rfl := Label.respond.inj hq
    obtain ⟨hbody, -⟩ := RequestPc.opened.inj (hpc'.symm.trans hpc)
    exact absurd hbody.symm (hcontrol r action)
  stopLoop := by
    intro q' c seen cycle hq hpc' hcycle
    obtain rfl := Label.respond.inj hq
    obtain ⟨hbody, -⟩ := RequestPc.opened.inj (hpc'.symm.trans hpc)
    exact absurd hbody.symm (hstop c)

theorem writesInPhase_receive (q : Nat) (body : Request) : WritesInPhase sys (.receive q body) where
  fresh := fun _ _ _ _ hwrite => absurd hwrite nofun
  control := fun _ _ _ _ _ _ hq => absurd hq nofun
  stopLoop := fun _ _ _ _ hq => absurd hq nofun

/-- The first run of a compiled cycle moves it to `running`. -/
theorem status_follows_table_started : ∃ sys : Runtime,
    Reaches WritesInPhase (Runtime.step {}) Runtime.compiledCycle sys ∧
      sys.db.cycleStatus? 0 = some .running ∧
      ∀ later c, Reaches WritesInPhase (Runtime.step {}) sys later →
        sys.db.cycleStatus? c = some .closed → later.db.cycleStatus? c = some .closed := by
  obtain ⟨mid, hmid⟩ : ∃ mid, Runtime.step {} Runtime.compiledCycle (.receive 0 (.startRun 0))
    = some mid := ⟨_, rfl⟩
  have hpc : mid.requests 0 = .opened (.startRun 0) mid.db := by
    obtain rfl := Option.some.inj hmid
    rfl
  obtain ⟨sys, hsys⟩ : ∃ sys, Runtime.step {} mid (.respond 0) = some sys := by
    obtain rfl := Option.some.inj hmid
    exact ⟨_, rfl⟩
  have hrun : Reaches WritesInPhase (Runtime.step {}) Runtime.compiledCycle sys :=
    ((Reaches.refl _).tail ⟨_, writesInPhase_receive _ _, hmid⟩).tail
      ⟨_, writesInPhase_of_current hpc nofun nofun, hsys⟩
  refine ⟨sys, hrun, ?_, (status_follows_table Runtime.compiledCycle_initial hrun).2⟩
  obtain rfl := Option.some.inj hmid
  obtain rfl := Option.some.inj hsys
  rfl

/-- A closed cycle is reopened by the retry of a cancelled run. -/
theorem closed_cycle_reopened : ∃ sys later : Runtime, Runtime.compiledCycle.Initial ∧
    Reaches Unguarded (Runtime.step {}) Runtime.compiledCycle sys ∧
      Reaches Unguarded (Runtime.step {}) sys later ∧
      sys.db.cycleStatus? 0 = some .closed ∧ later.db.cycleStatus? 0 = some .running := by
  obtain ⟨sys, hrun, htest⟩ := Runtime.run_of_anyone
    (show (perform Runtime.anyone (Runtime.step {}) Runtime.compiledCycle
      [.receive 0 (.startRun 0), .respond 0, .receive 0 (.controlRun 0 .cancel), .respond 0,
        .receive 0 (.stopLoop 0), .respond 0, .receive 0 (.transitionCycle 0 .closed),
        .respond 0]).any
      (fun sys => sys.db.cycleStatus? 0 == some .closed &&
        (perform Runtime.anyone (Runtime.step {}) sys
          [.receive 0 (.controlRun 0 .retry), .respond 0]).any fun later =>
            later.db.cycleStatus? 0 == some .running) = true by decide +kernel)
  simp only [Bool.and_eq_true, beq_iff_eq] at htest
  obtain ⟨later, hlater, hend⟩ := Runtime.run_of_anyone htest.2
  exact ⟨sys, later, Runtime.compiledCycle_initial, hrun, hlater, htest.1, by simpa using hend⟩

end Synthetos.Cycles
