import Synthetos.Cycles.LoopMoves
import Synthetos.Cycles.Transitions
import Synthetos.Runtime.Growth

/-!
# The event log as the history of a cycle

Two writers of a cycle's status file the transition they make: the worker that applies a patch and
`transition_cycle`.  The log is the history of the cycle as long as only they change the status,
and only from the status they have read.
-/

namespace Synthetos.Cycles

open Synthetos.Core Storage Lib Worker Api

/-- The writes of a cycle's status that file a transition. -/
inductive Filed (sys : Runtime) : Label → CycleId → CycleStatus → CycleStatus → Prop where
  | patch (w : WorkerId) (j : JobId) (result : OperatorResult) (status : JobStatus) (job : Job)
      (c : CycleId) (seen target : CycleStatus) (runSeen : Option RunStatus)
      (hpc : sys.workers w = .recording j result status (some seen) runSeen)
      (hj : sys.db.jobs[j]? = some job) (hresult : result.success = true)
      (hpatch : result.statePatch = some target) (hc : job.cycleId = some c) :
      Filed sys (.writeOutcome w) c seen target
  | transitionCycle (q : Nat) (c : CycleId) (target : CycleStatus) (seen : Db)
      (cycle : ResearchCycle) (hpc : sys.requests q = .opened (.transitionCycle c target) seen)
      (hcycle : seen.cycles[c]? = some cycle) (hvalid : validTransition cycle.status target = true) :
      Filed sys (.respond q) c cycle.status target

structure Recorded (sys : Runtime) (l : Label) : Prop where
  /-- A changed status is filed. -/
  filed : ∀ c seen target, CycleWrite sys l c seen target → seen ≠ target → Filed sys l c seen target
  /-- The status a filed transition leaves is the status of the cycle. -/
  fresh : ∀ c seen target cycle, Filed sys l c seen target → sys.db.cycles[c]? = some cycle →
    cycle.status = seen

variable {settings : Settings} {start sys sys' : Runtime} {l : Label} {c : CycleId}

/-! ### What a step adds to the journal of a cycle -/

/-- Nothing is added, and no writer that files a transition of this cycle acts. -/
def Unmoved (sys : Runtime) (l : Label) (db : Db) (c : CycleId) : Prop :=
  db.moves c = sys.db.moves c ∧ ∀ seen target, ¬ Filed sys l c seen target

/-- One transition is filed, and the status is written with it. -/
def MovedBy (sys : Runtime) (l : Label) (db : Db) (c : CycleId) (seen target : CycleStatus) : Prop :=
  Filed sys l c seen target ∧ db.moves c = sys.db.moves c ++ [⟨seen, target⟩] ∧
    ∀ old, sys.db.cycles[c]? = some old →
      ∃ new, db.cycles[c]? = some new ∧ new.status = ormSet seen target old.status

theorem moves_still {db db' : Db} {events : List DomainEvent} (h : db'.events = db.events ++ events)
    (hstill : Still events) (c : CycleId) : db'.moves c = db.moves c := by
  rw [Db.moves, h, movesOf_append_still hstill]
  rfl

theorem moves_setCycleStatus (db : Db) (k c : CycleId) (seen target : CycleStatus) :
    (setCycleStatus db k seen target).moves c =
      db.moves c ++ if k = c then [⟨seen, target⟩] else [] := by
  change movesOf (db.events ++ [.cycleTransitioned k seen target]) c = _
  rw [movesOf, List.filterMap_append]
  by_cases hk : k = c <;> simp [Db.moves, movesOf, DomainEvent.move?, hk]

theorem cycles_setCycleStatus {db : Db} {old : ResearchCycle} (seen target : CycleStatus)
    (hc : db.cycles[c]? = some old) :
    ∃ new, (setCycleStatus db c seen target).cycles[c]? = some new ∧
      new.status = ormSet seen target old.status := by
  have hrow : (setCycleStatus db c seen target).cycles[c]? = db.cycles[c]?.map _ :=
    Table.getElem?_update_self
  rw [hc] at hrow
  exact ⟨_, hrow, rfl⟩

theorem reclaimStaleJobs_moves (maxReclaims : Nat) (db : Db) (stale : List (JobId × Job))
    (c : CycleId) : (reclaimStaleJobs maxReclaims db stale).moves c = db.moves c := by
  induction stale generalizing db with
  | nil => rfl
  | cons entry rest ih =>
    refine (ih _).trans ?_
    dsimp only
    unfold reclaimJob
    dsimp only
    split <;> exact moves_still rfl (fun _ => rfl) c

theorem filed_writeOutcome {w : WorkerId} {j : JobId} {result : OperatorResult} {status : JobStatus}
    {cycleSeen : Option CycleStatus} {runSeen : Option RunStatus} {job : Job}
    {seen target : CycleStatus} (hpc : sys.workers w = .recording j result status cycleSeen runSeen)
    (hj : sys.db.jobs[j]? = some job) (h : Filed sys (.writeOutcome w) c seen target) :
    result.success = true ∧ job.cycleId = some c ∧ result.statePatch = some target ∧
      cycleSeen = some seen := by
  cases h with
  | patch w j' result' status' job' c seen target runSeen' hpc' hj' hresult hpatch hc =>
    rw [hpc] at hpc'
    obtain ⟨rfl, rfl, rfl, rfl, rfl⟩ := WorkerPc.recording.inj hpc'
    obtain rfl := Option.some.inj (hj.symm.trans hj')
    exact ⟨hresult, hc, hpatch, rfl⟩

theorem applyStatePatch_cases (db : Db) (job : Job) (result : OperatorResult)
    (cycleSeen : Option CycleStatus) :
    (∃ k target seen, job.cycleId = some k ∧ result.statePatch = some target ∧
      cycleSeen = some seen ∧
      applyStatePatch db job result cycleSeen = setCycleStatus db k seen target) ∨
    (applyStatePatch db job result cycleSeen = db ∧ ∀ k target seen, job.cycleId = some k →
      result.statePatch = some target → cycleSeen ≠ some seen) := by
  unfold applyStatePatch
  split
  · exact .inl ⟨_, _, _, ‹_›, ‹_›, rfl, rfl⟩
  · rename_i hnone
    exact .inr ⟨rfl, hnone⟩

theorem writeOutcome_moves {w : WorkerId} {j : JobId} {result : OperatorResult} {status : JobStatus}
    {cycleSeen : Option CycleStatus} {runSeen : Option RunStatus} {job : Job} (c : CycleId)
    (hpc : sys.workers w = .recording j result status cycleSeen runSeen)
    (hj : sys.db.jobs[j]? = some job) :
    Unmoved sys (.writeOutcome w) (Worker.writeOutcome sys.db j job result status cycleSeen runSeen) c ∨
      ∃ seen target, MovedBy sys (.writeOutcome w)
        (Worker.writeOutcome sys.db j job result status cycleSeen runSeen) c seen target := by
  have hfiled : ∀ seen target, Filed sys (.writeOutcome w) c seen target → result.success = true ∧
      job.cycleId = some c ∧ result.statePatch = some target ∧ cycleSeen = some seen :=
    fun _ _ h => filed_writeOutcome hpc hj h
  unfold Worker.writeOutcome
  by_cases hresult : result.success = true
  · rw [if_pos hresult]
    dsimp only
    have hpatched : ∀ db : Db, db.cycles = (applyStatePatch sys.db job result cycleSeen).cycles →
        db.moves c = (applyStatePatch sys.db job result cycleSeen).moves c →
        Unmoved sys (.writeOutcome w) db c ∨
          ∃ seen target, MovedBy sys (.writeOutcome w) db c seen target := by
      intro db hcycles hmoves
      obtain ⟨k, target, seen, hk, hpatch, rfl, hset⟩ | ⟨hsame, hnone⟩ :=
        applyStatePatch_cases sys.db job result cycleSeen
      · rw [hset] at hcycles
        rw [hset, moves_setCycleStatus] at hmoves
        by_cases hkc : k = c
        · subst hkc
          rw [if_pos rfl] at hmoves
          refine .inr ⟨seen, target, .patch w j result status job k seen target runSeen hpc hj
            hresult hpatch hk, hmoves, fun old hold => ?_⟩
          rw [hcycles]
          exact cycles_setCycleStatus seen target hold
        · rw [if_neg hkc, List.append_nil] at hmoves
          refine .inl ⟨hmoves, fun _ _ h => hkc ?_⟩
          exact Option.some.inj (hk.symm.trans (hfiled _ _ h).2.1)
      · refine .inl ⟨by rw [hmoves, hsame], fun seen target h => ?_⟩
        obtain ⟨-, hk, hpatch, hseen⟩ := hfiled _ _ h
        exact hnone c target seen hk hpatch hseen
    split
    · exact hpatched _ rfl (moves_still rfl (fun _ => rfl) c)
    · exact hpatched _ rfl (moves_still rfl (fun _ => rfl) c)
  · rw [if_neg hresult]
    refine .inl ⟨?_, fun _ _ h => hresult (hfiled _ _ h).1⟩
    refine (moves_still rfl (fun _ => rfl) c).trans ?_
    unfold failJob updateJob markExecutionJobFailed
    split
    · split
      · rfl
      · exact moves_still rfl (fun _ => rfl) c
    · rfl

theorem ensureRunning_moves (seen db : Db) (k c : CycleId) :
    (ensureRunning seen db k).moves c = db.moves c := by
  unfold ensureRunning
  split
  · rfl
  · split <;> rfl

theorem respond_moves {q : Nat} {body : Request} {seen db : Db} (c : CycleId)
    (hpc : sys.requests q = .opened body seen) (hanswer : Responds seen sys.db body db) :
    Unmoved sys (.respond q) db c ∨ ∃ old target, MovedBy sys (.respond q) db c old target := by
  have hquiet : (∀ k target, body ≠ .transitionCycle k target) → db.moves c = sys.db.moves c →
      Unmoved sys (.respond q) db c := by
    refine fun hbody hmoves => ⟨hmoves, fun old target h => ?_⟩
    cases h with
    | transitionCycle _ _ _ _ _ hpc' =>
      exact hbody _ _ (RequestPc.opened.inj (hpc.symm.trans hpc')).1
  cases hanswer with
  | transitionCycle k target cycle hcycle hvalid =>
    by_cases hkc : k = c
    · subst hkc
      refine .inr ⟨cycle.status, target, .transitionCycle q k target seen cycle hpc hcycle hvalid,
        ?_, fun old hold => cycles_setCycleStatus cycle.status target hold⟩
      rw [moves_setCycleStatus, if_pos rfl]
    · refine .inl ⟨?_, fun old target' h => ?_⟩
      · rw [moves_setCycleStatus, if_neg hkc, List.append_nil]
      · cases h with
        | transitionCycle _ _ _ _ _ hpc' =>
          obtain ⟨hbody, -⟩ := RequestPc.opened.inj (hpc.symm.trans hpc')
          exact hkc (Request.transitionCycle.inj hbody).1
  | startAnalysis k cycle moved hcycle hmoved =>
    rcases hmoved with ⟨-, rfl⟩ | ⟨-, rfl⟩ <;>
      exact .inl (hquiet nofun (moves_still rfl (fun _ => rfl) c))
  | startRun spec row cycle moved hspec hvalidated hcycle hmoved =>
    rcases hmoved with ⟨-, rfl⟩ | ⟨-, rfl⟩ <;>
      exact .inl (hquiet nofun (moves_still rfl (fun _ => rfl) c))
  | stopLoop k cycle moved hcycle hmoved =>
    rcases hmoved with ⟨-, rfl⟩ | ⟨-, rfl⟩ <;>
      exact .inl (hquiet nofun (moves_still rfl (fun _ => rfl) c))
  | resumeRun r run => exact .inl (hquiet nofun (ensureRunning_moves seen _ run.cycleId c))
  | retryRun r run => exact .inl (hquiet nofun (ensureRunning_moves seen sys.db run.cycleId c))
  | _ => exact .inl (hquiet nofun (moves_still rfl (fun _ => rfl) c))

theorem step_moves (h : Step settings sys l sys') (c : CycleId) :
    Unmoved sys l sys'.db c ∨ ∃ seen target, MovedBy sys l sys'.db c seen target := by
  cases h with
  | writeOutcome w j result status cycleSeen runSeen job hpc hj => exact writeOutcome_moves c hpc hj
  | respond q body seen db hpc hanswer => exact respond_moves c hpc hanswer
  | reject q body seen error hpc herror =>
    refine .inl ⟨rfl, fun old target h => ?_⟩
    cases h with
    | transitionCycle _ k _ _ cycle hpc' hcycle hvalid =>
      obtain ⟨rfl, rfl⟩ := RequestPc.opened.inj (hpc.symm.trans hpc')
      simp [Api.respond, transitionCycle, hcycle, hvalid] at herror
  | exec w world j phase job txn next hpc hj hout =>
    exact .inl ⟨moves_still rfl (execute_still hout) c, fun _ _ h => absurd h nofun⟩
  | writeStale w stale =>
    exact .inl ⟨reclaimStaleJobs_moves _ _ stale c, fun _ _ h => absurd h nofun⟩
  | start | acknowledge => exact .inl ⟨moves_still rfl (fun _ => rfl) c, fun _ _ h => absurd h nofun⟩
  | _ => exact .inl ⟨rfl, fun _ _ h => absurd h nofun⟩

/-! ### New cycles -/

theorem length_setCycleStatus (db : Db) (k : CycleId) (seen target : CycleStatus) :
    (setCycleStatus db k seen target).cycles.length = db.cycles.length :=
  Table.length_update

theorem writeOutcome_length (db : Db) (j : JobId) (job : Job) (result : OperatorResult)
    (status : JobStatus) (cycleSeen : Option CycleStatus) (runSeen : Option RunStatus) :
    (Worker.writeOutcome db j job result status cycleSeen runSeen).cycles.length =
      db.cycles.length := by
  have hpatched : (applyStatePatch db job result cycleSeen).cycles.length = db.cycles.length := by
    obtain ⟨k, target, seen, -, -, -, hset⟩ | ⟨hsame, -⟩ :=
      applyStatePatch_cases db job result cycleSeen
    · rw [hset, length_setCycleStatus]
    · rw [hsame]
  unfold Worker.writeOutcome
  dsimp only
  split
  · split <;> exact hpatched
  · exact congrArg List.length (markExecutionJobFailed_cycles ..)

theorem ensureRunning_length (seen db : Db) (k : CycleId) :
    (ensureRunning seen db k).cycles.length = db.cycles.length := by
  unfold ensureRunning
  split
  · rfl
  · split
    · rfl
    · exact Table.length_update

theorem respond_cycles {body : Request} {seen db new : Db} (h : Responds seen db body new) :
    new.cycles.length = db.cycles.length ∨
      ∃ row, new.cycles = db.cycles ++ [row] ∧ row.status = .created := by
  cases h with
  | createCycle charter policy => exact .inr ⟨_, rfl, rfl⟩
  | transitionCycle k target cycle => exact .inl (length_setCycleStatus ..)
  | startAnalysis k cycle moved hcycle hmoved =>
    rcases hmoved with ⟨-, rfl⟩ | ⟨-, rfl⟩
    · exact .inl Table.length_update
    · exact .inl rfl
  | startRun spec row cycle moved hspec hvalidated hcycle hmoved =>
    rcases hmoved with ⟨-, rfl⟩ | ⟨-, rfl⟩
    · exact .inl Table.length_update
    · exact .inl rfl
  | resumeRun r run => exact .inl (ensureRunning_length ..)
  | retryRun r run => exact .inl (ensureRunning_length ..)
  | stopLoop k cycle moved hcycle hmoved =>
    rcases hmoved with ⟨-, rfl⟩ | ⟨-, rfl⟩
    · exact .inl Table.length_update
    · exact .inl rfl
  | _ => exact .inl rfl

theorem step_cycleBorn (h : Step settings sys l sys') {new : ResearchCycle}
    (hold : sys.db.cycles[c]? = none) (hnew : sys'.db.cycles[c]? = some new) :
    new.status = .created := by
  have hcycles : sys'.db.cycles.length = sys.db.cycles.length ∨
      ∃ row, sys'.db.cycles = sys.db.cycles ++ [row] ∧ row.status = .created := by
    cases h with
    | writeOutcome w j result status cycleSeen runSeen job =>
      exact .inl (writeOutcome_length ..)
    | writeStale w stale => exact .inl (congrArg List.length (reclaimStaleJobs_cycles ..))
    | respond q body seen db hpc hanswer => exact respond_cycles hanswer
    | _ => exact .inl rfl
  obtain hlength | ⟨row, hrow, hstatus⟩ := hcycles
  · have hout := List.getElem?_eq_none_iff.mp hold
    rw [List.getElem?_eq_none (hlength ▸ hout)] at hnew
    exact absurd hnew nofun
  · rw [hrow] at hnew
    obtain hin | ⟨-, rfl⟩ := Table.getElem?_append_singleton hnew
    · exact absurd (hold.symm.trans hin) nofun
    · exact hstatus

/-! ### The invariant -/

/-- The status a cycle is created with; cycles of the first state count as created there. -/
def origin (start : Runtime) (c : CycleId) : CycleStatus :=
  (start.db.cycleStatus? c).getD .created

/-- A worker about to apply a patch has found the cycle of its job. -/
def PatchesExist (sys : Runtime) : Prop :=
  ∀ w j result status seen runSeen, sys.workers w = .recording j result status (some seen) runSeen →
    ∃ job c cycle, sys.db.jobs[j]? = some job ∧ job.cycleId = some c ∧ sys.db.cycles[c]? = some cycle

theorem patchesExist_step (hinv : PatchesExist sys) (h : Step settings sys l sys') :
    PatchesExist sys' := by
  intro w j result status seen runSeen hpc
  rcases recording_patch h hpc with hold | ⟨job, c, cycle, target, hj, hc, hcycle, -, -⟩
  · obtain ⟨job, c, cycle, hj, hc, hcycle⟩ := hinv w j result status seen runSeen hold
    have hgrows := step_grows h
    obtain ⟨job', hj', hsame⟩ := hgrows.jobs j job hj
    obtain ⟨cycle', hcycle', -⟩ := hgrows.cycles c cycle hcycle
    exact ⟨job', c, cycle', hj', hsame.cycle.trans hc, hcycle'⟩
  · exact ⟨job, c, cycle, hj, hc, hcycle⟩

structure Journaled (start sys : Runtime) : Prop where
  past : ReadsPast sys
  patches : PatchesExist sys
  grown : Grows start.db sys.db
  faithful : ∀ c cycle, sys.db.cycles[c]? = some cycle →
    Journal.Faithful (origin start c) (sys.db.moves c) cycle.status
  unborn : ∀ c, sys.db.cycles[c]? = none → sys.db.moves c = []

theorem Journaled.filed_exists (hinv : Journaled start sys) {seen target : CycleStatus}
    (h : Filed sys l c seen target) : ∃ cycle, sys.db.cycles[c]? = some cycle := by
  cases h with
  | patch w j result status job c seen target runSeen hpc hj hresult hpatch hc =>
    obtain ⟨job', c', cycle, hj', hc', hcycle⟩ := hinv.patches w j result status seen runSeen hpc
    obtain rfl := Option.some.inj (hj.symm.trans hj')
    obtain rfl := Option.some.inj (hc.symm.trans hc')
    exact ⟨cycle, hcycle⟩
  | transitionCycle q c target seen cycle hpc hcycle hvalid =>
    obtain ⟨now, hnow, -⟩ := (hinv.past q _ seen hpc).cycles c cycle hcycle
    exact ⟨now, hnow⟩

theorem Journaled.step (hinv : Journaled start sys) (hok : Recorded sys l)
    (h : Step settings sys l sys') : Journaled start sys' where
  past := readsPast_step hinv.past h
  patches := patchesExist_step hinv.patches h
  grown := hinv.grown.trans (step_grows h)
  faithful := by
    intro c cycle hcycle
    obtain ⟨hmoves, hnone⟩ | ⟨seen, target, hfiled, hmoves, hstatus⟩ := step_moves h c
    · rw [hmoves]
      cases hold : sys.db.cycles[c]? with
      | none =>
        have hunborn : start.db.cycles[c]? = none := by
          by_contra hsome
          obtain ⟨first, hfirst⟩ := Option.ne_none_iff_exists'.mp hsome
          obtain ⟨now, hnow, -⟩ := hinv.grown.cycles c first hfirst
          exact absurd (hold.symm.trans hnow) nofun
        rw [hinv.unborn c hold, step_cycleBorn h hold hcycle, origin, Db.cycleStatus?, hunborn]
        exact .nil
      | some old =>
        obtain ⟨new, hnew, -, hchange⟩ := step_cycle h hold
        obtain rfl := Option.some.inj (hcycle.symm.trans hnew)
        have hkept : cycle.status = old.status := by
          obtain hkept | ⟨seen, target, hwrite, hset⟩ := hchange
          · exact hkept
          · by_cases hne : seen = target
            · rw [hset, hne, ormSet, if_pos rfl]
            · exact absurd (hok.filed c seen target hwrite hne) (hnone seen target)
        rw [hkept]
        exact hinv.faithful c old hold
    · obtain ⟨old, hold⟩ := hinv.filed_exists hfiled
      obtain ⟨new, hnew, hset⟩ := hstatus old hold
      obtain rfl := Option.some.inj (hcycle.symm.trans hnew)
      have hfresh := hok.fresh c seen target old hfiled hold
      rw [hmoves, hset, ormSet_of_eq hfresh]
      exact (hinv.faithful c old hold).snoc hfresh.symm
  unborn := by
    intro c hcycle
    have hold : sys.db.cycles[c]? = none := by
      by_contra hsome
      obtain ⟨old, hold⟩ := Option.ne_none_iff_exists'.mp hsome
      obtain ⟨now, hnow, -⟩ := (step_grows h).cycles c old hold
      exact absurd (hcycle.symm.trans hnow) nofun
    obtain ⟨hmoves, -⟩ | ⟨seen, target, hfiled, -⟩ := step_moves h c
    · rw [hmoves, hinv.unborn c hold]
    · obtain ⟨old, hsome⟩ := hinv.filed_exists hfiled
      exact absurd (hold.symm.trans hsome) nofun

theorem Journaled.of_initial (h : start.Initial) : Journaled start start where
  past := by
    intro q body seen hpc
    rw [h.requests] at hpc
    exact absurd hpc nofun
  patches := by
    intro w j result status seen runSeen hpc
    rw [h.workers] at hpc
    exact absurd hpc nofun
  grown := .refl _
  faithful := by
    intro c cycle hcycle
    rw [Db.moves, h.events, origin, Db.cycleStatus?, hcycle]
    exact .nil
  unborn := by
    intro c _
    rw [Db.moves, h.events]
    rfl

/-- The log of a cycle chains from the status it was created with to its status. -/
theorem log_faithful {settings : Settings} {start sys : Runtime} (hstart : start.Initial)
    (hrun : Reaches Recorded (Runtime.step settings) start sys) {c : CycleId} {cycle : ResearchCycle}
    (hc : sys.db.cycles[c]? = some cycle) :
    Journal.Chained (origin start c) (sys.db.moves c) ∧
      Journal.replay (origin start c) (sys.db.moves c) = cycle.status := by
  have hinv : Journaled start sys :=
    hrun.invariant (Journaled start) (fun _ _ _ hinv hok hstep => hinv.step hok (step_cases hstep))
      (.of_initial hstart)
  exact ⟨(hinv.faithful c cycle hc).chained, (hinv.faithful c cycle hc).replayed⟩

theorem recorded_receive (q : Nat) (body : Request) : Recorded sys (.receive q body) where
  filed := fun _ _ _ h => absurd h nofun
  fresh := fun _ _ _ _ h => absurd h nofun

theorem recorded_transition {q : Nat} {target : CycleStatus}
    (hpc : sys.requests q = .opened (.transitionCycle c target) sys.db) :
    Recorded sys (.respond q) where
  filed := by
    intro k seen target' hwrite _
    cases hwrite with
    | transitionCycle _ _ _ read cycle hpc' hcycle hvalid =>
      exact .transitionCycle q k target' read cycle hpc' hcycle hvalid
    | startAnalysis _ _ _ _ hpc' | startRun _ _ _ _ _ hpc' | control _ _ _ _ _ _ hpc'
    | stopLoop _ _ _ _ hpc' => exact absurd (RequestPc.opened.inj (hpc.symm.trans hpc')).1 nofun
  fresh := by
    intro k seen target' cycle hfiled hc
    cases hfiled with
    | transitionCycle _ _ _ read row hpc' hrow =>
      obtain ⟨-, rfl⟩ := RequestPc.opened.inj (hpc.symm.trans hpc')
      rw [Option.some.inj (hc.symm.trans hrow)]

/-- A transition that the table allows is requested and answered. -/
theorem reaches_transition (settings : Settings) {cycle : ResearchCycle} (target : CycleStatus)
    (hidle : sys.requests 0 = .idle) (hc : sys.db.cycles[0]? = some cycle)
    (hvalid : validTransition cycle.status target = true) :
    ∃ sys' cycle', Reaches Recorded (Runtime.step settings) sys sys' ∧ sys'.requests 0 = .idle ∧
      sys'.db.cycles[0]? = some cycle' ∧ cycle'.status = target := by
  have hat (sys : Runtime) (db : Db) (pc : RequestPc) : (sys.moveRequest 0 db pc).requests 0 = pc := by
    simp [Runtime.moveRequest]
  obtain ⟨mid, hmid⟩ : ∃ mid, mid =
      sys.moveRequest 0 sys.db (.opened (.transitionCycle 0 target) sys.db) := ⟨_, rfl⟩
  have hpc : mid.requests 0 = .opened (.transitionCycle 0 target) mid.db := by
    rw [hmid, hat]
    rfl
  have hc' : mid.db.cycles[0]? = some cycle := by rwa [hmid]
  have hreceive : Runtime.step settings sys (.receive 0 (.transitionCycle 0 target)) = some mid := by
    simp only [Runtime.step, Runtime.receive, hidle, hmid]
  have hrespond : Runtime.step settings mid (.respond 0) =
      some (mid.moveRequest 0 (setCycleStatus mid.db 0 cycle.status target) .idle) := by
    simp only [Runtime.step, Runtime.respond, hpc, Api.respond, transitionCycle, hc', hvalid, if_true]
  refine ⟨_, { cycle with
      status := ormSet cycle.status target cycle.status
      updatedAt := mid.db.now
      startedAt := if target = .discoveryReady ∧ cycle.startedAt = none then some mid.db.now
        else cycle.startedAt
      completedAt := if target = .closed then some mid.db.now else cycle.completedAt },
    ((Reaches.refl _).tail ⟨_, recorded_receive _ _, hreceive⟩).tail
      ⟨_, recorded_transition hpc, hrespond⟩, hat .., ?_, ormSet_of_eq rfl⟩
  dsimp only [Runtime.moveRequest, setCycleStatus, emit]
  rw [Table.getElem?_update_self, hc']
  rfl

/-- Three transitions of a new cycle. -/
theorem log_faithful_screened : ∃ sys cycle,
    Reaches Recorded (Runtime.step {}) Runtime.newCycle sys ∧ sys.db.cycles[0]? = some cycle ∧
      cycle.status = .analysisReady ∧
      Journal.Chained (origin Runtime.newCycle 0) (sys.db.moves 0) ∧
      Journal.replay (origin Runtime.newCycle 0) (sys.db.moves 0) = cycle.status := by
  have hcreated : Runtime.newCycle.db.cycles[0]? = some { charterId := 0 } := rfl
  obtain ⟨ready, cycle, hready, hidle, hc, hstatus⟩ :=
    reaches_transition {} .discoveryReady rfl hcreated rfl
  obtain ⟨screened, cycle', hscreened, hidle', hc', hstatus'⟩ :=
    reaches_transition {} .discoveryScreened hidle hc (by rw [hstatus]; rfl)
  obtain ⟨sys, last, hsys, -, hlast, hanalysis⟩ :=
    reaches_transition {} .analysisReady hidle' hc' (by rw [hstatus']; rfl)
  have hrun := (hready.trans hscreened).trans hsys
  exact ⟨sys, last, hrun, hlast, hanalysis, log_faithful Runtime.newCycle_initial hrun hlast⟩

/-- The start of an analysis leaves no trace in the log of the cycle it moves. -/
theorem analysis_start_unlogged : ∃ sys cycle, Runtime.newCycle.Initial ∧
    Reaches Unguarded (Runtime.step {}) Runtime.newCycle sys ∧ sys.db.cycles[0]? = some cycle ∧
      cycle.status = .analysisReady ∧
      Journal.replay (origin Runtime.newCycle 0) (sys.db.moves 0) = .discoveryScreened := by
  obtain ⟨sys, hrun, htest⟩ := Runtime.run_of_anyone
    (show (perform Runtime.anyone (Runtime.step {}) Runtime.newCycle
      [.receive 0 (.transitionCycle 0 .discoveryReady), .respond 0,
        .receive 0 (.transitionCycle 0 .discoveryScreened), .respond 0,
        .receive 0 (.startAnalysis 0), .respond 0]).any
      (fun sys => sys.db.cycleStatus? 0 == some .analysisReady &&
        Journal.replay (origin Runtime.newCycle 0) (sys.db.moves 0) == .discoveryScreened) = true
      by decide +kernel)
  simp only [Bool.and_eq_true, beq_iff_eq] at htest
  obtain ⟨cycle, hc, hstatus⟩ := Option.map_eq_some_iff.mp htest.1
  exact ⟨sys, cycle, Runtime.newCycle_initial, hrun, hc, hstatus, htest.2⟩

end Synthetos.Cycles
