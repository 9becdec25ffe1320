import Synthetos.Cycles.KeepsWaiting
import Synthetos.Runtime.Solo

/-!
# State patches

While a cycle moves by turns, every status patch a worker applies follows the transition table, and
no worker process ends over one.
-/

namespace Synthetos.Cycles

open Synthetos.Core Storage Lib Worker Api Jobs

variable {settings : Settings} {start sys sys' : Runtime} {l : Label}

theorem inStep_step (hinv : InStep sys) (hok : InTurn settings sys l)
    (h : Step settings sys l sys') : InStep sys' where
  owned := owned_step hinv.owned h
  staged _ _ _ _ _ hpc hj ht := keeps_staged hinv h hpc hj ht
  pending _ _ _ hj hjob hstatus := keeps_pending hinv hok h hj hjob hstatus
  working _ _ _ _ hworks hj hjob := keeps_working hinv hok h hworks hj hjob
  alone _ _ _ hbusy hbusy' := keeps_alone hinv hok h hbusy hbusy'
  waiting _ _ _ _ hj hjob hstatus hc := keeps_waiting hinv hok h hj hjob hstatus hc
  atWork _ _ _ _ _ hworks hj hjob hc := keeps_atWork hinv hok h hworks hj hjob hc
  owed _ _ _ _ howes hc := keeps_owed hinv hok h howes hc
  recorded _ _ _ _ _ _ _ _ _ _ hpc hj hjc ht hc := keeps_recorded hinv hok h hpc hj hjc ht hc

theorem inStep_initial (hstart : start.Initial) : InStep start where
  owned := owned_initial hstart
  staged w j result job t hpc := by
    rw [hstart.workers] at hpc
    exact absurd hpc nofun
  pending j job c hj := by
    rw [hstart.jobs] at hj
    exact absurd hj nofun
  working w j job c hworks := by
    rw [hstart.workers] at hworks
    exact absurd hworks nofun
  alone w w' c hbusy := by
    cases hbusy with
    | works j job hworks hj =>
      rw [hstart.jobs] at hj
      exact absurd hj nofun
    | owes t howes =>
      obtain ⟨j, result, job, -, hj, -⟩ := howes.job
      rw [hstart.jobs] at hj
      exact absurd hj nofun
  waiting j job c cycle hj := by
    rw [hstart.jobs] at hj
    exact absurd hj nofun
  atWork w j job c cycle hworks hj := by
    rw [hstart.jobs] at hj
    exact absurd hj nofun
  owed w c t cycle howes := by
    obtain ⟨j, result, job, -, hj, -⟩ := howes.job
    rw [hstart.jobs] at hj
    exact absurd hj nofun
  recorded w j result status cycleSeen runSeen job c t cycle hpc := by
    rw [hstart.workers] at hpc
    exact absurd hpc nofun

theorem inStep_run (hstart : start.Initial)
    (h : Reaches (InTurn settings) (Runtime.step settings) start sys) : InStep sys :=
  h.invariant InStep (fun _ _ _ hinv hok hstep => inStep_step hinv hok (step_cases hstep))
    (inStep_initial hstart)

theorem outstanding_valid {w : WorkerId} {j : JobId} {result : OperatorResult} {job : Job}
    {c : CycleId} {t : CycleStatus} {cycle : ResearchCycle} (hinv : InStep sys)
    (hpc : outcomeOf (sys.workers w) = some (j, result)) (hj : sys.db.jobs[j]? = some job)
    (hjc : job.cycleId = some c) (ht : patchOf result = some t)
    (hc : sys.db.cycles[c]? = some cycle) : validTransition cycle.status t = true := by
  have hjob : Staged c job := ⟨hjc, hinv.staged w j result job t hpc hj ht⟩
  exact hinv.owed w c t cycle ⟨j, result, job, hpc, hj, hjob, ht⟩ hc

/-- Every patch a worker is about to apply follows the table from the status the cycle has at that
moment, and a worker that checks its patch goes on. -/
theorem patches_apply {settings : Settings} {start sys : Runtime} (hstart : start.Initial)
    (hrun : Reaches (InTurn settings) (Runtime.step settings) start sys) :
    (∀ w j result (job : Job) c t (cycle : ResearchCycle),
      outcomeOf (sys.workers w) = some (j, result) → sys.db.jobs[j]? = some job →
        job.cycleId = some c → patchOf result = some t → sys.db.cycles[c]? = some cycle →
          validTransition cycle.status t = true) ∧
      ∀ w sys', Runtime.step settings sys (.readTarget w) = some sys' →
        ∃ j result seen cycleSeen runSeen,
          sys'.workers w = .recording j result seen cycleSeen runSeen := by
  have hinv := inStep_run hstart hrun
  constructor
  · intro w j result job c t cycle hpc hj hjc ht hc
    exact outstanding_valid hinv hpc hj hjc ht hc
  · intro w sys' hstep
    generalize hl : Label.readTarget w = l at hstep
    cases step_cases hstep with
    | readFailure w' | readNoPatch w' | readPatch w' =>
      obtain rfl := Label.readTarget.inj hl
      rw [Runtime.moveWorker_self]
      exact ⟨_, _, _, _, _, rfl⟩
    | raisePatch w' j result seen job cycle target hpc hj hresult hpatch hvalid =>
      obtain ⟨htarget, c, hjc, hc⟩ := patchTarget_eq_some hpatch
      have houtcome : outcomeOf (sys.workers w') = some (j, result) := by
        rw [hpc]
        rfl
      have ht : patchOf result = some target := by
        rw [patchOf, if_pos hresult, htarget]
      have hallowed := outstanding_valid hinv houtcome hj hjc ht hc
      exact absurd (hallowed.symm.trans hvalid) fun h => by cases h
    | _ => exact absurd hl fun h => by cases h

/-! ### The first discovery of a cycle -/

def asksDiscovery (sys : Runtime) : Bool :=
  match sys.requests 0 with
  | .opened (.startDiscovery c) _ => sys.db.cycleStatus? c == some .created
  | _ => false

def startsOperator (sys : Runtime) : Bool :=
  match sys.workers 0 with
  | .executing _ .start => true
  | _ => false

def keepsResult (sys : Runtime) : Bool :=
  match sys.workers 0 with
  | .returned j _ => sys.db.jobs[j]?.any (·.status != .cancelled)
  | _ => false

/-- What worker 0 and request 0 do in the first `start_discovery` of a new cycle. -/
def discovers (sys : Runtime) : Label → Bool
  | .receive _ _ | .start _ | .readTarget _ | .writeOutcome _ => true
  | .respond _ => sys.workerIdle && sys.db.jobs.isEmpty && asksDiscovery sys
  | .claim _ _ => sys.workerIdle
  | .exec _ _ => startsOperator sys
  | .readOutcome _ => keepsResult sys
  | _ => false

def firstDiscovery (sys : Runtime) (l : Label) : Bool := sys.single l && discovers sys l

theorem not_busy_of_idle {w : WorkerId} {c : CycleId} (h : sys.workers w = .idle) :
    ¬ Busy sys w c := by
  intro hbusy
  cases hbusy with
  | works j job hworks =>
    rw [h] at hworks
    exact absurd hworks nofun
  | owes t howes =>
    obtain ⟨j, result, job, hpc, -⟩ := howes.job
    rw [h] at hpc
    exact absurd hpc nofun

theorem idle_of_workerIdle (hsolo : sys.Solo) (h : sys.workerIdle = true) (w : WorkerId) :
    sys.workers w = .idle := by
  by_cases hw : w = 0
  · unfold Runtime.workerIdle at h
    split at h
    · rw [hw]
      assumption
    · exact absurd h nofun
  · exact hsolo.workers w hw

theorem no_requeue (h : ∀ j, ¬ Returns settings sys j l) (j : JobId) (job : Job) (c : CycleId)
    (cycle : ResearchCycle) (hreturns : Returns settings sys j l) (_ : sys.db.jobs[j]? = some job)
    (_ : Staged c job) (_ : sys.db.cycles[c]? = some cycle) :
    Newest sys.db.jobs (Staged c) j ∧ stage job = some cycle.status ∧ ∀ w, ¬ Busy sys w c :=
  absurd hreturns (h j)

theorem inTurn_of_request {q : Nat} {c : CycleId} {seen : Db} (hidle : ∀ w, sys.workers w = .idle)
    (hjobs : sys.db.jobs = []) (hpc : sys.requests q = .opened (.startDiscovery c) seen)
    (hstatus : sys.db.cycleStatus? c = some .created) : InTurn settings sys (.respond q) := by
  have nowrite (c' : CycleId) (seen' target : CycleStatus) :
      ¬ CycleWrite sys (.respond q) c' seen' target := by
    intro hwrite
    cases hwrite with
    | transitionCycle _ _ _ _ _ hpc' | startAnalysis _ _ _ _ hpc' | startRun _ _ _ _ _ hpc'
    | control _ _ _ _ _ _ hpc' | stopLoop _ _ _ _ hpc' =>
      exact absurd (RequestPc.opened.inj (hpc.symm.trans hpc')).1 nofun
  have hquiet (c' : CycleId) : Undisturbed sys q c' := by
    refine ⟨fun w => not_busy_of_idle (hidle w), .inr fun j job hj => ?_⟩
    rw [hjobs] at hj
    exact absurd hj nofun
  refine ⟨fun _ _ _ _ _ h => absurd h nofun, ?requeue, fun _ h => absurd h nofun,
    fun _ _ _ _ h => absurd h nofun, ?write, ?add, fun _ _ _ _ _ h => absurd h nofun⟩
  case requeue =>
    intro j job c' cycle _ hj
    rw [hjobs] at hj
    exact absurd hj nofun
  case write =>
    intro q' c' seen' target hl hwrite
    obtain rfl := Label.respond.inj hl
    exact absurd hwrite (nowrite c' seen' target)
  case add =>
    intro q' new c' cycle hl hborn hnew hc
    obtain rfl := Label.respond.inj hl
    refine ⟨hquiet c', .inl ⟨?_, fun seen' target hwrite => absurd hwrite (nowrite c' seen' target)⟩⟩
    cases hborn with
    | requested _ body seen' _ hpc' hrequested =>
      obtain ⟨rfl, -⟩ := RequestPc.opened.inj (hpc.symm.trans hpc')
      cases hrequested with
      | startDiscovery _ row hrow =>
        obtain rfl := Option.some.inj hnew.cycle
        rw [Db.cycleStatus?, hc] at hstatus
        rw [Option.some.inj hstatus]
        rfl

/-- A step of a worker takes no turn away when a claim finds the cycle without patches, an operator
starts and the job of a result was not cancelled. -/
theorem inTurn_of_worker {w : WorkerId} (hl : l.worker? = some w)
    (hclaim : ∀ locked c w' t, l = .claim w locked → ¬ Owes sys w' c t)
    (hexec : ∀ world j s, l = .exec w world → sys.workers w ≠ .executing j (.compiled s))
    (hread : ∀ j result (job : Job), l = .readOutcome w → sys.workers w = .returned j result →
      sys.db.jobs[j]? = some job → job.status ≠ .cancelled)
    (hcrash : l ≠ .crash w) (hstale : l ≠ .writeStale w) : InTurn settings sys l where
  claim w' locked j job c h _ _ _ v t := by
    subst h
    obtain rfl := Option.some.inj hl
    exact hclaim locked c v t rfl
  requeue j job c cycle hreturns := by
    cases hreturns with
    | reclaim v =>
      obtain rfl := Option.some.inj hl
      exact absurd rfl hstale
    | resumeJob | resumeGate => exact absurd hl nofun
  crash v h := by
    subst h
    obtain rfl := Option.some.inj hl
    exact absurd rfl hcrash
  cancelled v j result job h hpc hj hstatus := by
    subst h
    obtain rfl := Option.some.inj hl
    exact absurd hstatus (hread j result job rfl hpc hj)
  write q _ _ _ h := by
    subst h
    exact absurd hl nofun
  add q _ _ _ h := by
    subst h
    exact absurd hl nofun
  ungated v world j phase job h hpc _ s _ _ hphase := by
    subst h hphase
    obtain rfl := Option.some.inj hl
    exact absurd hpc (hexec world j s rfl)

theorem inTurn_of_firstDiscovery (hsolo : sys.Solo) (h : firstDiscovery sys l = true) :
    InTurn settings sys l := by
  rw [firstDiscovery, Bool.and_eq_true] at h
  obtain ⟨hsingle, h⟩ := h
  cases l with
  | tick | heartbeat | readStale | writeStale | crash | drop => cases h
  | receive q body =>
    exact ⟨fun _ _ _ _ _ h => (by cases h), no_requeue fun _ h => (by cases h),
      fun _ h => (by cases h), fun _ _ _ _ h => (by cases h), fun _ _ _ _ h => (by cases h),
      fun _ _ _ _ h => (by cases h), fun _ _ _ _ _ h => (by cases h)⟩
  | respond q =>
    simp only [discovers, Bool.and_eq_true, List.isEmpty_iff] at h
    obtain ⟨⟨hidle, hjobs⟩, hopened⟩ := h
    unfold asksDiscovery at hopened
    split at hopened
    · have hq : q = 0 := by simpa [Runtime.single, Label.worker?, Label.request?] using hsingle
      subst hq
      exact inTurn_of_request (idle_of_workerIdle hsolo hidle) hjobs ‹_› (beq_iff_eq.mp hopened)
    · cases hopened
  | start w | readTarget w | writeOutcome w =>
    exact inTurn_of_worker rfl (fun _ _ _ _ h => by cases h) (fun _ _ _ h => by cases h)
      (fun _ _ _ h => by cases h) (fun h => by cases h) (fun h => by cases h)
  | claim w locked =>
    exact inTurn_of_worker rfl
      (fun _ _ w' t _ howes => not_busy_of_idle (idle_of_workerIdle hsolo h w') (.owes t howes))
      (fun _ _ _ h => by cases h) (fun _ _ _ h => by cases h) (fun h => by cases h) (fun h => by cases h)
  | exec w world =>
    have hw : w = 0 := by simpa [Runtime.single, Label.worker?, Label.request?] using hsingle
    subst hw
    refine inTurn_of_worker rfl (fun _ _ _ _ h => by cases h) ?_
      (fun _ _ _ h => by cases h) (fun h => by cases h) (fun h => by cases h)
    intro _ j s _ hpc
    change startsOperator sys = true at h
    unfold startsOperator at h
    rw [hpc] at h
    cases h
  | readOutcome w =>
    have hw : w = 0 := by simpa [Runtime.single, Label.worker?, Label.request?] using hsingle
    subst hw
    refine inTurn_of_worker rfl (fun _ _ _ _ h => by cases h) (fun _ _ _ h => by cases h)
      ?_ (fun h => by cases h) (fun h => by cases h)
    intro j result job _ hpc hj hcancelled
    change keepsResult sys = true at h
    unfold keepsResult at h
    simp [hpc, hj, hcancelled] at h

theorem single_of_firstDiscovery (h : firstDiscovery sys l = true) : sys.single l = true := by
  rw [firstDiscovery, Bool.and_eq_true] at h
  exact h.1

/-- Worker 0 is about to check the patch of its job. -/
def checksPatch (sys : Runtime) (valid : Bool) : Bool :=
  match sys.workers 0 with
  | .outcome j result _ => result.success && sys.db.jobs[j]?.any fun job =>
      (patchTarget sys.db job result).any fun (cycle, t) => validTransition cycle.status t == valid
  | _ => false

/-- The patch of the first discovery is applied. -/
theorem patches_apply_started : ∃ sys sys' : Runtime,
    Reaches (InTurn {}) (Runtime.step {}) Runtime.newCycle sys ∧
      checksPatch sys true = true ∧ Runtime.step {} sys (.readTarget 0) = some sys' ∧
      ∃ j result seen cycleSeen runSeen,
        sys'.workers 0 = .recording j result seen cycleSeen runSeen := by
  obtain ⟨sys, hrun, -, htest⟩ := Reaches.of_perform_any Runtime.Solo
    (fun _ _ hsolo h => inTurn_of_firstDiscovery hsolo h)
    (fun sys l sys' hsolo h hstep => hsolo.step (single_of_firstDiscovery h) hstep)
    (Runtime.Solo.of_initial Runtime.newCycle_initial)
    (show (perform firstDiscovery (Runtime.step {}) Runtime.newCycle
      [.receive 0 (.startDiscovery 0), .respond 0, .claim 0 [], .start 0, .exec 0 {},
        .readOutcome 0]).any
      (fun sys => checksPatch sys true && (Runtime.step {} sys (.readTarget 0)).isSome) = true by
        decide +kernel)
  rw [Bool.and_eq_true] at htest
  obtain ⟨sys', hstep⟩ := Option.isSome_iff_exists.mp htest.2
  exact ⟨sys, sys', hrun, htest.1, hstep,
    (patches_apply Runtime.newCycle_initial hrun).2 0 sys' hstep⟩

/-- Both specs are run: the second capture patches `verifying` onto itself, and the worker process
ends with the successor enqueued and the job still running. -/
theorem second_run_ends_worker : ∃ sys sys' : Runtime, Runtime.twoSpecs.Initial ∧
    Reaches Unguarded (Runtime.step {}) Runtime.twoSpecs sys ∧
      checksPatch sys false = true ∧ Runtime.step {} sys (.readTarget 0) = some sys' ∧
      (match sys'.workers 0 with | .stopped => True | _ => False) ∧
      sys'.db.jobs.map (fun job => (job.jobType, job.status)) =
        [(.executionSetup, .completed), (.executionSetup, .completed), (.executionRun, .completed),
          (.executionRun, .completed), (.executionCapture, .completed),
          (.executionCapture, .running), (.verificationCheck, .pending),
          (.verificationCheck, .pending)] := by
  obtain ⟨sys, hrun, htest⟩ := Runtime.run_of_anyone
    (show (perform Runtime.anyone (Runtime.step {}) Runtime.twoSpecs
      ([.receive 0 (.startRun 0), .respond 0, .receive 0 (.startRun 1), .respond 0] ++
        Runtime.work [{}] ++ Runtime.work [{}] ++ Runtime.work [{}, {}, {}, {}, {}] ++
        Runtime.work [{}, {}, {}, {}, {}] ++ Runtime.work [{}] ++
        [.claim 0 [], .start 0, .exec 0 {}, .readOutcome 0])).any
      (fun sys => checksPatch sys false &&
        (Runtime.step {} sys (.readTarget 0)).any fun sys' =>
          (match sys'.workers 0 with | .stopped => true | _ => false) &&
          sys'.db.jobs.map (fun job => (job.jobType, job.status)) ==
            [(.executionSetup, .completed), (.executionSetup, .completed),
              (.executionRun, .completed), (.executionRun, .completed),
              (.executionCapture, .completed), (.executionCapture, .running),
              (.verificationCheck, .pending), (.verificationCheck, .pending)]) = true by
        decide +kernel)
  rw [Bool.and_eq_true] at htest
  obtain ⟨sys', hstep, hend⟩ := (Option.any_eq_true _ _).mp htest.2
  rw [Bool.and_eq_true, beq_iff_eq] at hend
  refine ⟨sys, sys', Runtime.twoSpecs_initial, hrun, htest.1, hstep, ?_, hend.2⟩
  have hstopped := hend.1
  split at hstopped
  · trivial
  · exact absurd hstopped nofun

end Synthetos.Cycles
