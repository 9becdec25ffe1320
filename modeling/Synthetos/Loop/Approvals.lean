import Synthetos.Jobs.Latest
import Synthetos.Loop.Decisions
import Synthetos.Loop.Ledger
import Synthetos.Runs.NextJob
import Synthetos.Runtime.Solo

/-!
# Approved gates

A run has at most one gate decision as long as no launch of a run with an approved gate meets
another gate.
-/

namespace Synthetos.Loop

open Synthetos.Core Storage Lib Worker Api Autonomy Protocols Jobs

/-- The gates of an approved run do not fire again at its launch. -/
structure Approved (sys : Runtime) (l : Label) : Prop where
  /-- `loop_decide` is executed again for a run that has a gate decision. -/
  resume : ∀ w world j phase (job : Job) it, l = .exec w world →
    sys.workers w = .executing j phase → sys.db.jobs[j]? = some job → job.jobType = .loopDecide →
      job.payload.preparedRunRecordId = none → iterationOf sys.db (operatorInput j job) = some it →
        gateDecisionsOf sys.db it.runId ≠ [] → Ungated sys.db it
  /-- The compiler prepares a run for the loop of a run that has a gate decision. -/
  compile : ∀ w world j specId (job : Job) (context : LoopContext) spec gate, l = .exec w world →
    sys.workers w = .executing j (.compiled specId) → sys.db.jobs[j]? = some job →
      job.jobType = .protocolCompile → job.payload.loopContext = some context →
        sys.db.specs[specId]? = some spec →
          launchGate (policyOf sys.db spec.cycleId) (currentProfile job.payload) spec
              = .ok (some gate) →
            gateDecisionsOf sys.db context.runRecordId = []

/-- What `loop_decide` looks up exists. -/
structure Founded (db : Db) (job : Job) : Prop where
  prepared : ∀ r, job.payload.preparedRunRecordId = some r → ∃ run, db.runs[r]? = some run
  fresh : job.payload.preparedRunRecordId = none → ∃ r recId run cycle,
    job.payload.runRecordId = some r ∧ job.payload.recommendationId = some recId ∧
      recId < db.recommendations.length ∧ db.runs[r]? = some run ∧
        db.cycles[run.cycleId]? = some cycle

structure Gated (sys : Runtime) : Prop where
  single : ∀ r, (gateDecisionsOf sys.db r).length ≤ 1
  founded : ∀ (j : JobId) (job : Job), sys.db.jobs[j]? = some job → job.jobType = .loopDecide →
    Founded sys.db job

variable {settings : Settings} {start sys sys' : Runtime} {l : Label} {r : RunId} {db : Db}
  {input : OperatorInput} {txn : Txn} {job : Job}

/-! ### Gate decisions -/

theorem gateDecisionsOf_append (rows : List LoopDecision)
    (hdecisions : db.decisions = sys.db.decisions ++ rows) :
    gateDecisionsOf db r = gateDecisionsOf sys.db r ++
      rows.filter fun row => row.runRecordId == r && row.decision == .stopGate := by
  unfold gateDecisionsOf
  rw [hdecisions, List.filter_append]

theorem gateDecisionsOf_free (rows : List LoopDecision)
    (hdecisions : db.decisions = sys.db.decisions ++ rows)
    (hfree : ∀ row ∈ rows, row.decision ≠ .stopGate) :
    gateDecisionsOf db r = gateDecisionsOf sys.db r := by
  have hnone : (rows.filter fun row => row.runRecordId == r && row.decision == .stopGate) = [] := by
    apply List.filter_eq_nil_iff.mpr
    intro row hrow
    simp [hfree row hrow]
  rw [gateDecisionsOf_append rows hdecisions, hnone, List.append_nil]

theorem single_files {k : RunId} (hone : (gateDecisionsOf sys.db r).length ≤ 1)
    (hfiles : Files txn k) (hnone : gateDecisionsOf sys.db k = []) :
    (gateDecisionsOf (sys.db.commit txn) r).length ≤ 1 := by
  obtain ⟨row, hrow, hrun⟩ := hfiles
  rw [gateDecisionsOf_append [row] (by rw [Db.commit_decisions, hrow]), List.length_append]
  by_cases hk : k = r
  · subst hk
    have hle := List.length_filter_le
      (fun row => row.runRecordId == k && row.decision == .stopGate) [row]
    rw [hnone]
    simpa using hle
  · have hother : ¬ row.runRecordId = r := by rwa [hrun]
    simp [hother, hone]

theorem single_step (hinv : Gated sys) (hok : Approved sys l) (h : Step settings sys l sys') :
    (gateDecisionsOf sys'.db r).length ≤ 1 := by
  have hwrites := step_writes h
  generalize sys'.db = db at hwrites
  cases hwrites with
  | unfiled _ db hsame =>
    rw [gateDecisionsOf_free [] (by rw [hsame.decisions, List.append_nil])]
    · exact hinv.single r
    · exact fun row hrow => absurd hrow List.not_mem_nil
  | manual q c charter seen db hpc hsame hdecisions =>
    rw [gateDecisionsOf_free _ hdecisions]
    · exact hinv.single r
    · intro row hrow
      rw [manualDecision_stops _ _ _ row hrow]
      decide
  | operator w world j phase job txn next hpc hj hout =>
    cases execute_gates hout with
    | free hfree =>
      rw [gateDecisionsOf_free _ (Db.commit_decisions _ _) hfree]
      exact hinv.single r
    | paused it htype hfresh hit hfiles hgate =>
      rcases hgate with hnone | ⟨hone, hgated⟩
      · exact single_files (hinv.single r) hfiles hnone
      · refine absurd (hok.resume w world j phase job it rfl hpc hj htype hfresh hit ?_) hgated
        intro hnone
        rw [hnone] at hone
        simp at hone
    | compiled specId spec context gate htype hphase hcontext hspec hgate hfiles =>
      subst hphase
      exact single_files (hinv.single r) hfiles
        (hok.compile w world j specId job context spec gate rfl hpc hj htype hcontext hspec hgate)

/-! ### What a decision looks up -/

theorem Founded.keep {new : Db} {job' : Job} (h : Founded db job) (hgrows : Grows db new)
    (hrecs : db.recommendations.length ≤ new.recommendations.length) (hsame : SameJob job job') :
    Founded new job' where
  prepared r hr := by
    rw [hsame.payload] at hr
    obtain ⟨run, hrun⟩ := h.prepared r hr
    obtain ⟨now, hnow, -⟩ := hgrows.runs r run hrun
    exact ⟨now, hnow⟩
  fresh hfresh := by
    rw [hsame.payload] at hfresh ⊢
    obtain ⟨r, recId, run, cycle, hr, hrec, hlt, hrun, hcycle⟩ := h.fresh hfresh
    obtain ⟨now, hnow, hrow⟩ := hgrows.runs r run hrun
    obtain ⟨cycle', hcycle', -⟩ := hgrows.cycles run.cycleId cycle hcycle
    refine ⟨r, recId, now, cycle', hr, hrec, Nat.lt_of_lt_of_le hlt hrecs, hnow, ?_⟩
    rw [hrow.cycle]
    exact hcycle'

theorem step_recommendations (h : Step settings sys l sys') :
    sys.db.recommendations.length ≤ sys'.db.recommendations.length := by
  have hwrites := step_writes h
  generalize sys'.db = db at hwrites
  cases hwrites with
  | unfiled _ db hsame => rw [hsame.recommendations]
  | manual q c charter seen db hpc hsame => rw [hsame.recommendations]
  | operator w world j phase job txn =>
    change _ ≤ (Db.upsertRecommendation sys.db.recommendations txn.recommendation).length
    unfold Db.upsertRecommendation
    split
    · exact Table.length_upsert
    · exact Nat.le_refl _

theorem recommend_founded {next : Core.Next} {new : Job} {recId : RecommendationId}
    (h : Remediation.recommendOperator db input = .ok (txn, next)) (hjob : txn.newJobs = [new])
    (hrec : new.payload.recommendationId = some recId) :
    recId < (db.commit txn).recommendations.length := by
  unfold Remediation.recommendOperator at h
  split at h
  · obtain ⟨run, -, h⟩ := bind_eq_ok.mp h
    obtain ⟨spec, -, h⟩ := bind_eq_ok.mp h
    obtain ⟨report, -, h⟩ := bind_eq_ok.mp h
    dsimp only at h
    split at h
    · obtain ⟨rfl, -⟩ := Prod.mk.inj (pure_eq_ok.mp h)
      obtain rfl := List.singleton_inj.mp hjob
      obtain rfl := Option.some.inj hrec
      exact Table.upsertId_lt
    · obtain ⟨rfl, -⟩ := Prod.mk.inj (pure_eq_ok.mp h)
      exact absurd hjob nofun
  · obtain ⟨rfl, -⟩ := Prod.mk.inj (pure_eq_ok.mp h)
    exact absurd hjob nofun

theorem exit_loopJob {phase : Phase} {next : Core.Next} {new : Job}
    (h : Exit db input phase txn next) (hnew : txn.newJobs = [new])
    (htype : new.jobType = .loopDecide) :
    (∃ r run recId, input.jobType = .recommend ∧ db.runs[r]? = some run ∧
      Remediation.isAutonomous db run.cycleId = true ∧
      new.payload = { runRecordId := some r, recommendationId := some recId }) ∨
    (∃ run, new.payload = { preparedRunRecordId := some db.runs.length } ∧
      txn.newRuns = [run]) := by
  have other {job : Job} (hjobs : txn.newJobs = [job]) (hno : job.jobType ≠ .loopDecide) :
      False := by
    obtain rfl := List.singleton_inj.mp (hjobs.symm.trans hnew)
    exact hno htype
  have enqueued {c : CycleId} {jobType : JobType} {r : RunId}
      (hjobs : txn.newJobs = [enqueueNext db c jobType r]) (hno : jobType ≠ .loopDecide) : False :=
    other hjobs hno
  have quiet (hquiet : txn.newJobs = []) : False := by
    rw [hquiet] at hnew
    exact absurd hnew.symm (List.cons_ne_nil _ _)
  cases h with
  | recommendedLoop _ _ r run job recId hjobType hr hrun hmode hfresh hpayload hjob =>
    obtain rfl := List.singleton_inj.mp (hjob.jobs.symm.trans hnew)
    exact .inl ⟨r, run, recId, hjobType, hrun, hmode, hpayload⟩
  | runGated specId _ spec run gate _ _ _ _ hjob =>
    obtain rfl := List.singleton_inj.mp (hjob.jobs.symm.trans hnew)
    exact .inr ⟨run, rfl, hjob.runs⟩
  | postmortem _ _ _ _ _ _ _ _ hfresh _ hjob =>
    exact (other hjob.jobs (by rw [hfresh.type]; decide)).elim
  | loopStopped _ _ _ _ _ _ _ _ _ hfresh _ hjob =>
    exact (other hjob.jobs (by rw [hfresh.type]; decide)).elim
  | loopRecompiles _ _ _ _ _ _ _ _ _ _ _ hfresh _ _ hjob =>
    exact (other hjob.jobs (by rw [hfresh.type]; decide)).elim
  | checked _ _ r run following _ _ _ hfollowing hjob =>
    rcases hfollowing with rfl | rfl
    · exact (enqueued hjob.jobs (by decide)).elim
    · exact (enqueued hjob.jobs (by decide)).elim
  | setupReady | recordedFailure | recordedSuccess | captured | declined | classified
  | preparedLaunch => exact (enqueued ‹Enqueues _ _›.jobs (by decide)).elim
  | retried | loopLaunched | runPrepared => exact (enqueued ‹Prepares _ _ _›.jobs (by decide)).elim
  | loopPaused => exact (quiet ‹_›).elim
  | loopClosed _ _ _ hjobs =>
    rcases hjobs with hnone | hone
    · exact (quiet hnone).elim
    · exact (other hone nofun).elim
  | relayed _ _ _ hjobs =>
    cases hrelay : (relayOf input.jobType).1 with
    | none => exact (quiet (by rw [hjobs, hrelay]; rfl)).elim
    | some jobType =>
      have hone : txn.newJobs = [createJob db input.cycleId jobType input.payload 10] := by
        rw [hjobs, hrelay]
        rfl
      refine (other hone ?_).elim
      change jobType ≠ .loopDecide
      unfold relayOf at hrelay
      split at hrelay <;> first
        | (obtain rfl := Option.some.inj hrelay; decide)
        | exact absurd hrelay nofun
  | rejected | launched | polled | halted | observedRunning | observedExit =>
    exact (quiet rfl).elim
  | _ => exact (quiet ‹Quiet _›.jobs).elim

theorem founded_born (h : Step settings sys l sys') {new : Job} (hborn : Born sys l new)
    (htype : new.jobType = .loopDecide) : Founded sys'.db new := by
  cases hborn with
  | requested q body seen new hpc hnew =>
    cases hnew <;> exact absurd htype nofun
  | enqueued w world j phase job new txn next hpc hj hout hnew =>
    have hdb := step_exec h hpc hj hout
    rw [hdb, Runtime.moveWorker_db]
    rcases exit_loopJob (execute_exit hout) hnew htype with
      ⟨r, run, recId, hjob, hrun, hmode, hpayload⟩ | ⟨run, hpayload, hruns⟩
    · have hhandler : Remediation.recommendOperator sys.db (operatorInput j job) = .ok (txn, next) := by
        rcases execute_cases hout with hok | ⟨error, hreject⟩
        · unfold handler at hok
          rw [hjob] at hok
          exact hok
        · obtain ⟨rfl, -⟩ := Prod.mk.inj hreject
          exact absurd hnew.symm (List.cons_ne_nil _ _)
      have hrec : recId < (sys.db.commit txn).recommendations.length :=
        recommend_founded hhandler hnew (by rw [hpayload])
      obtain ⟨cycle, hcycle, -⟩ : ∃ cycle, sys.db.cycles[run.cycleId]? = some cycle ∧
          some cycle.autonomy.mode = some .autonomous := by
        unfold Remediation.isAutonomous at hmode
        rw [beq_iff_eq, Option.map_eq_some_iff] at hmode
        obtain ⟨cycle, hcycle, hmode⟩ := hmode
        exact ⟨cycle, hcycle, congrArg some hmode⟩
      have hgrows : Grows sys.db (sys.db.commit txn) := by
        have hgrows := step_grows h
        rwa [hdb] at hgrows
      obtain ⟨now, hnow, hrow⟩ := hgrows.runs r run hrun
      constructor
      · intro prepared hprepared
        rw [hpayload] at hprepared
        exact absurd hprepared nofun
      · intro _
        refine ⟨r, recId, now, cycle, by rw [hpayload], by rw [hpayload], hrec, hnow, ?_⟩
        rw [hrow.cycle]
        exact hcycle
    · constructor
      · intro prepared hprepared
        rw [hpayload] at hprepared
        obtain rfl := Option.some.inj hprepared
        exact ⟨run, Runs.commit_newRun hruns⟩
      · intro hnone
        rw [hpayload] at hnone
        exact absurd hnone nofun

theorem gated_step (hinv : Gated sys) (hok : Approved sys l) (h : Step settings sys l sys') :
    Gated sys' where
  single r := single_step hinv hok h
  founded j new hj htype := by
    rcases step_job h hj with ⟨old, hold, hsame, -⟩ | ⟨-, -, hborn⟩
    · have hfounded := hinv.founded j old hold (hsame.type.symm.trans htype)
      exact hfounded.keep (step_grows h) (step_recommendations h) hsame
    · exact founded_born h hborn htype

theorem gated_initial (hstart : start.Initial) : Gated start where
  single r := by
    rw [gateDecisionsOf, hstart.decisions]
    exact Nat.zero_le 1
  founded j job hj := by
    rw [hstart.jobs] at hj
    exact absurd hj nofun

theorem gated_run (hstart : start.Initial)
    (hrun : Reaches Approved (Runtime.step settings) start sys) : Gated sys :=
  hrun.invariant Gated (fun _ _ _ hinv hok hstep => gated_step hinv hok (step_cases hstep))
    (gated_initial hstart)

theorem iteration_of_founded {j : JobId} (h : Founded db job)
    (hfresh : job.payload.preparedRunRecordId = none) :
    ∃ it, iterationOf db (operatorInput j job) = some it := by
  obtain ⟨r, recId, run, cycle, hr, hrec, hlt, hrun, hcycle⟩ := h.fresh hfresh
  have hrow := List.getElem?_eq_getElem hlt
  simp only [iterationOf, operatorInput, hr, hrec, hrow, hrun, hcycle, Option.bind_eq_bind,
    Option.bind_some]
  exact ⟨_, rfl⟩

/-- As long as no approved gate fires again, every run has at most one gate decision, and
`loop_decide` goes on after a gate exactly when nothing else keeps it from doing so. -/
theorem approved_gates_progress {settings : Settings} {start sys : Runtime}
    (hstart : start.Initial) (hrun : Reaches Approved (Runtime.step settings) start sys) :
    (∀ r, ∃ found, Db.scalarOneOrNone (gateDecisionsOf sys.db r) = .ok found) ∧
      ∀ w j (job : Job) world, sys.workers w = .executing j .start →
        sys.db.jobs[j]? = some job → job.jobType = .loopDecide →
          (∀ r, job.payload.preparedRunRecordId = some r →
            (Advances (execute sys.db (operatorInput j job) .start world) ↔
              world.raised = none)) ∧
          (job.payload.preparedRunRecordId = none →
            ∃ it, iterationOf sys.db (operatorInput j job) = some it ∧
              ∀ gateDecision ∈ gateDecisionsOf sys.db it.runId,
                (Advances (execute sys.db (operatorInput j job) .start world) ↔
                  Undisturbed sys.db (resumed it gateDecision) world ∧ Ungated sys.db it)) := by
  have hinv := gated_run hstart hrun
  constructor
  · intro r
    have hone := hinv.single r
    cases hrows : gateDecisionsOf sys.db r with
    | nil => exact ⟨none, rfl⟩
    | cons row rest =>
      rw [hrows, List.length_cons] at hone
      obtain rfl := List.eq_nil_of_length_eq_zero (show rest.length = 0 by omega)
      exact ⟨some row, rfl⟩
  · intro w j job world hpc hj htype
    have hfounded := hinv.founded j job hj htype
    constructor
    · intro r hprepared
      obtain ⟨run, hr⟩ := hfounded.prepared r hprepared
      exact prepared_advances htype rfl hprepared hr
    · intro hfresh
      obtain ⟨it, hit⟩ := iteration_of_founded hfounded hfresh
      refine ⟨it, hit, fun gateDecision hmem => ?_⟩
      have hone := hinv.single it.runId
      cases hrows : gateDecisionsOf sys.db it.runId with
      | nil =>
        rw [hrows] at hmem
        exact absurd hmem List.not_mem_nil
      | cons row rest =>
        rw [hrows, List.length_cons] at hone
        obtain rfl := List.eq_nil_of_length_eq_zero (show rest.length = 0 by omega)
        rw [hrows] at hmem
        obtain rfl := List.mem_singleton.mp hmem
        exact resumed_advances htype rfl hfresh hit hrows

/-! ### A gate before network execution -/

/-- One cycle with a compiled spec that needs the network, under the given gates. -/
def gatedCycle (checkpointGates : CheckpointGateConfig) : Runtime :=
  { db := {
      cycles := [{ charterId := 0, status := .protocolReady
                   autonomy := { mode := .autonomous, checkpointGates } }]
      sessions := [{ charterId := 0, cycleId := 0 }]
      cards := [{ hypothesisSessionId := 0, charterId := 0, cycleId := 0, status := .compiled }]
      specs := [{ Runtime.compiledSpec with
        codePlan := some [("entry_point", .str "main.py"), ("requires_network", .bool true)] }] } }

theorem gatedCycle_initial (gates : CheckpointGateConfig) : (gatedCycle gates).Initial where
  workers _ := rfl
  requests _ := rfl
  jobs := rfl
  runs := rfl
  reports := rfl
  decisions := rfl
  recommendations := rfl
  budgets := rfl
  events := rfl
  cycles := by
    intro cycle h
    obtain rfl := List.mem_singleton.mp h
    rfl

open Synthetos.Runtime (work)

/-- A run is started and worked on until its recommendation is stored. -/
def firstRun : List Label :=
  [.receive 0 (.startRun 0), .respond 0] ++ work [{}] ++ work [{}, {}, {}, {}, {}] ++
    work [{ metrics := [("accuracy", 1)] }] ++ work [{}] ++ work [{}] ++ work [{}]

def resumeGate : List Label := [.receive 0 (.resumeGate 0), .respond 0]

/-- No operator is executed once there is a decision. -/
def undecided (sys : Runtime) : Label → Bool
  | .exec _ _ => sys.db.decisions.isEmpty
  | _ => true

theorem approved_of_undecided (h : undecided sys l = true) : Approved sys l := by
  have none_of {w : WorkerId} {world : External} (hl : l = .exec w world) (r : RunId) :
      gateDecisionsOf sys.db r = [] := by
    subst hl
    rw [gateDecisionsOf, List.isEmpty_iff.mp h]
    rfl
  constructor
  · intro w world j phase job it hl _ _ _ _ _ hsome
    exact absurd (none_of hl it.runId) hsome
  · intro w world j specId job context spec gate hl _ _ _ _ _ _
    exact none_of hl context.runRecordId

/-- The step launches a run of the same spec. -/
def reruns : Txn × Core.Next → Bool
  | (txn, .finish ⟨true, none, some .running⟩) =>
    txn.newJobs.map Job.jobType == [.executionSetup] && txn.pausedJob.isNone &&
      txn.newDecisions.map LoopDecision.decision == [.continueCurrent]
  | _ => false

theorem advances_of_reruns {step : Txn × Core.Next} (h : reruns step = true) : Advances step := by
  unfold reruns at h
  split at h
  · rename_i txn
    simp only [Bool.and_eq_true, beq_iff_eq, Option.isNone_iff_eq_none] at h
    obtain ⟨⟨hjobs, hpause⟩, hrows⟩ := h
    obtain ⟨job, hjob, htype⟩ := List.map_eq_singleton_iff.mp hjobs
    obtain ⟨row, hrow, hdecision⟩ := List.map_eq_singleton_iff.mp hrows
    refine .launches txn job hjob (.inl htype) hpause (gateFree_single hrow ?_)
    rw [hdecision]
    decide
  · exact absurd h fun h => by cases h

/-- Worker 0 executes job 6, a loop decision about a run with one gate decision. -/
def resumes (sys : Runtime) : Bool :=
  (match sys.workers 0 with
    | .executing j .start => j == 6
    | _ => false) &&
  sys.db.jobs[6]?.any fun job => job.jobType == .loopDecide &&
    job.payload.preparedRunRecordId.isNone &&
    reruns (execute sys.db (operatorInput 6 job) .start {}) &&
    (iterationOf sys.db (operatorInput 6 job)).any fun it =>
      !(gateDecisionsOf sys.db it.runId).isEmpty

/-- After the pause behind its first run is approved, the loop launches the next one. -/
theorem approved_gates_progress_launch : ∃ sys : Runtime, ∃ job it gateDecision,
    Reaches Approved (Runtime.step {}) (gatedCycle { afterEveryRun := true }) sys ∧
      sys.workers 0 = .executing 6 .start ∧ sys.db.jobs[6]? = some job ∧
      iterationOf sys.db (operatorInput 6 job) = some it ∧
      gateDecision ∈ gateDecisionsOf sys.db it.runId ∧
      Undisturbed sys.db (resumed it gateDecision) {} ∧ Ungated sys.db it := by
  obtain ⟨sys, hrun, -, htest⟩ := Reaches.of_perform_any (fun _ => True)
    (fun _ _ _ h => approved_of_undecided h) (fun _ _ _ _ _ _ => trivial) trivial
    (show (perform undecided (Runtime.step {}) (gatedCycle { afterEveryRun := true })
      (firstRun ++ work [{}] ++ resumeGate ++ [.claim 0 [], .start 0])).any resumes = true
        by decide +kernel)
  unfold resumes at htest
  rw [Bool.and_eq_true] at htest
  obtain ⟨hworker, htest⟩ := htest
  have hpc : sys.workers 0 = .executing 6 .start := by
    split at hworker
    · rename_i j hpc
      rw [hpc, beq_iff_eq.mp hworker]
    · exact absurd hworker nofun
  obtain ⟨job, hj, htest⟩ := (Option.any_eq_true _ _).mp htest
  simp only [Bool.and_eq_true, beq_iff_eq, Option.isNone_iff_eq_none] at htest
  obtain ⟨⟨⟨htype, hfresh⟩, hreruns⟩, htest⟩ := htest
  obtain ⟨it, hit, hsome⟩ := (Option.any_eq_true _ _).mp htest
  obtain ⟨gateDecision, hmem⟩ := List.exists_mem_of_ne_nil _ (by simpa using hsome)
  obtain ⟨it', hit', hiff⟩ := ((approved_gates_progress (gatedCycle_initial _) hrun).2
    0 6 job {} hpc hj htype).2 hfresh
  obtain rfl := Option.some.inj (hit'.symm.trans hit)
  exact ⟨sys, job, it', gateDecision, hrun, hpc, hj, hit', hmem,
    (hiff gateDecision hmem).mp (advances_of_reruns hreruns)⟩

/-- The pause before network execution is approved, and the same gate pauses the run again: the
next lookup raises. -/
theorem approved_gate_pauses_again : ∃ sys : Runtime,
    (gatedCycle { beforeNetworkExecution := true }).Initial ∧
      Reaches Unguarded (Runtime.step {}) (gatedCycle { beforeNetworkExecution := true }) sys ∧
      sys.db.jobStatus? 6 = some .paused ∧
      (gateDecisionsOf sys.db 0).map LoopDecision.gateTriggered =
        [some .beforeNetworkExecution, some .beforeNetworkExecution] ∧
      Db.scalarOneOrNone (gateDecisionsOf sys.db 0) = .error "MultipleResultsFound" := by
  obtain ⟨sys, hrun, htest⟩ := Runtime.run_of_anyone
    (show (perform Runtime.anyone (Runtime.step {}) (gatedCycle { beforeNetworkExecution := true })
      (firstRun ++ work [{}] ++ resumeGate ++ work [{}])).any (fun sys =>
        sys.db.jobStatus? 6 == some .paused &&
          (gateDecisionsOf sys.db 0).map LoopDecision.gateTriggered ==
            [some .beforeNetworkExecution, some .beforeNetworkExecution]) = true by decide +kernel)
  simp only [Bool.and_eq_true, beq_iff_eq] at htest
  obtain ⟨hpaused, hgates⟩ := htest
  have htwo : Db.scalarOneOrNone (gateDecisionsOf sys.db 0) = .error "MultipleResultsFound" := by
    have hlength : (gateDecisionsOf sys.db 0).length = 2 := by
      rw [← List.length_map LoopDecision.gateTriggered, hgates]
      rfl
    obtain ⟨first, second, hrows⟩ := List.length_eq_two.mp hlength
    rw [hrows]
    rfl
  exact ⟨sys, gatedCycle_initial _, hrun, hpaused, hgates, htwo⟩

end Synthetos.Loop
