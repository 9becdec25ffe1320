import Synthetos.Loop.CountedOnce
import Synthetos.Loop.Lifecycle

/-!
# Pausing every `n` runs

The system is observed together with the runs each cycle has counted since its last gate decision.
Where a policy asks for a pause every `n` runs, the loop pauses on that gate at the `n`-th of them.
-/

namespace Synthetos.Loop

open Synthetos.Core Storage Lib Worker Api Autonomy Protocols Jobs

structure Metered where
  sys : Runtime
  /-- The runs counted since the last gate decision of the cycle. -/
  sinceGate : CycleId → Nat

def newDecisions (old new : Db) : List LoopDecision := new.decisions.drop old.decisions.length

def gateFiled (old new : Db) (c : CycleId) : Bool :=
  (newDecisions old new).any fun row => row.cycleId == c && row.decision == .stopGate

/-- The runs counted since the last gate decision, with those a step to `sys'` counts. -/
def Metered.counts (m : Metered) (sys' : Runtime) (c : CycleId) : Nat :=
  m.sinceGate c + (totalOf sys'.db c - totalOf m.sys.db c)

def Metered.step (settings : Settings) (m : Metered) (l : Label) : Option Metered :=
  (Runtime.step settings m.sys l).map fun sys =>
    { sys, sinceGate := fun c => if gateFiled m.sys.db sys.db c then 0 else m.counts sys c }

def meter (sys : Runtime) : Metered := ⟨sys, fun _ => 0⟩

/-- A pause every `n` runs, and not after every run. -/
structure PausesEvery (policy : AutonomyPolicy) (n : Nat) : Prop where
  every : policy.checkpointGates.afterEveryNRuns = some (n : Int)
  positive : 1 ≤ n
  off : policy.checkpointGates.afterEveryRun = false

/-- A pause on `after_every_n_runs`. -/
def Periodic (row : LoopDecision) : Prop :=
  row.decision = .stopGate ∧ row.gateTriggered = some .afterEveryNRuns

def OutOfBudget (db : Db) (c : CycleId) : Prop :=
  ∃ row ∈ db.decisions, row.cycleId = c ∧ row.decision = .stopBudget

/-- The label executes `loop_decide` for the run of the iteration. -/
structure Decides (sys : Runtime) (l : Label) (it : Iteration) : Prop where
  job : ∃ w world j phase job, l = .exec w world ∧ sys.workers w = .executing j phase ∧
    sys.db.jobs[j]? = some job ∧ job.jobType = .loopDecide ∧
      job.payload.preparedRunRecordId = none ∧ iterationOf sys.db (operatorInput j job) = some it

/-- What executing `loop_decide` for an iteration comes to. -/
inductive Outcome (db : Db) (it : Iteration) (txn : Txn) : Prop where
  | refused (h : txn = {})
  | exhausted (hfresh : gateDecisionsOf db it.runId = [])
      (hbudget : exhaustedBudget (countRun db it) ≠ none)
      (hfiles : ∃ row, txn.newDecisions = [row] ∧ row.cycleId = it.cycleId ∧
        row.decision = .stopBudget)
  | paused (gate : GateResult) (hfresh : gateDecisionsOf db it.runId = [])
      (hbudget : exhaustedBudget (countRun db it) = none)
      (hgate : freshGate db (countRun db it) = .ok (some gate))
      (hfiles : ∃ row, txn.newDecisions = [row] ∧ row.cycleId = it.cycleId ∧
        row.decision = .stopGate ∧ row.gateTriggered = some gate.gateName)
  | passed (hfresh : gateDecisionsOf db it.runId = [])
      (hbudget : exhaustedBudget (countRun db it) = none)
      (hgate : freshGate db (countRun db it) = .ok none)
      (hrest : ∀ row ∈ txn.newDecisions, ¬ Periodic row)
  | resumed (hgates : gateDecisionsOf db it.runId ≠ [])
      (hrest : ∀ row ∈ txn.newDecisions, ¬ Periodic row)

variable {settings : Settings} {sys sys' : Runtime} {m m' : Metered} {l : Label} {c : CycleId}
  {n : Nat} {db new : Db} {input : OperatorInput} {phase : Phase} {world : External} {txn : Txn}
  {next : Core.Next} {it : Iteration} {policy : AutonomyPolicy} {rows : List LoopDecision}

/-! ### The gate -/

theorem launchGate_stops {current : Option Dict} {spec : ExperimentSpec} {gate : GateResult}
    (h : launchGate policy current spec = .ok (some gate)) : stopsLaunch gate.gateName = true := by
  unfold launchGate at h
  obtain ⟨result, -, h⟩ := bind_eq_ok.mp h
  exact (Option.filter_eq_some_iff.mp (pure_eq_ok.mp h)).2

theorem evaluateGates_due {context : GateContext} {result : Option GateResult}
    (hpolicy : PausesEvery policy n) (h : evaluateGates policy context = .ok result)
    (hdue : (n : Int) ≤ context.runsSinceLastGate) :
    ∃ gate, result = some gate ∧ gate.gateName = .afterEveryNRuns := by
  have hdue : (some (n : Int)).any (fun k => decide (k ≤ context.runsSinceLastGate)) = true :=
    decide_eq_true hdue
  unfold evaluateGates at h
  dsimp only at h
  rw [hpolicy.off, hpolicy.every, if_neg Bool.false_ne_true, if_pos hdue] at h
  exact ⟨_, (pure_eq_ok.mp h).symm, rfl⟩

theorem evaluateGates_periodic {context : GateContext} {gate : GateResult}
    (hpolicy : PausesEvery policy n) (h : evaluateGates policy context = .ok (some gate))
    (hname : gate.gateName = .afterEveryNRuns) : (n : Int) ≤ context.runsSinceLastGate := by
  have fires {flag : Prop} [Decidable flag] {other : GateResult}
      {rest : Except String (Option GateResult)} (hother : other.gateName ≠ .afterEveryNRuns)
      (h : (if flag then pure (some other) else rest) = .ok (some gate)) :
      rest = .ok (some gate) := by
    split at h
    · obtain rfl := Option.some.inj (pure_eq_ok.mp h)
      exact absurd hname hother
    · exact h
  have silent (h : (pure none : Except String (Option GateResult)) = .ok (some gate)) : False := by
    cases pure_eq_ok.mp h
  unfold evaluateGates at h
  dsimp only at h
  rw [hpolicy.off, hpolicy.every, if_neg Bool.false_ne_true] at h
  split at h
  · rename_i hdue
    exact of_decide_eq_true hdue
  · split at h
    · obtain ⟨escalates, -, h⟩ := bind_eq_ok.mp h
      exact (silent (fires (by decide) (fires (by decide) (fires (by decide) h)))).elim
    · exact (silent (fires (by decide) (fires (by decide) h))).elim

theorem freshGate_periodic {gate : GateResult} (hpolicy : PausesEvery it.policy n)
    (h : freshGate db it = .ok (some gate)) (hname : gate.gateName = .afterEveryNRuns) :
    n + lastGateTotalRuns db it.cycleId ≤ it.budget.totalRuns := by
  obtain ⟨promotion, -, h⟩ := bind_eq_ok.mp h
  have hdue := evaluateGates_periodic hpolicy h hname
  have hpositive := hpolicy.positive
  dsimp only at hdue
  omega

theorem freshGate_due {result : Option GateResult} (hpolicy : PausesEvery it.policy n)
    (hdue : n + lastGateTotalRuns db it.cycleId ≤ it.budget.totalRuns)
    (h : freshGate db it = .ok result) :
    ∃ gate, result = some gate ∧ gate.gateName = .afterEveryNRuns := by
  obtain ⟨promotion, -, h⟩ := bind_eq_ok.mp h
  refine evaluateGates_due hpolicy h ?_
  dsimp only
  omega

/-! ### The operator -/

theorem proceed_rest (h : proceed db it world = .ok (txn, next)) (hown : OwnWrites it) :
    ∀ row ∈ txn.newDecisions, ¬ Periodic row := by
  have free (hfree : GateFree txn) : ∀ row ∈ txn.newDecisions, ¬ Periodic row :=
    fun row hrow hperiodic => hfree row hrow hperiodic.1
  obtain ⟨summarized, updated, hsummarized, hupdated, h⟩ := proceed_eq_ok.mp h
  obtain ⟨-, hown'⟩ := summarizeContext_keeps hsummarized hown
  obtain ⟨-, hown'⟩ := updateHypothesisStatus_keeps hupdated hown'
  have hcourse : Course db updated (actOnRecommendation db updated) :=
    actOnRecommendation_course hown'
  generalize actOnRecommendation db updated = out at h hcourse
  cases hcourse with
  | acts step hstep =>
    obtain rfl := Except.ok.inj h
    exact free (gateFree_of_advances hstep)
  | lacksSession error =>
    obtain ⟨rfl, -⟩ := Prod.mk.inj (Except.ok.inj h)
    exact free (gateFree_nil rfl)
  | launches spec launch it' htarget hcompile hlaunch =>
    obtain ⟨result, hgate, h⟩ := bind_eq_ok.mp h
    cases result with
    | none =>
      obtain rfl := pure_eq_ok.mp h
      exact free (gateFree_of_advances hlaunch)
    | some fired =>
      obtain ⟨rfl, -⟩ := Prod.mk.inj (pure_eq_ok.mp h)
      rintro row hrow ⟨-, hname⟩
      obtain rfl := List.mem_singleton.mp hrow
      have hstops := launchGate_stops hgate
      rw [Option.some.inj hname] at hstops
      exact absurd hstops (by decide)

theorem countRun_cycle (db : Db) (it : Iteration) : (countRun db it).cycleId = it.cycleId := by
  unfold countRun
  split <;> rfl

theorem countRun_policy (db : Db) (it : Iteration) : (countRun db it).policy = it.policy := by
  unfold countRun
  split <;> rfl

theorem loopDecide_outcome (hfresh : input.payload.preparedRunRecordId = none)
    (hit : iterationOf db input = some it)
    (h : loopDecideOperator db input world = .ok (txn, next)) : Outcome db it txn := by
  have hown := iterationOf_own hit
  rw [loopDecide_iteration hfresh hit] at h
  split at h
  · rename_i hnone
    obtain ⟨-, hcounted⟩ := countRun_keeps db hown
    cases decideFresh_path h with
    | exhausted exceeded hbudget hstop =>
      obtain ⟨rfl, -⟩ := Prod.mk.inj hstop
      refine .exhausted hnone (by rw [hbudget]; exact Option.some_ne_none _)
        ⟨_, rfl, countRun_cycle db it, rfl⟩
    | paused gate hbudget hgate hpause =>
      obtain ⟨rfl, -⟩ := Prod.mk.inj hpause
      exact .paused gate hnone hbudget hgate ⟨_, rfl, countRun_cycle db it, rfl, rfl⟩
    | proceeds hbudget hgate hproceed =>
      exact .passed hnone hbudget hgate (proceed_rest hproceed hcounted)
  · rename_i gateDecision hone
    have hown' : OwnWrites (resumed it gateDecision) := ⟨hown.pause, hown.cards⟩
    refine .resumed ?_ (proceed_rest h hown')
    rw [hone]
    exact List.cons_ne_nil _ _
  · cases h

theorem prepareRun_rest {specId : SpecId} (h : prepareRun db input specId = .ok (txn, next)) :
    ∀ row ∈ txn.newDecisions, ¬ Periodic row := by
  cases prepareRun_path h with
  | missing error hreject =>
    obtain ⟨rfl, -⟩ := Prod.mk.inj hreject
    exact fun row hrow => absurd hrow List.not_mem_nil
  | gated spec fired _ hgate hstep =>
    obtain ⟨rfl, -⟩ := Prod.mk.inj hstep
    rintro row hrow ⟨-, hname⟩
    dsimp only at hrow
    unfold loopGateDecision at hrow
    split at hrow
    · obtain rfl := List.mem_singleton.mp hrow
      have hstops := launchGate_stops hgate
      rw [Option.some.inj hname] at hstops
      exact absurd hstops (by decide)
    · exact absurd hrow List.not_mem_nil
  | launched spec _ _ hstep =>
    obtain ⟨rfl, -⟩ := Prod.mk.inj hstep
    exact fun row hrow => absurd hrow List.not_mem_nil

/-! ### Steps -/

theorem newDecisions_eq {old : Db} (h : new.decisions = old.decisions ++ rows) :
    newDecisions old new = rows := by
  rw [newDecisions, h, List.drop_left]

theorem gateFiled_iff {old : Db} (h : new.decisions = old.decisions ++ rows) :
    gateFiled old new c = true ↔ ∃ row ∈ rows, row.cycleId = c ∧ row.decision = .stopGate := by
  rw [gateFiled, newDecisions_eq h, List.any_eq_true]
  simp only [Bool.and_eq_true, beq_iff_eq]

theorem decides_step (hd : Decides sys l it) (h : Step settings sys l sys') :
    ∃ txn, sys'.db = sys.db.commit txn ∧ Outcome sys.db it txn ∧
      (txn = {} ∨ Settles (counted sys.db it) txn) := by
  obtain ⟨w, world, j, phase, job, rfl, hpc, hj, htype, hfresh, hit⟩ := hd
  cases hout : execute sys.db (operatorInput j job) phase world with
  | mk txn next =>
    obtain rfl := step_exec h hpc hj hout
    refine ⟨txn, rfl, ?_⟩
    rcases execute_cases hout with hok | ⟨error, hreject⟩
    · unfold handler at hok
      have hkind : (operatorInput j job).jobType = .loopDecide := htype
      rw [hkind] at hok
      refine ⟨loopDecide_outcome hfresh hit hok, ?_⟩
      refine (loopDecide_settles hfresh hok).imp_right ?_
      rintro ⟨it', hit', hsettles⟩
      obtain rfl := Option.some.inj (hit.symm.trans hit')
      exact hsettles
    · obtain ⟨rfl, -⟩ := Prod.mk.inj hreject
      exact ⟨.refused rfl, .inl rfl⟩

theorem settled_total (hit : iterationOf db input = some it) (h : Settles (counted db it) txn) :
    totalOf (db.commit txn) c =
      if it.cycleId = c then (counted db it).budget.totalRuns else totalOf db c := by
  obtain ⟨hstored, hcycle, -⟩ := counted_stores hit
  have hbudget := budgetOf_commit db (h.budget.trans hstored) c
  rw [hcycle] at hbudget
  unfold totalOf
  rw [hbudget]
  split <;> rfl

theorem counted_total (hit : iterationOf db input = some it) :
    totalOf db it.cycleId ≤ (counted db it).budget.totalRuns ∧
      (counted db it).budget.totalRuns ≤ totalOf db it.cycleId + 1 ∧
      (gateDecisionsOf db it.runId ≠ [] →
        (counted db it).budget.totalRuns = totalOf db it.cycleId) := by
  obtain ⟨hloaded, -⟩ := iterationOf_budget hit
  have hkept : it.budget.totalRuns = totalOf db it.cycleId := by rw [hloaded, totalOf_eq]
  unfold counted countRun
  split
  · rename_i hnone
    split
    · exact ⟨hkept.ge, by omega, fun hgates => absurd hnone hgates⟩
    · dsimp only
      rw [incrementBudget_totalRuns]
      exact ⟨by omega, by omega, fun hgates => absurd hnone hgates⟩
  · exact ⟨hkept.ge, by omega, fun _ => hkept⟩

theorem step_elsewhere (h : Step settings sys l sys')
    (hother : ∀ it, Decides sys l it → it.cycleId ≠ c) :
    totalOf sys'.db c = totalOf sys.db c ∧
      ∀ row ∈ newDecisions sys.db sys'.db, row.cycleId = c → ¬ Periodic row := by
  have hwrites := step_writes h
  generalize sys'.db = db at hwrites
  cases hwrites with
  | unfiled _ db hsame =>
    constructor
    · rw [totalOf, totalOf, budgetOf_congr hsame.budgets]
    · have hnone : db.decisions = sys.db.decisions ++ [] := by rw [hsame.decisions, List.append_nil]
      rw [newDecisions_eq hnone]
      exact fun row hrow => absurd hrow List.not_mem_nil
  | manual q c' charter seen db hpc hsame hdecisions =>
    constructor
    · rw [totalOf, totalOf, budgetOf_congr hsame.budgets]
    · rw [newDecisions_eq hdecisions]
      rintro row hrow - ⟨hgate, -⟩
      rw [manualDecision_stops _ _ _ row hrow] at hgate
      cases hgate
  | operator w world j phase job txn next hpc hj hout =>
    rw [newDecisions_eq (Db.commit_decisions _ _)]
    cases execute_books hout with
    | closed hbudget hnone =>
      constructor
      · rw [totalOf, totalOf, budgetOf_commit_none _ hbudget]
      · rw [hnone]
        exact fun row hrow => absurd hrow List.not_mem_nil
    | decided it htype hfresh hit hsettles =>
      have hne := hother it ⟨w, world, j, phase, job, rfl, hpc, hj, htype, hfresh, hit⟩
      constructor
      · rw [settled_total hit hsettles, if_neg hne]
      · intro row hrow hcycle
        obtain ⟨one, hone, hrecords⟩ := hsettles.files
        obtain ⟨-, -, hsame, -⟩ := counted_stores hit
        rw [hone] at hrow
        obtain rfl := List.mem_singleton.mp hrow
        exact absurd (hsame.symm.trans (hrecords.cycle.symm.trans hcycle)) hne
    | prepared specId spec htype hphase hspec hbudget hdecisions =>
      constructor
      · unfold totalOf
        rw [budgetOf_commit _ hbudget, loadOrCreateBudget_cycle]
        split
        · rename_i hc
          subst hc
          exact (totalOf_eq _ _).symm
        · rfl
      · intro row hrow _
        subst hphase
        rcases execute_cases hout with hok | ⟨error, hreject⟩
        · unfold handler at hok
          rw [htype] at hok
          exact prepareRun_rest hok row hrow
        · obtain ⟨rfl, -⟩ := Prod.mk.inj hreject
          exact absurd hrow List.not_mem_nil

/-! ### The runs since the last gate -/

theorem lastGateTotalRuns_kept {old : Db} (h : new.decisions = old.decisions ++ rows)
    (hfiled : gateFiled old new c = false) : lastGateTotalRuns new c = lastGateTotalRuns old c := by
  have hnone : (rows.filter fun row => row.cycleId == c && row.decision == .stopGate) = [] := by
    rw [gateFiled, newDecisions_eq h, List.any_eq_false] at hfiled
    exact List.filter_eq_nil_iff.mpr hfiled
  unfold lastGateTotalRuns
  rw [h, List.filter_append, hnone, List.append_nil]

theorem lastGateTotalRuns_filed {old : Db} (h : new.decisions = old.decisions ++ rows)
    (hfiled : gateFiled old new c = true) (hshows : ∀ row ∈ rows, ShowsCounters row new) :
    lastGateTotalRuns new c = totalOf new c := by
  obtain ⟨row, hrow, hcycle, hgate⟩ := (gateFiled_iff h).mp hfiled
  have hmem : row ∈ rows.filter fun row => row.cycleId == c && row.decision == .stopGate := by
    simp [hrow, hcycle, hgate]
  have hne := List.ne_nil_of_mem hmem
  have hlast := List.mem_filter.mp (List.getLast_mem hne)
  obtain ⟨hlast, hcond⟩ := hlast
  rw [Bool.and_eq_true, beq_iff_eq] at hcond
  unfold lastGateTotalRuns
  rw [h, List.filter_append, List.getLast?_append_of_ne_nil _ hne, List.getLast?_eq_some_getLast hne]
  change LoopDecision.snapshotTotalRuns _ = _
  rw [(hshows _ hlast).total, hcond.1]

/-- The count is what the snapshots and the counter say. -/
structure Exact (m : Metered) : Prop where
  since : ∀ c, lastGateTotalRuns m.sys.db c + m.sinceGate c = totalOf m.sys.db c
  unborn : ∀ c, m.sys.db.cycles[c]? = none → totalOf m.sys.db c = 0

theorem metered_cases (h : Metered.step settings m l = some m') :
    Step settings m.sys l m'.sys ∧ ∀ c, m'.sinceGate c =
      if gateFiled m.sys.db m'.sys.db c then 0 else m.counts m'.sys c := by
  obtain ⟨sys, hstep, rfl⟩ := Option.map_eq_some_iff.mp h
  exact ⟨step_cases hstep, fun _ => rfl⟩

theorem decides_cycle (hd : Decides sys l it) :
    ∃ cycle, sys.db.cycles[it.cycleId]? = some cycle ∧ it.policy = cycle.autonomy := by
  obtain ⟨w, world, j, phase, job, -, -, -, -, -, hit⟩ := hd
  obtain ⟨recId, runId, recommendation, run, cycle, -, -, -, -, hcycle, rfl⟩ := iterationOf_cases hit
  exact ⟨cycle, hcycle, rfl⟩

theorem unborn_step (hinv : Exact m) (h : Step settings m.sys l sys')
    (hnone : m.sys.db.cycles[c]? = none) : totalOf sys'.db c = 0 := by
  rw [← hinv.unborn c hnone]
  refine (step_elsewhere h fun it hd hc => ?_).1
  obtain ⟨cycle, hcycle, -⟩ := decides_cycle hd
  rw [hc, hnone] at hcycle
  cases hcycle

theorem exact_step (hinv : Exact m) (h : Metered.step settings m l = some m') : Exact m' := by
  obtain ⟨hstep, hsince⟩ := metered_cases h
  constructor
  · intro c
    obtain ⟨rows, hrows, hshows⟩ := step_shows hstep
    rw [hsince]
    cases hfiled : gateFiled m.sys.db m'.sys.db c with
    | true => rw [lastGateTotalRuns_filed hrows hfiled hshows, if_pos rfl, Nat.add_zero]
    | false =>
      have hgrow := (step_countersGrow hstep c).1
      have hbefore := hinv.since c
      rw [lastGateTotalRuns_kept hrows hfiled, if_neg Bool.false_ne_true, Metered.counts]
      omega
  · intro c hnone
    apply unborn_step hinv hstep
    by_contra hsome
    obtain ⟨cycle, hcycle⟩ := Option.ne_none_iff_exists'.mp hsome
    obtain ⟨now, hnow, -⟩ := (step_grows hstep).cycles c cycle hcycle
    rw [hnone] at hnow
    cases hnow

theorem exact_meter {start : Runtime} (hstart : start.Initial) : Exact (meter start) := by
  have hzero (c : CycleId) : totalOf start.db c = 0 := by
    rw [totalOf, budgetOf, hstart.budgets]
    rfl
  constructor
  · intro c
    change lastGateTotalRuns start.db c + 0 = totalOf start.db c
    rw [hzero, lastGateTotalRuns, hstart.decisions]
    rfl
  · exact fun c _ => hzero c

theorem decides_unique {it' : Iteration} (hd : Decides sys l it) (hd' : Decides sys l it') :
    it' = it := by
  obtain ⟨w, world, j, phase, job, rfl, hpc, hj, -, -, hit⟩ := hd
  obtain ⟨w', world', j', phase', job', hl, hpc', hj', -, -, hit'⟩ := hd'
  obtain ⟨rfl, rfl⟩ := Label.exec.inj hl
  obtain ⟨rfl, rfl⟩ := WorkerPc.executing.inj (hpc.symm.trans hpc')
  obtain rfl := Option.some.inj (hj.symm.trans hj')
  exact Option.some.inj (hit'.symm.trans hit)

/-! ### Pauses -/

/-- A pause of the cycle on `after_every_n_runs`. -/
def PausedPeriodically (old new : Db) (c : CycleId) : Prop :=
  ∃ row ∈ newDecisions old new, row.cycleId = c ∧ Periodic row

/-- A step that decides about a run of the cycle before its budget is exhausted. -/
def DecidesWithin (sys : Runtime) (l : Label) (c : CycleId) : Prop :=
  ∃ it, Decides sys l it ∧ it.cycleId = c ∧ exhaustedBudget (countRun sys.db it) = none

/-- What a step does in a cycle that has counted fewer than `n` runs since its last gate. -/
structure KeepsPace (m m' : Metered) (l : Label) (c : CycleId) (n : Nat) : Prop where
  bounded : m.counts m'.sys c ≤ n
  pauses : PausedPeriodically m.sys.db m'.sys.db c ↔
    DecidesWithin m.sys l c ∧ m.counts m'.sys c = n
  stops : m.counts m'.sys c = n → gateFiled m.sys.db m'.sys.db c = true ∨ OutOfBudget m'.sys.db c

theorem keepsPace_quiet (hlt : m.sinceGate c < n) (hsame : totalOf m'.sys.db c = totalOf m.sys.db c)
    (hrest : ∀ row ∈ newDecisions m.sys.db m'.sys.db, row.cycleId = c → ¬ Periodic row) :
    KeepsPace m m' l c n := by
  have hcounts : m.counts m'.sys c = m.sinceGate c := by
    rw [Metered.counts, hsame, Nat.sub_self, Nat.add_zero]
  constructor
  · omega
  · apply iff_of_false
    · rintro ⟨row, hrow, hcycle, hperiodic⟩
      exact hrest row hrow hcycle hperiodic
    · omega
  · omega

theorem keepsPace_decides (hinv : Exact m) (hlt : m.sinceGate c < n)
    (hd : Decides m.sys l it) (hc : it.cycleId = c) (hpolicy : PausesEvery it.policy n)
    (h : Step settings m.sys l m'.sys) : KeepsPace m m' l c n := by
  obtain ⟨txn, hdb, houtcome, hbooks⟩ := decides_step hd h
  have hrows : m'.sys.db.decisions = m.sys.db.decisions ++ txn.newDecisions := by
    rw [hdb, Db.commit_decisions]
  have hnew := newDecisions_eq hrows
  rcases hbooks with rfl | hsettles
  · refine keepsPace_quiet hlt (by rw [hdb]; rfl) ?_
    rw [hnew]
    exact fun row hrow => absurd hrow List.not_mem_nil
  have hit : ∃ input, iterationOf m.sys.db input = some it := by
    obtain ⟨w, world, j, phase, job, -, -, -, -, -, hit⟩ := hd
    exact ⟨_, hit⟩
  obtain ⟨input, hit⟩ := hit
  have htotal := settled_total hit hsettles (c := c)
  rw [if_pos hc, ← hdb] at htotal
  obtain ⟨hmore, honce, hbehind⟩ := counted_total hit
  rw [hc] at hmore honce hbehind
  have hsince := hinv.since c
  have hcounts : lastGateTotalRuns m.sys.db c + m.counts m'.sys c
      = (counted m.sys.db it).budget.totalRuns := by
    rw [Metered.counts, htotal]
    omega
  have hcycle := (countRun_cycle m.sys.db it).trans hc
  have hpolicy' : PausesEvery (countRun m.sys.db it).policy n := by rwa [countRun_policy]
  cases houtcome with
  | refused hnone =>
    rw [hnone] at hsettles
    obtain ⟨row, hrow, -⟩ := hsettles.files
    cases hrow
  | exhausted hfresh hbudget hfiles =>
    obtain ⟨row, hrow, hcycle, hstop⟩ := hfiles
    rw [hrow] at hrows hnew
    refine ⟨by omega, iff_of_false ?_ ?_, fun _ => .inr ⟨row, ?_, hcycle.trans hc, hstop⟩⟩
    · rintro ⟨row', hrow', -, hgate, -⟩
      rw [hnew] at hrow'
      obtain rfl := List.mem_singleton.mp hrow'
      rw [hstop] at hgate
      cases hgate
    · rintro ⟨⟨it', hd', -, hwithin⟩, -⟩
      obtain rfl := decides_unique hd hd'
      exact hbudget hwithin
    · rw [hrows]
      exact List.mem_append_right _ (List.mem_singleton_self row)
  | paused gate hfresh hbudget hgate hfiles =>
    obtain ⟨row, hrow, hrowCycle, hstop, hname⟩ := hfiles
    rw [hrow] at hrows hnew
    rw [counted, if_pos hfresh] at hcounts honce
    have hdue : gate.gateName = .afterEveryNRuns ↔ m.counts m'.sys c = n := by
      constructor
      · intro hperiodic
        have hle := freshGate_periodic hpolicy' hgate hperiodic
        rw [hcycle] at hle
        omega
      · intro heq
        obtain ⟨gate', hsome, hperiodic⟩ := freshGate_due hpolicy' (by rw [hcycle]; omega) hgate
        rw [Option.some.inj hsome]
        exact hperiodic
    refine ⟨by omega, ?_, fun _ => .inl ((gateFiled_iff hrows).mpr
      ⟨row, List.mem_singleton_self row, hrowCycle.trans hc, hstop⟩)⟩
    rw [← hdue]
    constructor
    · rintro ⟨row', hrow', -, -, hperiodic⟩
      rw [hnew] at hrow'
      obtain rfl := List.mem_singleton.mp hrow'
      exact ⟨⟨it, hd, hc, hbudget⟩, Option.some.inj (hname.symm.trans hperiodic)⟩
    · rintro ⟨-, hperiodic⟩
      refine ⟨row, ?_, hrowCycle.trans hc, hstop, hname.trans (congrArg some hperiodic)⟩
      rw [hnew]
      exact List.mem_singleton_self row
  | passed hfresh hbudget hgate hrest =>
    rw [counted, if_pos hfresh] at hcounts honce
    have hearly : m.counts m'.sys c ≠ n := by
      intro heq
      obtain ⟨gate, hsome, -⟩ := freshGate_due hpolicy' (by rw [hcycle]; omega) hgate
      cases hsome
    refine ⟨by omega, iff_of_false ?_ (fun hall => hearly hall.2), fun heq => absurd heq hearly⟩
    rintro ⟨row, hrow, -, hperiodic⟩
    rw [hnew] at hrow
    exact hrest row hrow hperiodic
  | resumed hgates hrest =>
    refine keepsPace_quiet hlt (htotal.trans (hbehind hgates)) ?_
    rw [hnew]
    exact fun row hrow _ => hrest row hrow

theorem step_keepsPace {cycle : ResearchCycle} (hinv : Exact m)
    (hcycle : m.sys.db.cycles[c]? = some cycle) (hpolicy : PausesEvery cycle.autonomy n)
    (hlt : m.sinceGate c < n) (h : Step settings m.sys l m'.sys) : KeepsPace m m' l c n := by
  by_cases hd : ∃ it, Decides m.sys l it ∧ it.cycleId = c
  · obtain ⟨it, hd, hc⟩ := hd
    refine keepsPace_decides hinv hlt hd hc ?_ h
    obtain ⟨cycle', hcycle', hsame⟩ := decides_cycle hd
    rw [hc, hcycle] at hcycle'
    obtain rfl := Option.some.inj hcycle'
    rwa [hsame]
  · obtain ⟨htotal, hrest⟩ := step_elsewhere h fun it hit hc => hd ⟨it, hit, hc⟩
    exact keepsPace_quiet hlt htotal hrest

/-- Fewer than `n` runs since the last gate, in every cycle that pauses every `n` runs. -/
def Paced (m : Metered) : Prop :=
  ∀ c cycle n, m.sys.db.cycles[c]? = some cycle → PausesEvery cycle.autonomy n →
    ¬ OutOfBudget m.sys.db c → m.sinceGate c < n

theorem paced_step (hinv : Exact m) (hpaced : Paced m) (h : Metered.step settings m l = some m') :
    Paced m' := by
  intro c cycle n hcycle hpolicy hbudget
  have hexact := exact_step hinv h
  obtain ⟨hstep, hsince⟩ := metered_cases h
  cases hbefore : m.sys.db.cycles[c]? with
  | none =>
    have hzero := unborn_step hinv hstep hbefore
    have htotal := hexact.since c
    have hpositive := hpolicy.positive
    omega
  | some old =>
    obtain ⟨now, hnow, hsame⟩ := (step_grows hstep).cycles c old hbefore
    obtain rfl := Option.some.inj (hcycle.symm.trans hnow)
    rw [hsame.autonomy] at hpolicy
    have hwithin : ¬ OutOfBudget m.sys.db c := by
      rintro ⟨row, hrow, hstopped⟩
      obtain ⟨rows, hrows⟩ := step_decisions hstep
      exact hbudget ⟨row, by rw [hrows]; exact List.mem_append_left _ hrow, hstopped⟩
    have hkeeps := step_keepsPace hinv hbefore hpolicy (hpaced c old n hbefore hpolicy hwithin) hstep
    rw [hsince]
    split
    · exact hpolicy.positive
    · rename_i hfiled
      refine Nat.lt_of_le_of_ne hkeeps.bounded fun heq => ?_
      exact (hkeeps.stops heq).elim hfiled hbudget

theorem paced_run {start : Runtime} (hstart : start.Initial)
    (h : Reaches Unguarded (Metered.step settings) (meter start) m) : Exact m ∧ Paced m := by
  refine h.invariant (fun m => Exact m ∧ Paced m) ?_ ⟨exact_meter hstart, ?_⟩
  · rintro m l m' ⟨hinv, hpaced⟩ - hstep
    exact ⟨exact_step hinv hstep, paced_step hinv hpaced hstep⟩
  · exact fun c cycle n _ hpolicy _ => hpolicy.positive

/-- In every run, a cycle whose policy pauses every `n` runs and which no budget has stopped has
counted fewer than `n` runs since its last gate decision.  A step pauses it on this gate exactly
when a decision within the budget counts the `n`-th; a decision behind an approved gate counts
nothing and does not pause on it. -/
theorem pauses_every_n_runs {settings : Settings} {start : Runtime} {m : Metered} {c : CycleId}
    {cycle : ResearchCycle} {n : Nat} (hstart : start.Initial)
    (hrun : Reaches Unguarded (Metered.step settings) (meter start) m)
    (hcycle : m.sys.db.cycles[c]? = some cycle) (hpolicy : PausesEvery cycle.autonomy n)
    (hbudget : ¬ OutOfBudget m.sys.db c) :
    m.sinceGate c < n ∧
      ∀ l m', Metered.step settings m l = some m' →
        m.counts m'.sys c ≤ n ∧
        (PausedPeriodically m.sys.db m'.sys.db c ↔
          DecidesWithin m.sys l c ∧ m.counts m'.sys c = n) ∧
        ∀ it, Decides m.sys l it → it.cycleId = c → gateDecisionsOf m.sys.db it.runId ≠ [] →
          m.counts m'.sys c = m.sinceGate c ∧ ¬ PausedPeriodically m.sys.db m'.sys.db c := by
  obtain ⟨hinv, hpaced⟩ := paced_run hstart hrun
  have hlt := hpaced c cycle n hcycle hpolicy hbudget
  refine ⟨hlt, fun l m' htaken => ?_⟩
  obtain ⟨hstep, -⟩ := metered_cases htaken
  have hkeeps := step_keepsPace hinv hcycle hpolicy hlt hstep
  refine ⟨hkeeps.bounded, hkeeps.pauses, fun it hd hc hgates => ?_⟩
  have hsame : m.counts m'.sys c = m.sinceGate c := by
    obtain ⟨txn, hdb, -, hbooks⟩ := decides_step hd hstep
    have htotal : totalOf m'.sys.db c = totalOf m.sys.db c := by
      rcases hbooks with rfl | hsettles
      · rw [hdb]
        rfl
      · obtain ⟨w, world, j, phase, job, -, -, -, -, -, hit⟩ := hd
        rw [hdb, settled_total hit hsettles, if_pos hc, (counted_total hit).2.2 hgates, hc]
    rw [Metered.counts, htotal, Nat.sub_self, Nat.add_zero]
  refine ⟨hsame, fun hpaused => ?_⟩
  have hn := (hkeeps.pauses.mp hpaused).2
  omega

open Synthetos.Runtime (work)

/-- One more run is counted, and the next decision pauses. -/
def pausesNext (m : Metered) : Bool :=
  m.sinceGate 0 == 1 && m.sys.db.decisions.all (fun row => row.decision == .continueCurrent) &&
    (m.sys.db.cycles[0]?.any fun cycle =>
      cycle.autonomy.checkpointGates.afterEveryNRuns == some 2 &&
        !cycle.autonomy.checkpointGates.afterEveryRun) &&
    (Metered.step {} m (.exec 0 {})).any fun m' =>
      (newDecisions m.sys.db m'.sys.db).any fun row => row.cycleId == 0 &&
        row.decision == .stopGate && row.gateTriggered == some .afterEveryNRuns

/-- The loop goes on after its first run and pauses after its second. -/
theorem pauses_every_n_runs_second : ∃ m m' : Metered, m.sinceGate 0 = 1 ∧
    Metered.step {} m (.exec 0 {}) = some m' ∧ m.counts m'.sys 0 = 2 ∧
      DecidesWithin m.sys (.exec 0 {}) 0 := by
  have hperform : (perform (fun _ _ => true) (Metered.step {})
      (meter (gatedCycle { afterEveryNRuns := some 2 }))
      (firstRun ++ work [{}] ++ secondRun.take (secondRun.length - 4))).any pausesNext = true := by
    decide +kernel
  obtain ⟨m, hrun, htest⟩ := Reaches.of_perform_all hperform
  unfold pausesNext at htest
  simp only [Bool.and_eq_true, beq_iff_eq] at htest
  obtain ⟨⟨⟨hsince, hdecisions⟩, hcycles⟩, hnext⟩ := htest
  obtain ⟨cycle, hcycle, hgates⟩ := (Option.any_eq_true _ _).mp hcycles
  obtain ⟨m', htaken, hpauses⟩ := (Option.any_eq_true _ _).mp hnext
  obtain ⟨row, hrow, hkind⟩ := List.any_eq_true.mp hpauses
  simp only [Bool.and_eq_true, beq_iff_eq, Bool.not_eq_true'] at hgates hkind
  obtain ⟨⟨hzero, hstop⟩, hname⟩ := hkind
  have hbudget : ¬ OutOfBudget m.sys.db 0 := by
    rintro ⟨row, hrow, -, hexhausted⟩
    have hcontinues := beq_iff_eq.mp (List.all_eq_true.mp hdecisions row hrow)
    rw [hexhausted] at hcontinues
    cases hcontinues
  obtain ⟨-, hsteps⟩ := pauses_every_n_runs (n := 2) (gatedCycle_initial _) hrun hcycle
    ⟨hgates.1, by decide, hgates.2⟩ hbudget
  obtain ⟨hwithin, hcounts⟩ := (hsteps _ m' htaken).2.1.mp ⟨row, hrow, hzero, hstop, hname⟩
  exact ⟨m, m', hsince, htaken, hcounts, hwithin⟩

end Synthetos.Loop
