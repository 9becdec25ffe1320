import Synthetos.Loop.Budgets
import Mathlib.Data.List.Dedup
import Mathlib.Algebra.GroupWithZero.Nat

/-!
# Every run is counted once

The counters only grow, every decision shows them as they are when it is filed, and a run that is
decided about is counted exactly once unless it is decided about again without a gate.
-/

namespace Synthetos.Loop

open Synthetos.Core Storage Lib Worker Api Autonomy Protocols Jobs

def decidedRuns (db : Db) : List RunId :=
  ((db.decisions.filter fun row => row.decision != .stopManual).map
    LoopDecision.runRecordId).dedup

/-- The runs counted for the hypothesis cards of a cycle, over all cards. -/
def sumOf (db : Db) (c : CycleId) : Nat :=
  ((((budgetOf db c).map AutonomyBudget.runsPerHypothesis).getD []).map Prod.snd).sum

/-- Every run the loop has decided about is counted once, for its cycle and its card. -/
structure Accounted (db : Db) : Prop where
  balanced : ∀ c, sumOf db c = totalOf db c
  charged : ∀ r ∈ decidedRuns db, ∃ c card, chargedTo db r = some (c, card)
  total : ∀ c, totalOf db c =
    (decidedRuns db).countP fun r => (chargedTo db r).any fun p => p.1 == c
  perCard : ∀ c card, countOf db c card =
    (decidedRuns db).countP fun r => chargedTo db r == some (c, card)

variable {settings : Settings} {start sys sys' : Runtime} {l : Label} {r : RunId} {db new : Db}
  {input : OperatorInput} {txn : Txn} {it : Iteration} {c : CycleId}

/-! ### Counters and snapshots -/

theorem counted_stores (hit : iterationOf db input = some it) :
    (counted db it).txn.budget = some (counted db it).budget ∧
      (counted db it).budget.cycleId = it.cycleId ∧
      (counted db it).cycleId = it.cycleId ∧
      totalOf db it.cycleId ≤ (counted db it).budget.totalRuns ∧
      ∀ card, countOf db it.cycleId card ≤ countFor (counted db it).budget.runsPerHypothesis card := by
  obtain ⟨hloaded, hstored, -⟩ := iterationOf_budget hit
  have kept : it.txn.budget = some it.budget ∧ it.budget.cycleId = it.cycleId ∧
      it.cycleId = it.cycleId ∧ totalOf db it.cycleId ≤ it.budget.totalRuns ∧
      ∀ card, countOf db it.cycleId card ≤ countFor it.budget.runsPerHypothesis card := by
    rw [hloaded]
    exact ⟨hstored, loadOrCreateBudget_cycle _ _, rfl, (totalOf_eq _ _).le,
      fun card => (countOf_eq _ _ _).le⟩
  unfold counted countRun
  split
  · split
    · exact kept
    · rename_i card hcard
      obtain ⟨-, hcycle, -, htotal, hcount⟩ := kept
      refine ⟨rfl, hcycle, rfl, Nat.le_succ_of_le htotal, fun other => ?_⟩
      change _ ≤ countFor (bump card it.budget.runsPerHypothesis) other
      rw [countFor_bump]
      exact Nat.le_add_right_of_le (hcount other)
  · exact kept

theorem countersGrow_stored {budget : AutonomyBudget} (hbudget : txn.budget = some budget)
    (hcycle : budget.cycleId = c) (htotal : totalOf db c ≤ budget.totalRuns)
    (hcount : ∀ card, countOf db c card ≤ countFor budget.runsPerHypothesis card) :
    CountersGrow db (db.commit txn) := by
  intro other
  have hstored := budgetOf_commit db hbudget other
  rw [hcycle] at hstored
  by_cases hc : c = other
  · subst hc
    rw [if_pos rfl] at hstored
    exact ⟨(totalOf_stored hstored).symm ▸ htotal,
      fun card => (countOf_stored hstored).symm ▸ hcount card⟩
  · rw [if_neg hc] at hstored
    constructor
    · rw [totalOf, totalOf, hstored]
    · intro card
      rw [countOf, countOf, hstored]

theorem countersGrow_same (h : ∀ c, budgetOf new c = budgetOf db c) : CountersGrow db new :=
  fun c => ⟨by rw [totalOf, totalOf, h], fun card => by rw [countOf, countOf, h]⟩

theorem step_countersGrow (h : Step settings sys l sys') : CountersGrow sys.db sys'.db := by
  have hwrites := step_writes h
  generalize sys'.db = db at hwrites
  cases hwrites with
  | unfiled _ db hsame => exact countersGrow_same (budgetOf_congr hsame.budgets)
  | manual q c charter seen db hpc hsame => exact countersGrow_same (budgetOf_congr hsame.budgets)
  | operator w world j phase job txn next hpc hj hout =>
    cases execute_books hout with
    | closed hbudget => exact countersGrow_same (budgetOf_commit_none _ hbudget)
    | decided it htype hfresh hit hsettles =>
      obtain ⟨hstored, hcycle, -, htotal, hcount⟩ := counted_stores hit
      exact countersGrow_stored (hsettles.budget.trans hstored) hcycle htotal hcount
    | prepared specId spec htype hphase hspec hbudget =>
      exact countersGrow_stored hbudget (loadOrCreateBudget_cycle _ _) (totalOf_eq _ _).le
        fun card => (countOf_eq _ _ _).le

theorem manualDecision_shows (db : Db) (c : CycleId) (charter : CharterId) :
    ∀ row ∈ manualDecision db c charter, ShowsCounters row db := by
  intro row hrow
  unfold manualDecision at hrow
  dsimp only at hrow
  split at hrow
  · obtain rfl := List.mem_singleton.mp hrow
    exact ⟨rfl, rfl, rfl⟩
  · split at hrow
    · obtain rfl := List.mem_singleton.mp hrow
      exact ⟨rfl, rfl, rfl⟩
    · exact absurd hrow List.not_mem_nil

theorem showsCounters_congr {row : LoopDecision} (h : ∀ c, budgetOf new c = budgetOf db c)
    (hshows : ShowsCounters row db) : ShowsCounters row new := by
  obtain ⟨htotal, hclock, hcounts⟩ := hshows
  exact ⟨by rw [htotal, totalOf, totalOf, h], by rw [hclock, h], by rw [hcounts, h]⟩

theorem step_shows (h : Step settings sys l sys') :
    ∃ rows, sys'.db.decisions = sys.db.decisions ++ rows ∧
      ∀ row ∈ rows, ShowsCounters row sys'.db := by
  have hwrites := step_writes h
  generalize sys'.db = db at hwrites
  cases hwrites with
  | unfiled _ db hsame =>
    exact ⟨[], by rw [hsame.decisions, List.append_nil], fun row hrow => absurd hrow List.not_mem_nil⟩
  | manual q c charter seen db hpc hsame hdecisions =>
    exact ⟨_, hdecisions, fun row hrow =>
      showsCounters_congr (budgetOf_congr hsame.budgets) (manualDecision_shows _ _ _ row hrow)⟩
  | operator w world j phase job txn next hpc hj hout =>
    refine ⟨txn.newDecisions, Db.commit_decisions _ _, fun row hrow => ?_⟩
    cases execute_books hout with
    | closed hbudget hdecisions =>
      rw [hdecisions] at hrow
      exact absurd hrow List.not_mem_nil
    | decided it htype hfresh hit hsettles =>
      obtain ⟨one, hone, hrecords⟩ := hsettles.files
      rw [hone] at hrow
      obtain rfl := List.mem_singleton.mp hrow
      obtain ⟨hstored, hbudget, hcycle, -⟩ := counted_stores hit
      refine showsCounters_stored hrecords.shows ?_
      rw [budgetOf_commit _ (hsettles.budget.trans hstored), hrecords.cycle, hcycle, if_pos hbudget]
    | prepared specId spec htype hphase hspec hbudget hdecisions =>
      rcases hdecisions with hnone | ⟨context, one, -, hone, -, hcycle, -, hshows⟩
      · rw [hnone] at hrow
        exact absurd hrow List.not_mem_nil
      · rw [hone] at hrow
        obtain rfl := List.mem_singleton.mp hrow
        refine showsCounters_stored hshows ?_
        rw [budgetOf_commit _ hbudget, hcycle, if_pos (loadOrCreateBudget_cycle _ _)]

/-! ### Runs of the system -/

theorem mem_decidedRuns : r ∈ decidedRuns db ↔
    ∃ row ∈ db.decisions, row.runRecordId = r ∧ row.decision ≠ .stopManual := by
  rw [decidedRuns, List.mem_dedup, List.mem_map]
  constructor
  · rintro ⟨row, hrow, hrun⟩
    obtain ⟨hmem, hauto⟩ := List.mem_filter.mp hrow
    exact ⟨row, hmem, hrun, by simpa using hauto⟩
  · rintro ⟨row, hmem, hrun, hauto⟩
    exact ⟨row, List.mem_filter.mpr ⟨hmem, by simpa using hauto⟩, hrun⟩

theorem accounted_of_booked (hinv : Booked db) (hnodup : (charges db.events).Nodup) :
    Accounted db := by
  have hperm : (charges db.events).Perm (decidedRuns db) := by
    apply (List.perm_ext_iff_of_nodup hnodup (List.nodup_dedup _)).mpr
    intro r
    refine Iff.trans ?_ mem_decidedRuns.symm
    constructor
    · exact hinv.filed r
    · rintro ⟨row, hmem, rfl, hauto⟩
      exact hinv.decided row hmem hauto
  constructor
  · intro c
    unfold sumOf totalOf
    cases hbudget : budgetOf db c with
    | none => rfl
    | some budget => exact hinv.balanced c budget hbudget
  · intro r hr
    obtain ⟨⟨c, card⟩, hp⟩ := hinv.founded r (hperm.mem_iff.mpr hr)
    exact ⟨c, card, hp⟩
  · exact fun c => (hinv.total c).trans (hperm.countP_eq _)
  · exact fun c card => (hinv.perCard c card).trans (hperm.countP_eq _)

theorem run_countersGrow (h : Reaches Unguarded (Runtime.step settings) start sys) :
    CountersGrow start.db sys.db :=
  h.invariant (fun sys => CountersGrow start.db sys.db)
    (fun _ _ _ hgrow _ hstep => hgrow.trans (step_countersGrow (step_cases hstep))) (.refl _)

/-- The step that filed a decision left the counters it shows. -/
theorem run_shows (hstart : start.Initial)
    (hrun : Reaches Unguarded (Runtime.step settings) start sys) {k : Nat} {row : LoopDecision}
    (hk : sys.db.decisions[k]? = some row) :
    ∃ before l after, Reaches Unguarded (Runtime.step settings) start before ∧
      Runtime.step settings before l = some after ∧
      Reaches Unguarded (Runtime.step settings) after sys ∧
      before.db.decisions[k]? = none ∧ after.db.decisions[k]? = some row ∧
      ShowsCounters row after.db := by
  induction hrun with
  | refl =>
    rw [hstart.decisions] at hk
    exact absurd hk nofun
  | @tail mid last hrun hstep ih =>
    obtain ⟨l, -, htaken⟩ := hstep
    cases hmid : mid.db.decisions[k]? with
    | some old =>
      obtain ⟨rows, hrows, -⟩ := step_shows (step_cases htaken)
      rw [hrows, Table.getElem?_append_old hmid] at hk
      obtain rfl := Option.some.inj hk
      obtain ⟨before, l', after, hbefore, hfiled, hafter, hfacts⟩ := ih hmid
      exact ⟨before, l', after, hbefore, hfiled, hafter.tail ⟨l, trivial, htaken⟩, hfacts⟩
    | none =>
      obtain ⟨rows, hrows, hshows⟩ := step_shows (step_cases htaken)
      have hnew : row ∈ rows := by
        have hout := List.getElem?_eq_none_iff.mp hmid
        rw [hrows, List.getElem?_append_right hout] at hk
        exact List.mem_of_getElem? hk
      exact ⟨mid, l, last, hrun, htaken, .refl last, hmid, hk, hshows row hnew⟩

/-- In every run that decides about a run again only behind a gate, each run is counted once; the
counters never decrease, and each decision shows them as they were when it was filed. -/
theorem runs_counted_once {settings : Settings} {start sys : Runtime} (hstart : start.Initial)
    (hrun : Reaches DecidesOnce (Runtime.step settings) start sys) :
    Accounted sys.db ∧
      (∀ mid, Reaches Unguarded (Runtime.step settings) mid sys → CountersGrow mid.db sys.db) ∧
      ∀ (k : Nat) row, sys.db.decisions[k]? = some row →
        ∃ before l after, Reaches Unguarded (Runtime.step settings) start before ∧
          Runtime.step settings before l = some after ∧
          Reaches Unguarded (Runtime.step settings) after sys ∧
          before.db.decisions[k]? = none ∧ after.db.decisions[k]? = some row ∧
          ShowsCounters row after.db := by
  obtain ⟨hinv, hnodup⟩ := booked_run hstart hrun
  exact ⟨accounted_of_booked hinv hnodup, fun _ => run_countersGrow,
    fun k row => run_shows hstart (hrun.mono fun _ _ _ => trivial)⟩

/-! ### A run paused by hand -/

open Synthetos.Runtime (work)

/-- The loop job is paused while its operator decides, and resumed afterwards. -/
def pausedDecision : List Label :=
  [.claim 0 [], .start 0, .receive 0 (.pauseJob 6), .respond 0, .exec 0 {}, .readOutcome 0,
    .readTarget 0, .writeOutcome 0, .claim 1 [], .receive 0 (.resumeJob 6), .respond 0]

theorem decidesOnce_of_gated
    (h : (sys.db.decisions.all fun row => row.decision == .stopGate) = true) :
    DecidesOnce sys l := by
  rintro w world j phase job r - - - - - - ⟨row, hmem, hrun, -⟩ hnone
  have hgate := List.all_eq_true.mp h row hmem
  have hin : row ∈ gateDecisionsOf sys.db r :=
    List.mem_filter.mpr ⟨hmem, by rw [hrun, hgate, beq_self_eq_true]; rfl⟩
  rw [hnone] at hin
  exact absurd hin List.not_mem_nil

/-- A run that a gate paused is counted once after it was approved. -/
theorem runs_counted_once_gated : ∃ sys : Runtime, Accounted sys.db ∧
    sys.db.decisions.map LoopDecision.decision = [.stopGate, .continueCurrent] ∧
      totalOf sys.db 0 = 1 := by
  obtain ⟨sys, hrun, -, htest⟩ := Reaches.of_perform_any (fun _ => True)
    (fun sys l _ h => decidesOnce_of_gated h) (fun _ _ _ _ _ _ => trivial) trivial
    (show (perform (fun sys _ => sys.db.decisions.all fun row => row.decision == .stopGate)
      (Runtime.step {}) (gatedCycle { afterEveryRun := true })
      (firstRun ++ work [{}] ++ resumeGate ++ [.claim 0 [], .start 0, .exec 0 {}])).any (fun sys =>
        sys.db.decisions.map LoopDecision.decision == [.stopGate, .continueCurrent] &&
          totalOf sys.db 0 == 1) = true by decide +kernel)
  simp only [Bool.and_eq_true, beq_iff_eq] at htest
  exact ⟨sys, (runs_counted_once (gatedCycle_initial _) hrun).1, htest⟩

/-- A run whose loop job is paused while it decides is counted again when the job is resumed. -/
theorem paused_run_counted_twice : ∃ sys : Runtime, (gatedCycle {}).Initial ∧
    Reaches Unguarded (Runtime.step {}) (gatedCycle {}) sys ∧ decidedRuns sys.db = [0] ∧
      totalOf sys.db 0 = 2 := by
  obtain ⟨sys, hrun, htest⟩ := Runtime.run_of_anyone
    (show (perform Runtime.anyone (Runtime.step {}) (gatedCycle {})
      (firstRun ++ pausedDecision ++ work [{}])).any (fun sys =>
        decidedRuns sys.db == [0] && totalOf sys.db 0 == 2) = true by decide +kernel)
  simp only [Bool.and_eq_true, beq_iff_eq] at htest
  exact ⟨sys, gatedCycle_initial _, hrun, htest⟩

end Synthetos.Loop
