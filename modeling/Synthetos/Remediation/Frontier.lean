import Synthetos.Lib.Leader
import Synthetos.Remediation.Signal

/-!
# The frontier over the history of a hypothesis line

The row `upsert_frontier` maintains is compared with its definition over all calls made for the
line.
-/

namespace Synthetos.Remediation

open Synthetos.Core Storage Lib

/-- The arguments of one `upsert_frontier` call for a hypothesis line. -/
structure FrontierCall where
  spec : SpecId
  run : RunId
  metricName : String
  metricDirection : String
  value : Rat
  isSuccessful : Bool

/-- One call, with the transaction that stores its row. -/
def applyCall (charter : CharterId) (card : CardId) (db : Db) (call : FrontierCall) : Db :=
  db.commit {
    frontier := some (upsertFrontier db charter card call.spec call.run call.metricName
      call.metricDirection call.value call.isSuccessful).1 }

def applyCalls (charter : CharterId) (card : CardId) (db : Db) (calls : List FrontierCall) : Db :=
  calls.foldl (applyCall charter card) db

/-- `a` has the better metric value under `direction`. -/
def Better (direction : String) (a b : FrontierCall) : Prop :=
  isImprovement a.value b.value direction = true

/-- A successful call that reported the metric `name`. -/
def countsFor (name : String) (call : FrontierCall) : Bool :=
  call.isSuccessful && call.metricName == name

/-- What a frontier row says about the calls made for its line. -/
structure Describes (history : List FrontierCall) (row : MetricFrontier) : Prop where
  total : row.totalRuns = history.length
  successful : row.successfulRuns = history.countP FrontierCall.isSuccessful
  best : ∃ call, Leads (Better row.primaryMetricDirection)
    (history.filter (countsFor row.primaryMetricName)) call ∧
      call.value = row.bestMetricValue ∧ call.run = row.bestRunId
  since : SinceImproved (Better row.primaryMetricDirection) (countsFor row.primaryMetricName)
    history row.runsSinceImprovement

/-- A call for the metric of the line compares with the best call so far as in the direction of the
line, and a call for another metric is no improvement on it. -/
def Comparable (name direction : String) (leader call : FrontierCall) : Prop :=
  if call.metricName = name then
    isImprovement call.value leader.value call.metricDirection =
      isImprovement call.value leader.value direction
  else isImprovement call.value leader.value call.metricDirection = false

/-- The line starts with a successful call, and every later successful call is comparable with the
best one so far. -/
structure OneMetric (history : List FrontierCall) : Prop where
  started : ∀ first, history.head? = some first → first.isSuccessful = true
  comparable : ∀ before call after first leader, history = before ++ call :: after →
    before.head? = some first → call.isSuccessful = true →
      Leads (Better first.metricDirection) (before.filter (countsFor first.metricName)) leader →
        Comparable first.metricName first.metricDirection leader call

variable {charter : CharterId} {card : CardId} {db : Db} {history : List FrontierCall}
  {call first leader : FrontierCall} {row : MetricFrontier} {direction : String}

theorem better_iff {a b : FrontierCall} : Better direction a b ↔
    if direction = "maximize" then b.value < a.value else a.value < b.value := by
  unfold Better isImprovement
  split
  · exact decide_eq_true_iff
  · exact decide_eq_true_iff

instance : IsStrictOrder FrontierCall (Better direction) where
  irrefl a h := by
    rw [better_iff] at h
    split at h
    · exact lt_irrefl _ h
    · exact lt_irrefl _ h
  trans a b c hab hbc := by
    rw [better_iff] at hab hbc ⊢
    split at hab
    · rw [if_pos ‹_›] at hbc ⊢
      exact lt_trans hbc hab
    · rw [if_neg ‹_›] at hbc ⊢
      exact lt_trans hab hbc

instance : IsOrderConnected FrontierCall (Better direction) where
  conn a b c hac := by
    simp only [better_iff] at hac ⊢
    split at hac
    · simp only [if_pos ‹direction = "maximize"›]
      exact (lt_or_ge b.value a.value).imp_right fun h => lt_of_lt_of_le hac h
    · simp only [if_neg ‹¬direction = "maximize"›]
      exact (lt_or_ge a.value b.value).imp_right fun h => lt_of_le_of_lt h hac

/-! ### One call -/

def rowAfter (charter : CharterId) (card : CardId) (db : Db) (call : FrontierCall) :
    MetricFrontier :=
  (upsertFrontier db charter card call.spec call.run call.metricName call.metricDirection call.value
    call.isSuccessful).1

theorem loadFrontier_key (h : loadFrontier db charter card = some row) :
    row.charterId = charter ∧ row.hypothesisCardId = card := by
  have hkey := List.find?_some h
  simpa using hkey

theorem rowAfter_key (charter : CharterId) (card : CardId) (db : Db) (call : FrontierCall) :
    (rowAfter charter card db call).charterId = charter ∧
    (rowAfter charter card db call).hypothesisCardId = card := by
  unfold rowAfter upsertFrontier
  cases hload : loadFrontier db charter card with
  | none => exact ⟨rfl, rfl⟩
  | some row =>
    have hkey := loadFrontier_key hload
    dsimp only
    split
    · exact hkey
    · exact hkey

theorem loadFrontier_applyCall :
    loadFrontier (applyCall charter card db call) charter card =
      some (rowAfter charter card db call) := by
  obtain ⟨hcharter, hcard⟩ := rowAfter_key charter card db call
  change (Db.upsertFrontier db.frontiers (some (rowAfter charter card db call))).find? _ = _
  unfold Db.upsertFrontier
  dsimp only
  rw [hcharter, hcard]
  exact Table.find?_upsert (by simp [hcharter, hcard])

theorem rowAfter_of_none (h : loadFrontier db charter card = none) :
    rowAfter charter card db call =
      { charterId := charter, hypothesisCardId := card, primaryMetricName := call.metricName
        primaryMetricDirection := call.metricDirection, bestRunId := call.run
        bestExperimentSpecId := call.spec, bestMetricValue := call.value, totalRuns := 1
        successfulRuns := if call.isSuccessful then 1 else 0, runsSinceImprovement := 0 } := by
  unfold rowAfter upsertFrontier
  rw [h]

/-- What a later call does to the row. -/
structure Advances (row new : MetricFrontier) (call : FrontierCall) : Prop where
  name : new.primaryMetricName = row.primaryMetricName
  direction : new.primaryMetricDirection = row.primaryMetricDirection
  total : new.totalRuns = row.totalRuns + 1
  successful : new.successfulRuns = row.successfulRuns + if call.isSuccessful then 1 else 0
  moved : (isImprovement call.value row.bestMetricValue call.metricDirection = true ∧
      call.isSuccessful = true ∧ new.bestMetricValue = call.value ∧ new.bestRunId = call.run ∧
      new.runsSinceImprovement = 0) ∨
    ((call.isSuccessful = true →
        isImprovement call.value row.bestMetricValue call.metricDirection = false) ∧
      new.bestMetricValue = row.bestMetricValue ∧ new.bestRunId = row.bestRunId ∧
      new.runsSinceImprovement = row.runsSinceImprovement + 1)

theorem rowAfter_of_some (h : loadFrontier db charter card = some row) :
    Advances row (rowAfter charter card db call) call := by
  unfold rowAfter upsertFrontier
  rw [h]
  dsimp only
  split
  · rename_i hbetter
    rw [Bool.and_eq_true] at hbetter
    exact ⟨rfl, rfl, rfl, rfl, .inl ⟨hbetter.1, hbetter.2, rfl, rfl, rfl⟩⟩
  · rename_i hnot
    refine ⟨rfl, rfl, rfl, rfl, .inr ⟨fun hsuccess => ?_, rfl, rfl, rfl⟩⟩
    simpa [hsuccess] using hnot

/-! ### The history of a line -/

theorem value_of_leads {a b : FrontierCall} {calls : List FrontierCall}
    (ha : Leads (Better direction) calls a) (hb : Leads (Better direction) calls b) :
    a.value = b.value := by
  have hab := ha.best b hb.mem
  have hba := hb.best a ha.mem
  rw [better_iff] at hab hba
  split at hab
  · rw [if_pos ‹_›] at hba
    exact le_antisymm (not_lt.mp hba) (not_lt.mp hab)
  · rw [if_neg ‹_›] at hba
    exact le_antisymm (not_lt.mp hab) (not_lt.mp hba)

theorem comparable_frontier_iff {name : String} :
    (call.isSuccessful = true → Comparable name direction leader call) ↔
      (call.isSuccessful = true ∧
          isImprovement call.value leader.value call.metricDirection = true ↔
        countsFor name call = true ∧ Better direction call leader) := by
  unfold Comparable countsFor Better
  cases call.isSuccessful with
  | false => simp
  | true =>
    by_cases hname : call.metricName = name
    · simp only [hname, if_true, true_and, true_implies, Bool.true_and, beq_self_eq_true]
      exact Bool.eq_iff_iff
    · simp [hname]

theorem describes_first (h : loadFrontier db charter card = none) :
    Describes [call] (rowAfter charter card db call) ↔ call.isSuccessful = true := by
  rw [rowAfter_of_none h]
  constructor
  · intro hdescribes
    obtain ⟨leader, hleads, -⟩ := hdescribes.best
    obtain ⟨hmem, hcounts⟩ := List.mem_filter.mp hleads.mem
    obtain rfl := List.mem_singleton.mp hmem
    exact (Bool.and_eq_true_iff.mp hcounts).1
  · intro hsuccess
    have hcounts : countsFor call.metricName call = true := by simp [countsFor, hsuccess]
    constructor
    · rfl
    · simp [hsuccess]
    · refine ⟨call, ?_, rfl, rfl⟩
      rw [List.filter_cons_of_pos hcounts]
      exact leads_singleton
    · exact .here [] call hcounts fun _ hb => absurd hb List.not_mem_nil

theorem describes_snoc {new : MetricFrontier} (h : Describes history row)
    (hadvances : Advances row new call) (hleads : Leads (Better row.primaryMetricDirection)
      (history.filter (countsFor row.primaryMetricName)) leader) :
    Describes (history ++ [call]) new ↔
      (call.isSuccessful = true →
        Comparable row.primaryMetricName row.primaryMetricDirection leader call) := by
  obtain ⟨best, hbest, hvalue, hrun⟩ := h.best
  have hlead : row.bestMetricValue = leader.value := hvalue.symm.trans (value_of_leads hbest hleads)
  have himproves := hleads.improves_iff (b := call)
  rw [comparable_frontier_iff]
  constructor
  · intro hdescribes
    have hsince := hdescribes.since
    rw [hadvances.name, hadvances.direction, SinceImproved.snoc_iff, himproves] at hsince
    rcases hadvances.moved with ⟨hbetter, hsuccess, -, -, hzero⟩ | ⟨hnot, -, -, hnext⟩
    · rw [hlead] at hbetter
      rcases hsince with ⟨-, hcounts, hcall⟩ | ⟨m, hm, -⟩
      · exact ⟨fun _ => ⟨hcounts, hcall⟩, fun _ => ⟨hsuccess, hbetter⟩⟩
      · rw [hzero] at hm
        exact absurd hm nofun
    · rw [hlead] at hnot
      rcases hsince with ⟨hm, -⟩ | ⟨m, -, -, hsame⟩
      · rw [hnext] at hm
        exact absurd hm nofun
      · constructor
        · rintro ⟨hsuccess, hbetter⟩
          exact absurd ((hnot hsuccess).symm.trans hbetter) nofun
        · rintro ⟨hcounts, hcall⟩
          exact absurd hcall (hsame hcounts)
  · intro hagree
    have htotal : new.totalRuns = (history ++ [call]).length := by
      rw [hadvances.total, h.total, List.length_append, List.length_singleton]
    have hsuccessful : new.successfulRuns = (history ++ [call]).countP FrontierCall.isSuccessful := by
      rw [hadvances.successful, h.successful, List.countP_append, List.countP_singleton]
    refine ⟨htotal, hsuccessful, ?_, ?_⟩
    · rw [hadvances.name, hadvances.direction, List.filter_append]
      rcases hadvances.moved with ⟨hbetter, hsuccess, hnew, hnewRun, -⟩ | ⟨hnot, hnew, hnewRun, -⟩
      · rw [hlead] at hbetter
        obtain ⟨hcounts, hcall⟩ := hagree.mp ⟨hsuccess, hbetter⟩
        rw [List.filter_cons_of_pos hcounts, hnew, hnewRun]
        exact ⟨call, hleads.snoc_of_better hcall, rfl, rfl⟩
      · rw [hnew, hnewRun]
        refine ⟨best, ?_, hvalue, hrun⟩
        by_cases hcounts : countsFor row.primaryMetricName call = true
        · rw [List.filter_cons_of_pos hcounts]
          refine hbest.snoc_of_not fun hcall => ?_
          have hleader := hleads.improves_iff.mp (hbest.improves_iff.mpr hcall)
          obtain ⟨hsuccess, hbetter⟩ := hagree.mpr ⟨hcounts, hleader⟩
          rw [← hlead] at hbetter
          exact absurd ((hnot hsuccess).symm.trans hbetter) nofun
        · rw [List.filter_cons_of_neg hcounts]
          simpa using hbest
    · rw [hadvances.name, hadvances.direction, SinceImproved.snoc_iff, himproves]
      rcases hadvances.moved with ⟨hbetter, hsuccess, -, -, hzero⟩ | ⟨hnot, -, -, hnext⟩
      · rw [hlead] at hbetter
        obtain ⟨hcounts, hcall⟩ := hagree.mp ⟨hsuccess, hbetter⟩
        exact .inl ⟨hzero, hcounts, hcall⟩
      · refine .inr ⟨_, hnext, h.since, fun hcounts hcall => ?_⟩
        obtain ⟨hsuccess, hbetter⟩ := hagree.mpr ⟨hcounts, hcall⟩
        rw [← hlead] at hbetter
        exact absurd ((hnot hsuccess).symm.trans hbetter) nofun

theorem applyCalls_snoc : applyCalls charter card db (history ++ [call]) =
    applyCall charter card (applyCalls charter card db history) call := by
  rw [applyCalls, List.foldl_append]
  rfl

theorem applyCalls_row (hnone : loadFrontier db charter card = none)
    (hfirst : history.head? = some first) :
    ∃ row, loadFrontier (applyCalls charter card db history) charter card = some row ∧
      row.primaryMetricName = first.metricName ∧
      row.primaryMetricDirection = first.metricDirection := by
  induction history using List.reverseRecOn with
  | nil => exact absurd hfirst nofun
  | append_singleton history call ih =>
    rw [applyCalls_snoc, loadFrontier_applyCall]
    refine ⟨_, rfl, ?_⟩
    cases history with
    | nil =>
      obtain rfl := Option.some.inj hfirst
      rw [applyCalls, List.foldl_nil, rowAfter_of_none hnone]
      exact ⟨rfl, rfl⟩
    | cons head rest =>
      obtain ⟨row, hrow, hname, hdirection⟩ := ih hfirst
      have hadvances := (rowAfter_of_some hrow : Advances row (rowAfter charter card _ call) call)
      exact ⟨hadvances.name.trans hname, hadvances.direction.trans hdirection⟩

theorem oneMetric_snoc (hfirst : history.head? = some first) :
    OneMetric (history ++ [call]) ↔ OneMetric history ∧ (call.isSuccessful = true → ∀ leader,
      Leads (Better first.metricDirection) (history.filter (countsFor first.metricName)) leader →
        Comparable first.metricName first.metricDirection leader call) := by
  have hhead : (history ++ [call]).head? = some first := by
    rw [List.head?_append, hfirst]
    rfl
  constructor
  · intro h
    refine ⟨⟨fun head hhead' => ?_, ?_⟩, fun hsuccess leader hleads => ?_⟩
    · exact h.started head (hhead.trans (hfirst.symm.trans hhead'))
    · rintro before c after head leader rfl hhead' hsuccess hleads
      refine h.comparable before c (after ++ [call]) head leader ?_ hhead' hsuccess hleads
      rw [List.append_assoc, List.cons_append]
    · exact h.comparable history call [] first leader rfl hfirst hsuccess hleads
  · rintro ⟨h, hlast⟩
    constructor
    · intro head hhead'
      exact h.started head (hfirst.trans (hhead.symm.trans hhead'))
    · intro before c after head leader hall hhead' hsuccess hleads
      cases after using List.reverseRecOn with
      | nil =>
        obtain ⟨rfl, hc⟩ := List.append_inj' hall rfl
        obtain rfl := List.singleton_inj.mp hc
        obtain rfl := Option.some.inj (hfirst.symm.trans hhead')
        exact hlast hsuccess leader hleads
      | append_singleton after last =>
        rw [← List.cons_append, ← List.append_assoc] at hall
        obtain ⟨rfl, -⟩ := List.append_inj' hall rfl
        exact h.comparable before c after head leader rfl hhead' hsuccess hleads

theorem oneMetric_singleton : OneMetric [call] ↔ call.isSuccessful = true := by
  constructor
  · exact fun h => h.started call rfl
  · intro hsuccess
    constructor
    · intro first hfirst
      obtain rfl := Option.some.inj hfirst
      exact hsuccess
    · intro before c after first leader hall hfirst
      cases before with
      | nil => exact absurd hfirst nofun
      | cons head rest => exact absurd hall (by simp)

/-- After every call the frontier row agrees with its definition over the calls so far exactly when
the line measures one metric. -/
theorem frontier_describes {charter : CharterId} {card : CardId} {db : Db}
    (hnone : loadFrontier db charter card = none) (history : List FrontierCall) :
    (∀ before, before <+: history → before ≠ [] →
      ∃ row, loadFrontier (applyCalls charter card db before) charter card = some row ∧
        Describes before row) ↔ OneMetric history := by
  induction history using List.reverseRecOn with
  | nil =>
    constructor
    · exact fun _ => ⟨fun _ h => absurd h nofun, fun _ _ _ _ _ h => absurd h (by simp)⟩
    · intro _ before hbefore hne
      exact absurd (List.prefix_nil.mp hbefore) hne
  | append_singleton history call ih =>
    have hprefixes : (∀ before, before <+: history ++ [call] → before ≠ [] →
        ∃ row, loadFrontier (applyCalls charter card db before) charter card = some row ∧
          Describes before row) ↔ OneMetric history ∧
        Describes (history ++ [call]) (rowAfter charter card (applyCalls charter card db history) call) := by
      rw [← ih]
      constructor
      · intro h
        refine ⟨fun before hbefore => h before (hbefore.trans (List.prefix_append _ _)), ?_⟩
        obtain ⟨row, hrow, hdescribes⟩ := h _ (List.prefix_refl _) (by simp)
        rw [applyCalls_snoc, loadFrontier_applyCall] at hrow
        rwa [Option.some.inj hrow]
      · rintro ⟨h, hlast⟩ before hbefore hne
        rcases List.prefix_concat_iff.mp hbefore with rfl | hbefore
        · rw [applyCalls_snoc, loadFrontier_applyCall]
          exact ⟨_, rfl, hlast⟩
        · exact h before hbefore hne
    rw [hprefixes]
    cases hhistory : history.head? with
    | none =>
      obtain rfl := List.head?_eq_none_iff.mp hhistory
      rw [List.nil_append, oneMetric_singleton]
      refine ⟨fun h => (describes_first hnone).mp h.2, fun hsuccess => ⟨?_, ?_⟩⟩
      · exact ⟨fun _ h => absurd h nofun, fun _ _ _ _ _ h => absurd h (by simp)⟩
      · exact (describes_first hnone).mpr hsuccess
    | some first =>
      rw [oneMetric_snoc hhistory, and_congr_right_iff]
      intro hone
      have hne : history ≠ [] := by
        rintro rfl
        exact absurd hhistory nofun
      obtain ⟨row, hrow, hdescribes⟩ := ih.mpr hone history (List.prefix_refl _) hne
      obtain ⟨row', hrow', hname, hdirection⟩ := applyCalls_row hnone hhistory
      obtain rfl := Option.some.inj (hrow.symm.trans hrow')
      have hadvances := (rowAfter_of_some hrow : Advances row (rowAfter charter card _ call) call)
      obtain ⟨leader, hleads, -⟩ := hdescribes.best
      rw [← hname, ← hdirection]
      constructor
      · exact fun h hsuccess leader hleads => (describes_snoc hdescribes hadvances hleads).mp h hsuccess
      · exact fun h => (describes_snoc hdescribes hadvances hleads).mpr
          fun hsuccess => h hsuccess leader hleads

/-- A line that starts with a success and reports one metric throughout. -/
theorem oneMetric_of_uniform {name : String}
    (hstart : ∀ first, history.head? = some first → first.isSuccessful = true)
    (hsame : ∀ call ∈ history, call.metricName = name ∧ call.metricDirection = direction) :
    OneMetric history := by
  refine ⟨hstart, fun before call after first leader hall hfirst _ _ => ?_⟩
  obtain ⟨hname, hdirection⟩ := hsame call (by simp [hall])
  obtain ⟨hname', hdirection'⟩ := hsame first
    (by rw [hall]; exact List.mem_append_left _ (List.mem_of_mem_head? hfirst))
  rw [Comparable, if_pos (hname.trans hname'.symm), hdirection, hdirection']

/-- A success, a failure that reports a better value, and another success. -/
def mixedLine : List FrontierCall :=
  [⟨0, 0, "accuracy", "maximize", 1 / 2, true⟩, ⟨0, 1, "accuracy", "maximize", 9 / 10, false⟩,
    ⟨1, 2, "accuracy", "maximize", 3 / 4, true⟩]

theorem frontier_describes_mixed : ∃ row,
    loadFrontier (applyCalls 0 0 {} mixedLine) 0 0 = some row ∧ Describes mixedLine row := by
  refine (frontier_describes rfl mixedLine).mpr ?_ _ (List.prefix_refl _) (List.cons_ne_nil _ _)
  have hsame : ∀ call ∈ mixedLine, call.metricName = "accuracy" ∧
      call.metricDirection = "maximize" := by decide
  refine oneMetric_of_uniform ?_ hsame
  rintro first hfirst
  obtain rfl := Option.some.inj hfirst
  rfl

/-- A failed first call stays the best one although a successful call follows. -/
theorem failed_call_leads : ¬ ∃ row,
    loadFrontier (applyCalls 0 0 {} [⟨0, 0, "accuracy", "maximize", 9 / 10, false⟩,
      ⟨0, 1, "accuracy", "maximize", 1 / 2, true⟩]) 0 0 = some row ∧
      Describes [⟨0, 0, "accuracy", "maximize", 9 / 10, false⟩,
        ⟨0, 1, "accuracy", "maximize", 1 / 2, true⟩] row := by
  rintro ⟨row, hrow, hdescribes⟩
  have hbest : (loadFrontier (applyCalls 0 0 {} [⟨0, 0, "accuracy", "maximize", 9 / 10, false⟩,
      ⟨0, 1, "accuracy", "maximize", 1 / 2, true⟩]) 0 0).map MetricFrontier.bestRunId = some 0 := by
    decide +kernel
  rw [hrow] at hbest
  obtain ⟨call, hleads, hvalue, hrun⟩ := hdescribes.best
  obtain ⟨hmem, hcounts⟩ := List.mem_filter.mp hleads.mem
  rcases List.mem_cons.mp hmem with rfl | hmem
  · exact absurd hcounts nofun
  · obtain rfl := List.mem_singleton.mp hmem
    exact absurd (hrun.trans (Option.some.inj hbest)) nofun

end Synthetos.Remediation
