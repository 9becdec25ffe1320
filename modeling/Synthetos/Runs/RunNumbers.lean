import Synthetos.Runs.Numbering
import Synthetos.Runtime.Solo

/-!
# When run numbers are unique
-/

namespace Synthetos.Runs

open Synthetos.Core Storage Lib Worker Api Autonomy

/-- No run of the spec of `new` was created since the transaction read `seen`, and a remediated
run is the latest run of its spec. -/
def upToDate (seen : Db) (runs : List RunRecord) (new : RunRecord) : Bool :=
  (numbersOf seen.runs new.experimentSpecId).length ==
      (numbersOf runs new.experimentSpecId).length &&
    new.parentRunId.all fun r =>
      (seen.runs.drop (r + 1)).all fun run => run.experimentSpecId != new.experimentSpecId

/-- The runs a commit adds are up to date. -/
def isCurrent (s : Numbering) : NumberingLabel → Bool
  | .commit k tables =>
    match s.writers k with
    | some (transaction, seen) =>
      let after := (transaction.commit seen { tables with runs := s.runs }).runs
      (after.drop s.runs.length).all (upToDate seen s.runs)
    | none => true
  | _ => true

def Current (s : Numbering) (l : NumberingLabel) : Prop := isCurrent s l = true

/-- The runs of every spec are numbered in the order of their creation. -/
def Ordered (runs : List RunRecord) : Prop := ∀ spec, Consecutive (numbersOf runs spec)

/-- What an open transaction has read is the beginning of the table. -/
def ReadsPrefix (s : Numbering) : Prop :=
  ∀ k transaction seen, s.writers k = some (transaction, seen) →
    ∀ spec, numbersOf seen.runs spec <+: numbersOf s.runs spec

variable {seen db : Db} {runs after : List RunRecord} {spec : SpecId} {new run : RunRecord}
  {r : RunId} {s t : Numbering} {l : NumberingLabel} {ls : List NumberingLabel}

theorem numbersOf_eq_nil : numbersOf runs spec = [] ↔ ∀ run ∈ runs, run.experimentSpecId ≠ spec := by
  simp [numbersOf]

theorem number_eq_length_iff (h : Consecutive (numbersOf runs run.experimentSpecId))
    (hrun : runs[r]? = some run) :
    run.runNumber = (numbersOf runs run.experimentSpecId).length ↔
      ∀ later ∈ runs.drop (r + 1), later.experimentSpecId ≠ run.experimentSpecId := by
  obtain ⟨hlt, hget⟩ := List.getElem?_eq_some_iff.mp hrun
  have hsplit : runs = runs.take r ++ ([run] ++ runs.drop (r + 1)) := by
    rw [List.singleton_append, ← hget, List.getElem_cons_drop, List.take_append_drop]
  rw [← numbersOf_eq_nil]
  generalize runs.take r = before at hsplit
  generalize runs.drop (r + 1) = later at hsplit
  subst hsplit
  rw [numbersOf_append, numbersOf_append, numbersOf_singleton_self, List.singleton_append] at *
  have hnumber := h.eq_of_middle
  rw [List.length_append, List.length_cons, ← List.length_eq_zero_iff]
  omega

theorem number_mem (hrun : runs[r]? = some run) :
    run.runNumber ∈ numbersOf runs run.experimentSpecId := by
  refine List.mem_map.mpr ⟨run, List.mem_filter.mpr ⟨List.mem_of_getElem? hrun, ?_⟩, rfl⟩
  exact beq_self_eq_true _

theorem nodup_new_iff (hordered : Ordered runs)
    (hseen : ∀ spec, numbersOf seen.runs spec <+: numbersOf runs spec) (hnew : Numbers seen new) :
    (numbersOf runs new.experimentSpecId ++ [new.runNumber]).Nodup ↔
      upToDate seen runs new = true := by
  have hruns := hordered new.experimentSpecId
  have hpast := hseen new.experimentSpecId
  cases hnew with
  | counted h hroot =>
    rw [h, runsOfSpec_eq, hruns.nodup_append_next_iff hpast]
    simp [upToDate, hroot]
  | largest h hroot =>
    rw [h, nextRunNumber_eq, (hruns.of_prefix hpast).foldl_max, hruns.nodup_append_next_iff hpast]
    simp [upToDate, hroot]
  | remediated r run hrun h =>
    subst h
    change Consecutive (numbersOf runs run.experimentSpecId) at hruns
    change numbersOf seen.runs run.experimentSpecId <+: numbersOf runs run.experimentSpecId at hpast
    have hseenRuns := hruns.of_prefix hpast
    have hle := hpast.length_le
    have hnumber := (hseenRuns.mem_iff.mp (number_mem hrun)).2
    have hlatest := number_eq_length_iff hseenRuns hrun
    have hdate : upToDate seen runs (Remediation.retryRun run r) = true ↔
        (numbersOf seen.runs run.experimentSpecId).length =
            (numbersOf runs run.experimentSpecId).length ∧
          ∀ later ∈ seen.runs.drop (r + 1), later.experimentSpecId ≠ run.experimentSpecId := by
      simp [upToDate, Remediation.retryRun]
    rw [hdate, ← hlatest]
    change (numbersOf runs run.experimentSpecId ++ [run.runNumber + 1]).Nodup ↔ _
    rw [hruns.nodup_append_iff (Nat.succ_pos _)]
    omega

theorem number_le (hordered : Ordered runs)
    (hseen : ∀ spec, numbersOf seen.runs spec <+: numbersOf runs spec) (hnew : Numbers seen new) :
    new.runNumber ≤ (numbersOf runs new.experimentSpecId).length + 1 := by
  have hruns := hordered new.experimentSpecId
  have hpast := hseen new.experimentSpecId
  have hle := hpast.length_le
  cases hnew with
  | counted h hroot =>
    rw [h, runsOfSpec_eq]
    omega
  | largest h hroot =>
    rw [h, nextRunNumber_eq, (hruns.of_prefix hpast).foldl_max]
    omega
  | remediated r run hrun h =>
    subst h
    change numbersOf seen.runs run.experimentSpecId <+: _ at hpast
    have hnumber := (hruns.of_prefix hpast).mem_iff.mp (number_mem hrun)
    exact Nat.succ_le_succ (Nat.le_trans hnumber.2 hle)

/-! ### One commit -/

theorem ordered_distinct (h : Ordered runs) : DistinctNumbers runs := fun spec => (h spec).nodup

theorem adds_numbers (h : Adds seen runs after) : numbersOf runs spec <+: numbersOf after spec := by
  cases h with
  | none hnumbers =>
    rewrite [hnumbers]
    exact List.prefix_rfl
  | one new old hnumbers hlength hafter =>
    rw [hafter, numbersOf_append, hnumbers]
    exact List.prefix_append _ _

theorem adds_distinct_iff (hordered : Ordered runs)
    (hseen : ∀ spec, numbersOf seen.runs spec <+: numbersOf runs spec)
    (h : Adds seen runs after) :
    DistinctNumbers after ↔ (after.drop runs.length).all (upToDate seen runs) = true := by
  cases h with
  | none hnumbers hlength =>
    rw [List.drop_eq_nil_of_le (Nat.le_of_eq hlength)]
    refine iff_of_true (fun spec => ?_) rfl
    rw [hnumbers]
    exact (hordered spec).nodup
  | one new old hnumbers hlength hafter hnew =>
    subst hafter
    rw [← hlength, List.drop_left, List.all_cons, List.all_nil, Bool.and_true,
      ← nodup_new_iff hordered hseen hnew]
    constructor
    · intro h
      have hspec := h new.experimentSpecId
      rwa [numbersOf_append, hnumbers, numbersOf_singleton_self] at hspec
    · intro h spec
      rw [numbersOf_append, hnumbers]
      by_cases hspec : new.experimentSpecId = spec
      · subst hspec
        rwa [numbersOf_singleton_self]
      · rw [numbersOf_singleton_ne hspec, List.append_nil]
        exact (hordered spec).nodup

theorem adds_ordered (hordered : Ordered runs)
    (hseen : ∀ spec, numbersOf seen.runs spec <+: numbersOf runs spec)
    (h : Adds seen runs after) (hdistinct : DistinctNumbers after) : Ordered after := by
  intro spec
  cases h with
  | none hnumbers =>
    rw [hnumbers]
    exact hordered spec
  | one new old hnumbers hlength hafter hnew =>
    subst hafter
    have hnodup := hdistinct spec
    rw [numbersOf_append, hnumbers] at *
    by_cases hspec : new.experimentSpecId = spec
    · subst hspec
      rw [numbersOf_singleton_self] at *
      have hle := number_le hordered hseen hnew
      have hlt : (numbersOf runs new.experimentSpecId).length < new.runNumber := by
        have hpositive : 0 < new.runNumber := by
          cases hnew with
          | counted h => exact h ▸ Nat.succ_pos _
          | largest h => exact h ▸ Nat.succ_pos _
          | remediated r run hrun h => exact h ▸ Nat.succ_pos _
        exact ((hordered _).nodup_append_iff hpositive).mp hnodup
      obtain hnumber : new.runNumber = (numbersOf runs new.experimentSpecId).length + 1 := by
        omega
      rw [hnumber]
      exact (hordered _).append
    · rw [numbersOf_singleton_ne hspec, List.append_nil]
      exact hordered spec

/-! ### Runs -/

theorem step_runs (h : Numbering.step s l = some t) :
    (∀ spec, numbersOf t.runs spec = numbersOf s.runs spec) ∧ isCurrent s l = true ∨
      ∃ k tables transaction seen, l = .commit k tables ∧
        s.writers k = some (transaction, seen) ∧ Adds seen s.runs t.runs ∧
        isCurrent s l = (t.runs.drop s.runs.length).all (upToDate seen s.runs) := by
  cases Numbering.step_cases h with
  | read | abandon => exact .inl ⟨fun _ => rfl, rfl⟩
  | commit k tables transaction seen hopen =>
    refine .inr ⟨k, tables, transaction, seen, rfl, hopen, ?_, ?_⟩
    · exact transaction_adds transaction seen { tables with runs := s.runs }
    · simp only [isCurrent, hopen]
  | rewrite r f => exact .inl ⟨fun _ => numbersOf_update (fun _ => rfl) fun _ => rfl, rfl⟩

theorem step_numbers (h : Numbering.step s l = some t) :
    numbersOf s.runs spec <+: numbersOf t.runs spec := by
  rcases step_runs h with ⟨hsame, -⟩ | ⟨k, tables, transaction, seen, -, -, hadds, -⟩
  · rewrite [hsame]
    exact List.prefix_rfl
  · exact adds_numbers hadds

theorem step_writers (h : Numbering.step s l = some t) {k : Writer} {transaction : Transaction}
    (hk : t.writers k = some (transaction, seen)) :
    s.writers k = some (transaction, seen) ∨ seen.runs = s.runs := by
  have updated {k' : Writer} {writer : Option (Transaction × Db)}
      (h : Function.update s.writers k' writer k = some (transaction, seen)) :
      s.writers k = some (transaction, seen) ∨ writer = some (transaction, seen) := by
    rw [Function.update_apply] at h
    split at h
    · exact .inr h
    · exact .inl h
  cases Numbering.step_cases h with
  | read =>
    rcases updated hk with hold | hnew
    · exact .inl hold
    · obtain ⟨-, rfl⟩ := Prod.mk.inj (Option.some.inj hnew)
      exact .inr rfl
  | commit | abandon => exact .inl ((updated hk).resolve_right nofun)
  | rewrite => exact .inl hk

theorem step_readsPrefix (hreads : ReadsPrefix s) (h : Numbering.step s l = some t) :
    ReadsPrefix t := by
  intro k transaction seen hk spec
  rcases step_writers h hk with hold | hsame
  · exact (hreads k transaction seen hold spec).trans (step_numbers h)
  · rw [hsame]
    exact step_numbers h

theorem step_distinct_iff (hordered : Ordered s.runs) (hreads : ReadsPrefix s)
    (h : Numbering.step s l = some t) : DistinctNumbers t.runs ↔ Current s l := by
  rcases step_runs h with ⟨hsame, hcurrent⟩ | ⟨k, tables, transaction, seen, -, hk, hadds, hcurrent⟩
  · refine iff_of_true (fun spec => ?_) hcurrent
    rw [hsame]
    exact (hordered spec).nodup
  · rw [Current, hcurrent]
    exact adds_distinct_iff hordered (hreads k transaction seen hk) hadds

theorem step_ordered (hordered : Ordered s.runs) (hreads : ReadsPrefix s)
    (h : Numbering.step s l = some t) (hdistinct : DistinctNumbers t.runs) : Ordered t.runs := by
  rcases step_runs h with ⟨hsame, -⟩ | ⟨k, tables, transaction, seen, -, hk, hadds, -⟩
  · intro spec
    rw [hsame]
    exact hordered spec
  · exact adds_ordered hordered (hreads k transaction seen hk) hadds hdistinct

theorem path_ordered (h : Path Unguarded Numbering.step {} ls s) :
    ReadsPrefix s ∧ (DistinctNumbers s.runs → Ordered s.runs) ∧
      (DistinctNumbers s.runs ↔ Path Current Numbering.step {} ls s) := by
  induction h with
  | nil =>
    have hempty : Ordered ({} : Numbering).runs := fun _ => .nil
    exact ⟨fun _ _ _ => nofun, fun _ => hempty, iff_of_true (ordered_distinct hempty) .nil⟩
  | snoc run _ taken ih =>
    obtain ⟨hreads, hordered, hiff⟩ := ih
    refine ⟨step_readsPrefix hreads taken, fun hdistinct => ?_, ?_⟩
    · have hbefore : DistinctNumbers _ := fun spec =>
        (hdistinct spec).sublist (step_numbers taken).sublist
      exact step_ordered (hordered hbefore) hreads taken hdistinct
    · rw [run.snoc_iff taken, ← hiff]
      constructor
      · intro hdistinct
        have hbefore : DistinctNumbers _ := fun spec =>
          (hdistinct spec).sublist (step_numbers taken).sublist
        exact ⟨hbefore, (step_distinct_iff (hordered hbefore) hreads taken).mp hdistinct⟩
      · rintro ⟨hbefore, hcurrent⟩
        exact (step_distinct_iff (hordered hbefore) hreads taken).mpr hcurrent

theorem system_distinct_iff {settings : Settings} {start sys : Runtime} (hstart : start.Initial)
    (hrun : Reaches Unguarded (Runtime.step settings) start sys) :
    ∃ ls s, Path Unguarded Numbering.step {} ls s ∧ Represents s sys ∧
      (DistinctNumbers sys.db.runs ↔ Path Current Numbering.step {} ls s) := by
  obtain ⟨ls, s, hpath, hrep⟩ := run_represented hstart hrun
  refine ⟨ls, s, hpath, hrep, ?_⟩
  rw [← hrep.runs]
  exact (path_ordered hpath).2.2

/-- In every interleaving the runs of a spec have distinct numbers exactly when every commit that
creates a run is current. -/
theorem distinctNumbers_iff_current {s : Numbering} {ls : List NumberingLabel}
    (h : Path Unguarded Numbering.step {} ls s) :
    DistinctNumbers s.runs ↔ Path Current Numbering.step {} ls s :=
  (path_ordered h).2.2

/-- A run of a spec is started, fails and is retried by its user. -/
def retriedOnce : List NumberingLabel :=
  [.read (.request 0) (.request (.startRun 0)) Runtime.compiledCycle.db,
    .commit (.request 0) Runtime.compiledCycle.db,
    .rewrite 0 fun run => { run with status := .failed },
    .read (.request 0) (.request (.controlRun 0 .retry)) Runtime.compiledCycle.db,
    .commit (.request 0) Runtime.compiledCycle.db]

theorem distinctNumbers_retriedOnce : ∃ s, Path Unguarded Numbering.step {} retriedOnce s ∧
    numbersOf s.runs 0 = [1, 2] ∧ DistinctNumbers s.runs := by
  obtain ⟨s, hperform, htest⟩ := (Option.any_eq_true _ _).mp
    (show (perform isCurrent Numbering.step {} retriedOnce).any
      (fun s => numbersOf s.runs 0 == [1, 2]) = true by decide +kernel)
  have hcurrent : Path Current Numbering.step {} retriedOnce s :=
    .of_perform (fun _ _ h => h) hperform
  have hrun : Path Unguarded Numbering.step {} retriedOnce s :=
    .of_perform (fun _ _ _ => trivial) hperform
  exact ⟨s, hrun, beq_iff_eq.mp htest, (distinctNumbers_iff_current hrun).mpr hcurrent⟩

/-- A failed run is retried by its user before `auto_remediate` retries it. -/
theorem remediation_repeats_number : ∃ sys : Runtime, Runtime.compiledCycle.Initial ∧
    Reaches Unguarded (Runtime.step {}) Runtime.compiledCycle sys ∧
      numbersOf sys.db.runs 0 = [1, 2, 2] ∧ ¬ DistinctNumbers sys.db.runs := by
  obtain ⟨sys, hrun, htest⟩ := Runtime.run_of_anyone
    (show (perform Runtime.anyone (Runtime.step {}) Runtime.compiledCycle
      ([.receive 0 (.startRun 0), .respond 0] ++ Runtime.work [{}] ++
        Runtime.work [{}, {}, {}, { observation := .ok (.exited 137) }, {}] ++
        Runtime.work [{ verdict := .failed }] ++
        [.receive 0 (.controlRun 0 .retry), .respond 0] ++ Runtime.work [{}])).any
      (fun sys => numbersOf sys.db.runs 0 == [1, 2, 2]) = true by decide +kernel)
  have hnumbers := beq_iff_eq.mp htest
  refine ⟨sys, Runtime.compiledCycle_initial, hrun, hnumbers, fun hdistinct => ?_⟩
  have hzero := hdistinct 0
  rw [hnumbers] at hzero
  exact absurd hzero (by decide)

end Synthetos.Runs
