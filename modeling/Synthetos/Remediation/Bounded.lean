import Synthetos.Remediation.Lineage

/-!
# Remediation is bounded

Executions of `auto_remediate`, one for each run, among any other changes of the database.
-/

namespace Synthetos.Remediation

open Synthetos.Core Storage Lib Worker

/-- One change of the database: `auto_remediate` completes for a run it was not executed for
before, or something else changes that files no action and creates runs without a parent. -/
inductive LineageStep : Db → Db → Prop where
  | remediate (db : Db) (input : OperatorInput) (world : External) (txn : Txn) (next : Core.Next)
      (r : RunId) (hr : input.payload.runRecordId = some r)
      (hop : autoRemediateOperator db input world = .ok (txn, next))
      (honce : ∀ action ∈ db.actions, action.runRecordId ≠ r) :
      LineageStep db (db.commit txn)
  | other (db db' : Db) (hactions : db'.actions = db.actions)
      (hlength : db.runs.length ≤ db'.runs.length)
      (hparents : ∀ r, parentOf db'.runs r = parentOf db.runs r) : LineageStep db db'

def LineageRun : Db → Db → Prop := Relation.ReflTransGen LineageStep

structure Unremediated (db : Db) : Prop where
  actions : db.actions = []
  parents : ∀ r, parentOf db.runs r = none

structure Lineages (db : Db) : Prop where
  parents : Descending (parentOf db.runs)
  filed : ∀ r p, parentOf db.runs r = some p →
    ∃ action ∈ db.actions, action.runRecordId = p ∧ action.retryRunId = some r
  once : (db.actions.map RemediationAction.runRecordId).Nodup
  runs : ∀ action ∈ db.actions, action.runRecordId < db.runs.length
  attempt : ∀ action ∈ db.actions,
    action.attemptNumber = (path (parentOf db.runs) action.runRecordId).length
  retries : ∀ r p, parentOf db.runs r = some p →
    (path (parentOf db.runs) p).length ≤ defaultMaxAttempts
  focused : ∀ a ∈ db.actions, ∀ b ∈ db.actions, b.runRecordId ∈ path (parentOf db.runs) a.runRecordId →
    b.runRecordId ≠ a.runRecordId → b.failureClass = a.failureClass → a.outcome = .retryCreated →
      b.strategy ≠ "debug_broad" → a.strategy = "debug_broad"

structure Bounded (db : Db) : Prop where
  /-- A root run has at most `defaultMaxAttempts` retries below it. -/
  retries : ∀ root, parentOf db.runs root = none →
    ((List.range db.runs.length).filter fun r =>
      r ≠ root ∧ root ∈ loadLineageRunIds db r).length ≤ defaultMaxAttempts
  attempts : ∀ a ∈ db.actions, ∀ b ∈ db.actions,
    a.runRecordId ∈ loadLineageRunIds db b.runRecordId → a.runRecordId ≠ b.runRecordId →
      a.attemptNumber < b.attemptNumber
  acyclic : Descending (parentOf db.runs)
  /-- The lineage starts at a root, follows the links and ends at the run. -/
  lineage : ∀ r, (∃ root, (loadLineageRunIds db r).head? = some root ∧
      parentOf db.runs root = none) ∧
    (loadLineageRunIds db r).IsChain (fun p c => parentOf db.runs c = some p) ∧
    (loadLineageRunIds db r).getLast? = some r
  /-- A lineage tries a focused strategy once for a failure class. -/
  focused : ∀ r, ∀ a ∈ loadLineageActions db r, ∀ b ∈ loadLineageActions db r,
    a.outcome = .retryCreated → b.outcome = .retryCreated → a.strategy ≠ "debug_broad" →
      b.strategy ≠ "debug_broad" → a.failureClass = b.failureClass → a = b
  /-- A completed execution enqueues the postmortem or the setup of a retry. -/
  enqueues : ∀ input world txn result,
    autoRemediateOperator db input world = .ok (txn, .finish result) → result.success = true →
      ∃ r run, input.payload.runRecordId = some r ∧ db.runs[r]? = some run ∧
        ((txn.newRuns = [] ∧
            txn.newJobs = [enqueueNext db run.cycleId .verificationPostmortem r]) ∨
          (txn.newRuns = [retryRun run r] ∧
            txn.newJobs = [enqueueNext db run.cycleId .executionSetup db.runs.length]))

variable {start db db' : Db} {input : OperatorInput} {world : External} {txn : Txn}
  {next : Core.Next} {r p : RunId} {run : RunRecord} {action a b : RemediationAction}

theorem Lineages.action_unique (hinv : Lineages db) (ha : a ∈ db.actions) (hb : b ∈ db.actions)
    (hab : a.runRecordId = b.runRecordId) : a = b :=
  List.inj_on_of_nodup_map hinv.once ha hb hab

theorem Lineages.filed_above (hinv : Lineages db) (hp : p ∈ path (parentOf db.runs) r)
    (hne : p ≠ r) : ∃ action ∈ db.actions, action.runRecordId = p := by
  obtain ⟨d, -, hd⟩ := exists_child_of_mem_path hinv.parents hp hne
  obtain ⟨action, hmem, hrun, -⟩ := hinv.filed d p hd
  exact ⟨action, hmem, hrun⟩

theorem Lineages.attempts (hinv : Lineages db) (honce : ∀ action ∈ db.actions, action.runRecordId ≠ r) :
    countLineageAttempts db r + 1 = (path (parentOf db.runs) r).length := by
  have hactions : ((loadLineageActions db r).map RemediationAction.runRecordId).Perm
      ((path (parentOf db.runs) r).erase r) := by
    have hsublist : ((loadLineageActions db r).map RemediationAction.runRecordId).Sublist
        (db.actions.map RemediationAction.runRecordId) := List.filter_sublist.map _
    refine (List.perm_ext_iff_of_nodup (hinv.once.sublist hsublist)
      ((path_nodup hinv.parents).erase r)).mpr fun p => ?_
    rw [(path_nodup hinv.parents).mem_erase_iff, List.mem_map]
    constructor
    · rintro ⟨action, hmem, rfl⟩
      obtain ⟨hmem, hlineage⟩ := List.mem_filter.mp hmem
      rw [List.contains_iff_mem, loadLineageRunIds_eq hinv.parents] at hlineage
      exact ⟨honce action hmem, hlineage⟩
    · rintro ⟨hne, hmem⟩
      obtain ⟨action, hfiled, rfl⟩ := hinv.filed_above hmem hne
      refine ⟨action, List.mem_filter.mpr ⟨hfiled, ?_⟩, rfl⟩
      rwa [List.contains_iff_mem, loadLineageRunIds_eq hinv.parents]
  have hlength := hactions.length_eq
  have hmem := mem_path_self hinv.parents (c := r)
  rw [List.length_map, List.length_erase_of_mem hmem] at hlength
  rw [countLineageAttempts, hlength]
  exact Nat.sub_add_cancel (List.length_pos_of_mem hmem)

/-! ### One step -/

theorem parentOf_append_old {runs extra : List RunRecord} (h : r < runs.length) :
    parentOf (runs ++ extra) r = parentOf runs r := by
  rw [parentOf, List.getElem?_append_left h]
  rfl

theorem parentOf_none_of_length_le {runs : List RunRecord} (h : runs.length ≤ r) :
    parentOf runs r = none := by
  rw [parentOf, List.getElem?_eq_none h]
  rfl

theorem lineages_initial (h : Unremediated db) : Lineages db where
  parents c p hc := absurd ((h.parents c).symm.trans hc) nofun
  filed c p hc := absurd ((h.parents c).symm.trans hc) nofun
  once := by rw [h.actions]; exact .nil
  runs action hmem := by rw [h.actions] at hmem; exact absurd hmem List.not_mem_nil
  attempt action hmem := by rw [h.actions] at hmem; exact absurd hmem List.not_mem_nil
  retries c p hc := absurd ((h.parents c).symm.trans hc) nofun
  focused a ha := by rw [h.actions] at ha; exact absurd ha List.not_mem_nil

theorem lineages_other (hinv : Lineages db) (hactions : db'.actions = db.actions)
    (hlength : db.runs.length ≤ db'.runs.length)
    (hparents : ∀ r, parentOf db'.runs r = parentOf db.runs r) : Lineages db' := by
  have hsame : parentOf db'.runs = parentOf db.runs := funext hparents
  constructor
  · rw [hsame]; exact hinv.parents
  · rw [hsame, hactions]; exact hinv.filed
  · rw [hactions]; exact hinv.once
  · rw [hactions]; exact fun action hmem => Nat.lt_of_lt_of_le (hinv.runs action hmem) hlength
  · rw [hsame, hactions]; exact hinv.attempt
  · rw [hsame]; exact hinv.retries
  · rw [hsame, hactions]; exact hinv.focused

theorem needsEscalation_of_mem {spec : ExperimentSpec} (hmem : b ∈ loadLineageActions db r)
    (hclass : b.failureClass = run.failureClass.getD "unknown") (hb : b.strategy ≠ "debug_broad") :
    needsEscalation (strategyInputs db run r spec world) = true := by
  unfold needsEscalation strategyInputs
  dsimp only
  rw [List.zip_map', List.any_map, List.any_eq_true]
  exact ⟨b, hmem, by simp [hclass, hb]⟩

theorem parentOf_remediated (hupdate : txn.runUpdate = none)
    (hdone : Remediated db r run action txn next) {c : RunId}
    (hc : parentOf (db.commit txn).runs c = some p) :
    parentOf db.runs c = some p ∨ (c = db.runs.length ∧ p = r ∧ action.retryRunId = some c ∧
      countLineageAttempts db r < defaultMaxAttempts) := by
  rw [Db.commit_runs, hupdate] at hc
  change parentOf (db.runs ++ txn.newRuns) c = some p at hc
  cases hdone with
  | declined hjobs hruns =>
    rw [hruns, List.append_nil] at hc
    exact .inl hc
  | retried spec world strat hjobs hruns hout hretry hcount =>
    rcases Nat.lt_or_ge c db.runs.length with hin | hout'
    · rw [parentOf_append_old hin] at hc
      exact .inl hc
    · rw [hruns, parentOf] at hc
      obtain ⟨row, hrow, hp⟩ := Option.bind_eq_some_iff.mp hc
      rcases Table.getElem?_append_singleton hrow with hold | ⟨rfl, rfl⟩
      · exact absurd (Table.lt_length_of_getElem? hold) (Nat.not_lt.mpr hout')
      · exact .inr ⟨rfl, (Option.some.inj hp).symm, hretry, hcount⟩

theorem lineages_remediate (hinv : Lineages db) (hr : input.payload.runRecordId = some r)
    (hop : autoRemediateOperator db input world = .ok (txn, next))
    (honce : ∀ action ∈ db.actions, action.runRecordId ≠ r) : Lineages (db.commit txn) := by
  obtain ⟨run, action, hrun, hnew, hupdate, hfiles, hdone⟩ := autoRemediate_cases hop hr
  have hactions : (db.commit txn).actions = db.actions ++ [action] := by
    rw [← hnew]
    rfl
  have hlinks {c p : RunId} (hc : parentOf (db.commit txn).runs c = some p) :=
    parentOf_remediated hupdate hdone hc
  have hrlt := Table.lt_length_of_getElem? hrun
  have hlength : db.runs.length ≤ (db.commit txn).runs.length := by
    rw [Db.commit_runs, hupdate, List.length_append]
    exact Nat.le_add_right _ _
  have hold : ∀ c < db.runs.length, parentOf (db.commit txn).runs c = parentOf db.runs c := by
    intro c hc
    rw [Db.commit_runs, hupdate]
    exact parentOf_append_old hc
  have hdesc : Descending (parentOf (db.commit txn).runs) := by
    intro c p hc
    rcases hlinks hc with hc | ⟨rfl, rfl, -⟩
    · exact hinv.parents c p hc
    · exact hrlt
  have hpath {c : RunId} (hc : c < db.runs.length) :
      path (parentOf (db.commit txn).runs) c = path (parentOf db.runs) c :=
    path_congr hinv.parents hdesc fun d hd => hold d (Nat.lt_of_le_of_lt hd hc)
  have hattempts := hinv.attempts honce
  constructor
  case parents => exact hdesc
  case filed =>
    intro c p hc
    rw [hactions]
    rcases hlinks hc with hc | ⟨rfl, rfl, hretry, -⟩
    · obtain ⟨filed, hmem, htarget⟩ := hinv.filed c p hc
      exact ⟨filed, List.mem_append_left _ hmem, htarget⟩
    · exact ⟨action, List.mem_append_right _ (List.mem_singleton_self _), hfiles.target, hretry⟩
  case once =>
    rw [hactions, List.map_append]
    refine List.nodup_append.mpr ⟨hinv.once, by simp, ?_⟩
    rintro k hk l hl rfl
    obtain ⟨filed, hmem, rfl⟩ := List.mem_map.mp hk
    rw [List.map_singleton, List.mem_singleton, hfiles.target] at hl
    exact honce filed hmem hl
  case runs =>
    intro filed hmem
    rw [hactions] at hmem
    rcases List.mem_append.mp hmem with hmem | hmem
    · exact Nat.lt_of_lt_of_le (hinv.runs filed hmem) hlength
    · obtain rfl := List.mem_singleton.mp hmem
      rw [hfiles.target]
      exact Nat.lt_of_lt_of_le hrlt hlength
  case attempt =>
    intro filed hmem
    rw [hactions] at hmem
    rcases List.mem_append.mp hmem with hmem | hmem
    · rw [hpath (hinv.runs filed hmem)]
      exact hinv.attempt filed hmem
    · obtain rfl := List.mem_singleton.mp hmem
      rw [hfiles.target, hpath hrlt, hfiles.attempt, hattempts]
  case retries =>
    intro c p hc
    rcases hlinks hc with hc | ⟨rfl, rfl, -, hcount⟩
    · obtain ⟨filed, hmem, rfl, -⟩ := hinv.filed c p hc
      rw [hpath (hinv.runs filed hmem)]
      exact hinv.retries c _ hc
    · rw [hpath hrlt, ← hattempts]
      exact hcount
  case focused =>
    intro a ha b hb habove hne hclass hout hb'
    rw [hactions] at ha hb
    rcases List.mem_append.mp ha with ha | ha
    · rw [hpath (hinv.runs a ha)] at habove
      rcases List.mem_append.mp hb with hb | hb
      · exact hinv.focused a ha b hb habove hne hclass hout hb'
      · obtain rfl := List.mem_singleton.mp hb
        obtain ⟨filed, hmem, htarget⟩ := hinv.filed_above habove hne
        exact absurd (htarget.trans hfiles.target) (honce filed hmem)
    · obtain rfl := List.mem_singleton.mp ha
      rcases List.mem_append.mp hb with hb | hb
      · rw [hfiles.target, hpath hrlt] at habove
        have hmem : b ∈ loadLineageActions db r := by
          refine List.mem_filter.mpr ⟨hb, ?_⟩
          rwa [List.contains_iff_mem, loadLineageRunIds_eq hinv.parents]
        cases hdone with
        | declined hjobs hruns hretry hdeclined =>
          rw [hdeclined] at hout
          split at hout <;> exact absurd hout nofun
        | retried spec world' strat hjobs hruns _ _ _ hstrat hremediable hstrategy =>
          rw [hstrategy]
          exact selectStrategy_escalates hstrat hremediable
            (needsEscalation_of_mem hmem (hclass.trans hfiles.failureClass) hb')
      · obtain rfl := List.mem_singleton.mp hb
        exact absurd rfl hne

theorem lineages_step (hinv : Lineages db) (h : LineageStep db db') : Lineages db' := by
  cases h with
  | remediate input world txn next r hr hop honce => exact lineages_remediate hinv hr hop honce
  | other _ hactions hlength hparents => exact lineages_other hinv hactions hlength hparents

theorem lineages_run (hstart : Unremediated start) (h : LineageRun start db) : Lineages db := by
  induction h with
  | refl => exact lineages_initial hstart
  | tail _ hstep ih => exact lineages_step ih hstep

/-! ### The bounds -/

theorem Lineages.one_child (hinv : Lineages db) (c d p : Nat) (hc : parentOf db.runs c = some p)
    (hd : parentOf db.runs d = some p) : c = d := by
  obtain ⟨a, ha, hap, hac⟩ := hinv.filed c p hc
  obtain ⟨b, hb, hbp, hbd⟩ := hinv.filed d p hd
  obtain rfl := hinv.action_unique ha hb (hap.trans hbp.symm)
  exact Option.some.inj (hac.symm.trans hbd)

theorem Lineages.depth (hinv : Lineages db) {root : RunId} (hne : r ≠ root)
    (hroot : root ∈ path (parentOf db.runs) r) :
    (path (parentOf db.runs) r).length ∈ List.range' 2 defaultMaxAttempts := by
  cases hr : parentOf db.runs r with
  | none =>
    rw [path_root hr] at hroot
    exact absurd (List.mem_singleton.mp hroot).symm hne
  | some p =>
    have hbound := hinv.retries r p hr
    have hpositive := List.length_pos_of_mem (mem_path_self hinv.parents (c := p))
    rw [path_child hinv.parents hr, List.length_append, List.length_singleton, List.mem_range'_1]
    unfold defaultMaxAttempts at hbound ⊢
    omega

theorem Lineages.retries_le (hinv : Lineages db) {root : RunId} (hroot : parentOf db.runs root = none) :
    ((List.range db.runs.length).filter fun r =>
      r ≠ root ∧ root ∈ loadLineageRunIds db r).length ≤ defaultMaxAttempts := by
  set below := (List.range db.runs.length).filter fun r => r ≠ root ∧ root ∈ loadLineageRunIds db r
  have hbelow : ∀ r ∈ below, r ≠ root ∧ root ∈ path (parentOf db.runs) r := by
    intro r hr
    have hfilter := (List.mem_filter.mp hr).2
    rwa [decide_eq_true_iff, loadLineageRunIds_eq hinv.parents] at hfilter
  have hnodup : (below.map fun r => (path (parentOf db.runs) r).length).Nodup := by
    refine List.Nodup.map_on (fun c hc d hd hlength => ?_) (List.nodup_range.filter _)
    exact path_unique hinv.parents hinv.one_child hroot (hbelow c hc).2 (hbelow d hd).2 hlength
  have hsubset : (below.map fun r => (path (parentOf db.runs) r).length) ⊆
      List.range' 2 defaultMaxAttempts := by
    intro n hn
    obtain ⟨r, hr, rfl⟩ := List.mem_map.mp hn
    exact hinv.depth (hbelow r hr).1 (hbelow r hr).2
  have hlength := (List.subperm_of_subset hnodup hsubset).length_le
  rwa [List.length_map, List.length_range'] at hlength

theorem Lineages.focused_once (hinv : Lineages db) (ha : a ∈ loadLineageActions db r)
    (hb : b ∈ loadLineageActions db r) (hretryA : a.outcome = .retryCreated)
    (hretryB : b.outcome = .retryCreated) (hfocusedA : a.strategy ≠ "debug_broad")
    (hfocusedB : b.strategy ≠ "debug_broad") (hclass : a.failureClass = b.failureClass) : a = b := by
  obtain ⟨ha, hrA⟩ := List.mem_filter.mp ha
  obtain ⟨hb, hrB⟩ := List.mem_filter.mp hb
  rw [List.contains_iff_mem, loadLineageRunIds_eq hinv.parents] at hrA hrB
  by_cases hne : a.runRecordId = b.runRecordId
  · exact hinv.action_unique ha hb hne
  · rcases path_total hinv.parents hrA hrB with habove | habove
    · exact absurd (hinv.focused b hb a ha habove hne hclass hretryB hfocusedA) hfocusedB
    · exact absurd (hinv.focused a ha b hb habove (Ne.symm hne) hclass.symm hretryA hfocusedB)
        hfocusedA

theorem completed_enqueues {result : OperatorResult}
    (h : autoRemediateOperator db input world = .ok (txn, .finish result))
    (hsuccess : result.success = true) :
    ∃ r run, input.payload.runRecordId = some r ∧ db.runs[r]? = some run ∧
      ((txn.newRuns = [] ∧ txn.newJobs = [enqueueNext db run.cycleId .verificationPostmortem r]) ∨
        (txn.newRuns = [retryRun run r] ∧
          txn.newJobs = [enqueueNext db run.cycleId .executionSetup db.runs.length])) := by
  cases hr : input.payload.runRecordId with
  | none =>
    unfold autoRemediateOperator at h
    rw [hr] at h
    obtain ⟨-, hresult⟩ := Prod.mk.inj (pure_eq_ok.mp h)
    obtain rfl := Core.Next.finish.inj hresult
    exact absurd hsuccess nofun
  | some r =>
    obtain ⟨run, action, hrun, -, -, -, hdone⟩ := autoRemediate_cases h hr
    refine ⟨r, run, rfl, hrun, ?_⟩
    cases hdone with
    | declined hjobs hruns => exact .inl ⟨hruns, hjobs⟩
    | retried spec world' strat hjobs hruns => exact .inr ⟨hruns, hjobs⟩

theorem remediation_bounded {start db : Db} (hstart : Unremediated start)
    (hrun : LineageRun start db) : Bounded db := by
  have hinv := lineages_run hstart hrun
  constructor
  case retries => exact fun root hroot => hinv.retries_le hroot
  case attempts =>
    intro a ha b hb habove hne
    rw [loadLineageRunIds_eq hinv.parents] at habove
    rw [hinv.attempt a ha, hinv.attempt b hb]
    exact length_path_lt hinv.parents habove hne
  case acyclic => exact hinv.parents
  case lineage =>
    intro r
    rw [loadLineageRunIds_eq hinv.parents]
    exact path_follows hinv.parents
  case focused =>
    intro r a ha b hb hretryA hretryB hfocusedA hfocusedB hclass
    exact hinv.focused_once ha hb hretryA hretryB hfocusedA hfocusedB hclass
  case enqueues => exact fun _ _ _ _ h hsuccess => completed_enqueues h hsuccess

def outOfMemory : Db :=
  { specs := [{ hypothesisCardId := 0, charterId := 0, cycleId := 0 }]
    runs := [{ experimentSpecId := 0, charterId := 0, cycleId := 0, runNumber := 1
               failureClass := some "oom" }] }

/-- A run that ran out of memory is retried once with more of it. -/
theorem remediation_bounded_retry : ∃ db, LineageRun outOfMemory db ∧ db.runs.length = 2 ∧
    Bounded db := by
  obtain ⟨out, hout, hcount⟩ := (Option.any_eq_true _ _).mp
    (show (autoRemediateOperator outOfMemory
      ⟨some 0, 0, .autoRemediate, { runRecordId := some 0 }⟩ {}).toOption.any
        (fun out => (outOfMemory.commit out.1).runs.length == 2) = true by decide +kernel)
  have hop := toOption_eq_some.mp hout
  have hstep := LineageStep.remediate outOfMemory _ {} out.1 out.2 0 rfl hop
    fun _ h => absurd h List.not_mem_nil
  refine ⟨_, Relation.ReflTransGen.single hstep, beq_iff_eq.mp hcount, ?_⟩
  refine remediation_bounded ⟨rfl, fun r => ?_⟩ (Relation.ReflTransGen.single hstep)
  rcases r with _ | r
  · rfl
  · exact parentOf_none_of_length_le (Nat.succ_le_succ (Nat.zero_le r))

end Synthetos.Remediation
