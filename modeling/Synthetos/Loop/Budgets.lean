import Synthetos.Loop.Approvals
import Synthetos.Loop.Counters

/-!
# Budget accounting

The counters of a cycle are the runs its loop has decided about, and each decision shows them as
they were when it was filed.
-/

namespace Synthetos.Loop

open Synthetos.Core Storage Lib Worker Api Autonomy Protocols Jobs

/-- A run that was decided about is decided about again only after a gate paused it. -/
def DecidesOnce (sys : Runtime) (l : Label) : Prop :=
  ∀ w world j phase (job : Job) r, l = .exec w world → sys.workers w = .executing j phase →
    sys.db.jobs[j]? = some job → job.jobType = .loopDecide →
      job.payload.preparedRunRecordId = none → job.payload.runRecordId = some r →
        (∃ row ∈ sys.db.decisions, row.runRecordId = r ∧ row.decision ≠ .stopManual) →
          gateDecisionsOf sys.db r ≠ []

/-- The counters are those of the runs counted. -/
structure Counted (db : Db) : Prop where
  balanced : ∀ c budget, budgetOf db c = some budget →
    (budget.runsPerHypothesis.map Prod.snd).sum = budget.totalRuns
  total : ∀ c, totalOf db c =
    (charges db.events).countP fun r => (chargedTo db r).any fun p => p.1 == c
  perCard : ∀ c card, countOf db c card =
    (charges db.events).countP fun r => chargedTo db r == some (c, card)
  founded : ∀ r ∈ charges db.events, ∃ p, chargedTo db r = some p
  filed : ∀ r ∈ charges db.events,
    ∃ row ∈ db.decisions, row.runRecordId = r ∧ row.decision ≠ .stopManual
  decided : ∀ row ∈ db.decisions, row.decision ≠ .stopManual →
    row.runRecordId ∈ charges db.events

structure Booked (db : Db) : Prop extends Counted db where
  contexts : ∀ (j : JobId) (job : Job) context, db.jobs[j]? = some job →
    job.payload.loopContext = some context → context.runRecordId ∈ charges db.events
  loopJobs : ∀ (j : JobId) (job : Job) r, db.jobs[j]? = some job → job.jobType = .loopDecide →
    job.payload.preparedRunRecordId = none → job.payload.runRecordId = some r →
      ∃ p, chargedTo db r = some p

variable {settings : Settings} {start sys sys' : Runtime} {l : Label} {r : RunId} {db new : Db}
  {input : OperatorInput} {phase : Phase} {txn : Txn} {next : Core.Next} {job : Job} {it : Iteration}
  {c : CycleId} {card : CardId} {rows : List LoopDecision}

/-! ### Counting -/

theorem Counted.chargedTo_eq (hinv : Counted db) (hgrows : Grows db new)
    (hr : r ∈ charges db.events) : chargedTo new r = chargedTo db r := by
  obtain ⟨p, hp⟩ := hinv.founded r hr
  rw [hp, chargedTo_grows hgrows hp]

theorem Counted.countP_eq (hinv : Counted db) (hgrows : Grows db new)
    (test : Option (CycleId × CardId) → Bool) :
    (charges db.events).countP (fun r => test (chargedTo new r)) =
      (charges db.events).countP fun r => test (chargedTo db r) := by
  refine List.countP_congr fun r hr => ?_
  rw [hinv.chargedTo_eq hgrows hr]

theorem counted_keep (hinv : Counted db) (hgrows : Grows db new)
    (hcharges : charges new.events = charges db.events)
    (hbalanced : ∀ c budget, budgetOf new c = some budget →
      (budget.runsPerHypothesis.map Prod.snd).sum = budget.totalRuns)
    (htotal : ∀ c, totalOf new c = totalOf db c)
    (hcount : ∀ c card, countOf new c card = countOf db c card)
    (hdecisions : new.decisions = db.decisions ++ rows)
    (hrows : ∀ row ∈ rows, row.decision ≠ .stopManual → row.runRecordId ∈ charges db.events) :
    Counted new where
  balanced := hbalanced
  total c := by
    rw [htotal, hcharges, hinv.total, hinv.countP_eq hgrows fun p => p.any fun p => p.1 == c]
  perCard c card := by
    rw [hcount, hcharges, hinv.perCard, hinv.countP_eq hgrows fun p => p == some (c, card)]
  founded r hr := by
    rw [hcharges] at hr
    obtain ⟨p, hp⟩ := hinv.founded r hr
    exact ⟨p, chargedTo_grows hgrows hp⟩
  filed r hr := by
    rw [hcharges] at hr
    obtain ⟨row, hrow, hfacts⟩ := hinv.filed r hr
    refine ⟨row, ?_, hfacts⟩
    rw [hdecisions]
    exact List.mem_append_left _ hrow
  decided row hrow hauto := by
    rw [hdecisions] at hrow
    rw [hcharges]
    rcases List.mem_append.mp hrow with hold | hnew
    · exact hinv.decided row hold hauto
    · exact hrows row hnew hauto

theorem counted_charge (hinv : Counted db) (hgrows : Grows db new) (now : Timestamp)
    {row : LoopDecision} (hcharges : charges new.events = charges db.events ++ [r])
    (hp : chargedTo db r = some (c, card))
    (hbudget : budgetOf new c = some (incrementBudget now (loadOrCreateBudget db c) card))
    (hother : ∀ other, other ≠ c → budgetOf new other = budgetOf db other)
    (hdecisions : new.decisions = db.decisions ++ [row]) (hrun : row.runRecordId = r)
    (hauto : row.decision ≠ .stopManual) : Counted new where
  balanced other budget hother' := by
    by_cases hc : other = c
    · subst hc
      obtain rfl := Option.some.inj (hbudget.symm.trans hother')
      rw [incrementBudget_totalRuns, ← totalOf_eq]
      change ((bump card (loadOrCreateBudget db other).runsPerHypothesis).map Prod.snd).sum = _
      rw [sum_bump, totalOf_eq]
      unfold loadOrCreateBudget
      cases hold : budgetOf db other with
      | none => rfl
      | some budget => exact congrArg (· + 1) (hinv.balanced other budget hold)
    · rw [hother other hc] at hother'
      exact hinv.balanced other budget hother'
  total other := by
    rw [hcharges, List.countP_append, hinv.countP_eq hgrows fun p => p.any fun p => p.1 == other,
      ← hinv.total, List.countP_singleton, chargedTo_grows hgrows hp]
    by_cases hc : other = c
    · subst hc
      rw [totalOf_stored hbudget, totalOf_eq]
      simp
    · have hne : ¬ c = other := fun h => hc h.symm
      rw [totalOf, hother other hc]
      simp [totalOf, hne]
  perCard other card' := by
    rw [hcharges, List.countP_append, hinv.countP_eq hgrows fun p => p == some (other, card'),
      ← hinv.perCard, List.countP_singleton, chargedTo_grows hgrows hp]
    by_cases hc : other = c
    · subst hc
      rw [countOf_stored hbudget, countOf_eq]
      change countFor (bump card (loadOrCreateBudget db other).runsPerHypothesis) card' = _
      rw [countFor_bump]
      by_cases hcard : card' = card
      · subst hcard
        simp
      · have hne : ¬ card = card' := fun h => hcard h.symm
        simp [hcard, hne]
    · have hne : ¬ c = other := fun h => hc h.symm
      rw [countOf, hother other hc]
      simp [countOf, hne]
  founded r' hr' := by
    rw [hcharges] at hr'
    rcases List.mem_append.mp hr' with hold | hnew
    · obtain ⟨p, hp⟩ := hinv.founded r' hold
      exact ⟨p, chargedTo_grows hgrows hp⟩
    · obtain rfl := List.mem_singleton.mp hnew
      exact ⟨_, chargedTo_grows hgrows hp⟩
  filed r' hr' := by
    rw [hcharges] at hr'
    rw [hdecisions]
    rcases List.mem_append.mp hr' with hold | hnew
    · obtain ⟨row', hrow, hfacts⟩ := hinv.filed r' hold
      exact ⟨row', List.mem_append_left _ hrow, hfacts⟩
    · obtain rfl := List.mem_singleton.mp hnew
      exact ⟨row, List.mem_append_right _ (List.mem_singleton_self _), hrun, hauto⟩
  decided row' hrow hauto' := by
    rw [hdecisions] at hrow
    rw [hcharges]
    rcases List.mem_append.mp hrow with hold | hnew
    · exact List.mem_append_left _ (hinv.decided row' hold hauto')
    · obtain rfl := List.mem_singleton.mp hnew
      rw [hrun]
      exact List.mem_append_right _ (List.mem_singleton_self _)

/-! ### Steps -/

theorem counted_stored (hinv : Counted db) (hgrows : Grows db (db.commit txn))
    (hbudget : txn.budget = some (loadOrCreateBudget db c))
    (hcharges : charges txn.events = [])
    (hrows : ∀ row ∈ txn.newDecisions, row.decision ≠ .stopManual →
      row.runRecordId ∈ charges db.events) : Counted (db.commit txn) := by
  have hstored (other : CycleId) := budgetOf_commit db hbudget other
  rw [loadOrCreateBudget_cycle] at hstored
  refine counted_keep hinv hgrows ?_ ?_ ?_ ?_ (Db.commit_decisions _ _) hrows
  · rw [Db.commit_events, charges_append, hcharges, List.append_nil]
  · intro other budget hother
    rw [hstored other] at hother
    split at hother
    · obtain rfl := Option.some.inj hother
      unfold loadOrCreateBudget
      cases hold : budgetOf db c with
      | none => rfl
      | some old => exact hinv.balanced c old hold
    · exact hinv.balanced other budget hother
  · intro other
    by_cases hc : c = other
    · subst hc
      rw [totalOf_stored (by rw [hstored, if_pos rfl]), ← totalOf_eq]
    · rw [totalOf, hstored, if_neg hc, totalOf]
  · intro other card
    by_cases hc : c = other
    · subst hc
      rw [countOf_stored (by rw [hstored, if_pos rfl]), ← countOf_eq]
    · rw [countOf, hstored, if_neg hc, countOf]

theorem charged_iteration (hit : iterationOf db input = some it)
    (hp : chargedTo db it.runId = some (c, card)) : it.cycleId = c ∧ it.cardId = some card := by
  obtain ⟨recId, runId, recommendation, run, cycle, -, -, -, hrun, -, rfl⟩ := iterationOf_cases hit
  simp only [chargedTo, hrun, Option.bind_eq_bind, Option.bind_some, Option.bind_eq_some_iff] at hp
  obtain ⟨spec, hspec, hp⟩ := hp
  obtain ⟨rfl, rfl⟩ := Prod.mk.inj (Option.some.inj hp)
  exact ⟨rfl, by rw [Iteration.cardId, hspec]; rfl⟩

theorem iterationOf_run (hit : iterationOf db input = some it) :
    input.payload.runRecordId = some it.runId := by
  obtain ⟨recId, runId, recommendation, run, cycle, -, hr, -, -, -, rfl⟩ := iterationOf_cases hit
  exact hr

theorem iterationOf_budget (hit : iterationOf db input = some it) :
    it.budget = loadOrCreateBudget db it.cycleId ∧
      it.txn.budget = some (loadOrCreateBudget db it.cycleId) ∧ it.txn.events = [] := by
  obtain ⟨recId, runId, recommendation, run, cycle, -, -, -, -, -, rfl⟩ := iterationOf_cases hit
  exact ⟨rfl, rfl, rfl⟩

theorem gateDecisions_decided (h : gateDecisionsOf db r ≠ []) :
    ∃ row ∈ db.decisions, row.runRecordId = r ∧ row.decision ≠ .stopManual := by
  obtain ⟨row, hrow⟩ := List.exists_mem_of_ne_nil _ h
  obtain ⟨hmem, htest⟩ := List.mem_filter.mp hrow
  rw [Bool.and_eq_true, beq_iff_eq, beq_iff_eq] at htest
  refine ⟨row, hmem, htest.1, ?_⟩
  rw [htest.2]
  decide

theorem counted_decided (hinv : Counted db) (hgrows : Grows db (db.commit txn))
    (hit : iterationOf db input = some it) (hp : ∃ p, chargedTo db it.runId = some p)
    (hsettles : Settles (counted db it) txn) : Counted (db.commit txn) := by
  obtain ⟨⟨c, card⟩, hp⟩ := hp
  obtain ⟨hcycle, hcard⟩ := charged_iteration hit hp
  obtain ⟨hloaded, hstored, hevents⟩ := iterationOf_budget hit
  rw [hcycle] at hloaded hstored
  obtain ⟨row, hrow, hrecords⟩ := hsettles.files
  have hbudget := hsettles.budget
  have hcharges := hsettles.charges
  have hautomatic := hrecords.automatic
  have hrun := hrecords.run
  by_cases hgates : gateDecisionsOf db it.runId = []
  · rw [counted, if_pos hgates] at hbudget hcharges hrun
    obtain ⟨-, hincremented, hcounted⟩ := counted_budget db hcard
    rw [hincremented, hloaded] at hbudget
    rw [hcounted, hevents] at hcharges
    rw [countRun, hcard] at hrun
    have hnew (other : CycleId) := budgetOf_commit db hbudget other
    rw [incrementBudget_cycleId, loadOrCreateBudget_cycle] at hnew
    refine counted_charge hinv hgrows db.now ?_ hp ?_ ?_ ?_ hrun hautomatic
    · rw [Db.commit_events, charges_append, hcharges]
      rfl
    · rw [hnew, if_pos rfl]
    · exact fun other hother => by rw [hnew, if_neg fun h => hother h.symm]
    · rw [Db.commit_decisions, hrow]
  · rw [counted, if_neg hgates] at hbudget hcharges hrun
    refine counted_stored hinv hgrows (hbudget.trans hstored) ?_ ?_
    · rw [hcharges, hevents]
      rfl
    · intro row' hrow' hauto
      obtain ⟨old, hold, hsame, hauto'⟩ := gateDecisions_decided hgates
      rw [hrow] at hrow'
      obtain rfl := List.mem_singleton.mp hrow'
      rw [hrun, ← hsame]
      exact hinv.decided old hold hauto'

theorem counted_step (hinv : Booked sys.db) (h : Step settings sys l sys') : Counted sys'.db := by
  have hgrows := step_grows h
  have hwrites := step_writes h
  generalize sys'.db = db at hwrites hgrows
  have ledger {db : Db} (hgrows : Grows sys.db db) (hsame : SameLedger sys.db db)
      (rows : List LoopDecision) (hdecisions : db.decisions = sys.db.decisions ++ rows)
      (hrows : ∀ row ∈ rows, row.decision = .stopManual) : Counted db := by
    have hbudget := budgetOf_congr hsame.budgets
    refine counted_keep hinv.toCounted hgrows hsame.charges ?_ ?_ ?_ hdecisions ?_
    · exact fun c budget hc => hinv.balanced c budget ((hbudget c).symm.trans hc)
    · exact fun c => by rw [totalOf, hbudget, totalOf]
    · exact fun c card => by rw [countOf, hbudget, countOf]
    · exact fun row hrow hauto => absurd (hrows row hrow) hauto
  cases hwrites with
  | unfiled _ db hsame =>
    refine ledger hgrows hsame.toSameLedger [] ?_ ?_
    · rw [hsame.decisions, List.append_nil]
    · exact fun row hrow => absurd hrow List.not_mem_nil
  | manual q c charter seen db hpc hsame hdecisions =>
    exact ledger hgrows hsame _ hdecisions (manualDecision_stops _ _ _)
  | operator w world j phase job txn next hpc hj hout =>
    cases execute_books hout with
    | closed hbudget hdecisions hcharges =>
      have hsame (c : CycleId) := budgetOf_commit_none sys.db hbudget c
      refine counted_keep hinv.toCounted hgrows ?_ ?_ ?_ ?_ (Db.commit_decisions _ _) ?_
      · rw [Db.commit_events, charges_append, hcharges, List.append_nil]
      · exact fun c budget hc => hinv.balanced c budget ((hsame c).symm.trans hc)
      · exact fun c => by rw [totalOf, hsame, totalOf]
      · exact fun c card => by rw [countOf, hsame, countOf]
      · rw [hdecisions]
        exact fun row hrow => absurd hrow List.not_mem_nil
    | decided it htype hfresh hit hsettles =>
      have hr := iterationOf_run hit
      exact counted_decided hinv.toCounted hgrows hit (hinv.loopJobs j job _ hj htype hfresh hr)
        hsettles
    | prepared specId spec htype hphase hspec hbudget hdecisions hcharges =>
      refine counted_stored hinv.toCounted hgrows hbudget hcharges fun row hrow hauto => ?_
      rcases hdecisions with hnone | ⟨context, one, hcontext, hone, hrun, -⟩
      · rw [hnone] at hrow
        exact absurd hrow List.not_mem_nil
      · rw [hone] at hrow
        obtain rfl := List.mem_singleton.mp hrow
        rw [hrun]
        exact hinv.contexts j job context hj hcontext

/-! ### Jobs of the loop -/

theorem exit_context {new : Job} {context : LoopContext} (h : Exit db input phase txn next)
    (hnew : txn.newJobs = [new]) (hcontext : new.payload.loopContext = some context) :
    input.payload.loopContext = some context ∨
      input.jobType = .loopDecide ∧ input.payload.preparedRunRecordId = none := by
  have other {job : Job} (hjobs : txn.newJobs = [job]) (hno : job.payload.loopContext = none) :
      False := by
    obtain rfl := List.singleton_inj.mp (hjobs.symm.trans hnew)
    exact absurd (hno.symm.trans hcontext) nofun
  have quiet (hquiet : txn.newJobs = []) : False := by
    rw [hquiet] at hnew
    exact absurd hnew.symm (List.cons_ne_nil _ _)
  cases h with
  | loopRecompiles _ _ _ _ _ _ htype hfresh => exact .inr ⟨htype, hfresh⟩
  | postmortem _ _ _ _ _ _ _ _ _ hpayload hjob =>
    exact (other hjob.jobs (by rw [hpayload])).elim
  | recommendedLoop _ _ _ _ _ _ _ _ _ _ _ hpayload hjob =>
    exact (other hjob.jobs (by rw [hpayload])).elim
  | loopStopped _ _ _ _ _ _ _ _ _ _ hpayload hjob =>
    exact (other hjob.jobs (by rw [hpayload])).elim
  | setupReady | recordedFailure | recordedSuccess | captured | checked | declined | classified
  | preparedLaunch => exact (other ‹Enqueues _ _›.jobs rfl).elim
  | retried | loopLaunched | runPrepared | runGated =>
    exact (other ‹Prepares _ _ _›.jobs rfl).elim
  | loopPaused => exact (quiet ‹_›).elim
  | loopClosed _ _ _ hjobs =>
    rcases hjobs with hnone | hone
    · exact (quiet hnone).elim
    · exact (other hone rfl).elim
  | relayed _ _ _ hjobs =>
    left
    cases hrelay : (relayOf input.jobType).1 with
    | none => exact (quiet (by rw [hjobs, hrelay]; rfl)).elim
    | some jobType =>
      have hone : txn.newJobs = [createJob db input.cycleId jobType input.payload 10] := by
        rw [hjobs, hrelay]
        rfl
      obtain rfl := List.singleton_inj.mp (hone.symm.trans hnew)
      exact hcontext
  | rejected | launched | polled | halted | observedRunning | observedExit =>
    exact (quiet rfl).elim
  | _ => exact (quiet ‹Quiet _›.jobs).elim

theorem recommend_charged {new : Job} (h : Remediation.recommendOperator db input = .ok (txn, next))
    (hjob : txn.newJobs = [new]) (hr : new.payload.runRecordId = some r) :
    ∃ p, chargedTo db r = some p := by
  unfold Remediation.recommendOperator at h
  split at h
  · obtain ⟨run, hrun, h⟩ := bind_eq_ok.mp h
    obtain ⟨spec, hspec, h⟩ := bind_eq_ok.mp h
    obtain ⟨report, -, h⟩ := bind_eq_ok.mp h
    dsimp only at h
    split at h
    · obtain ⟨rfl, -⟩ := Prod.mk.inj (pure_eq_ok.mp h)
      obtain rfl := List.singleton_inj.mp hjob
      obtain rfl := Option.some.inj hr
      refine ⟨(run.cycleId, spec.hypothesisCardId), ?_⟩
      simp only [chargedTo, loadRunRecord_eq_ok hrun, loadExperimentSpec_eq_ok hspec,
        Option.bind_eq_bind, Option.bind_some]
      rfl
    · obtain ⟨rfl, -⟩ := Prod.mk.inj (pure_eq_ok.mp h)
      exact absurd hjob fun h => by cases h
  · obtain ⟨rfl, -⟩ := Prod.mk.inj (pure_eq_ok.mp h)
    exact absurd hjob fun h => by cases h

theorem step_charges (h : Step settings sys l sys') :
    ∃ more, charges sys'.db.events = charges sys.db.events ++ more := by
  have hwrites := step_writes h
  generalize sys'.db = db at hwrites
  cases hwrites with
  | unfiled _ db hsame => exact ⟨[], by rw [hsame.charges, List.append_nil]⟩
  | manual q c charter seen db hpc hsame => exact ⟨[], by rw [hsame.charges, List.append_nil]⟩
  | operator w world j phase job txn next hpc hj hout =>
    exact ⟨charges txn.events, by rw [Db.commit_events, charges_append]⟩

theorem booked_born (hinv : Booked sys.db) (hcounted : Counted sys'.db)
    (h : Step settings sys l sys') {new : Job} (hborn : Born sys l new) :
    (∀ context, new.payload.loopContext = some context →
        context.runRecordId ∈ charges sys'.db.events) ∧
      ∀ r, new.jobType = .loopDecide → new.payload.preparedRunRecordId = none →
        new.payload.runRecordId = some r → ∃ p, chargedTo sys'.db r = some p := by
  cases hborn with
  | requested q body seen new hpc hnew =>
    constructor
    · cases hnew <;> exact fun context hcontext => absurd hcontext nofun
    · cases hnew <;> exact fun r htype => absurd htype nofun
  | enqueued w world j phase job new txn next hpc hj hout hnew =>
    have hdb := step_exec h hpc hj hout
    constructor
    · intro context hcontext
      rcases exit_context (execute_exit hout) hnew hcontext with hold | ⟨htype, hfresh⟩
      · obtain ⟨more, hmore⟩ := step_charges h
        rw [hmore]
        exact List.mem_append_left _ (hinv.contexts j job context hj hold)
      · obtain ⟨it, -, hcontexts, hsettles⟩ := loopDecide_contexts htype hfresh hout
          (by rw [hnew]; exact List.cons_ne_nil _ _)
        obtain ⟨row, hrow, hrecords⟩ := hsettles.files
        rw [hcontexts new (by rw [hnew]; exact List.mem_singleton_self new) context hcontext]
        have hfiled : row ∈ sys'.db.decisions := by
          rw [hdb, Runtime.moveWorker_db, Db.commit_decisions, hrow]
          exact List.mem_append_right _ (List.mem_singleton_self row)
        have hmem := hcounted.decided row hfiled hrecords.automatic
        rw [hrecords.run] at hmem
        have hrun : (counted sys.db it).runId = it.runId := by
          unfold counted countRun
          split
          · split <;> rfl
          · rfl
        rwa [hrun] at hmem
    · intro r htype hfresh hr
      rcases exit_loopJob (execute_exit hout) hnew htype with
        ⟨-, -, -, hjob, -, -, -⟩ | ⟨run, hpayload, -⟩
      · have hhandler :
            Remediation.recommendOperator sys.db (operatorInput j job) = .ok (txn, next) := by
          rcases execute_cases hout with hok | ⟨error, hreject⟩
          · unfold handler at hok
            rw [hjob] at hok
            exact hok
          · obtain ⟨rfl, -⟩ := Prod.mk.inj hreject
            exact absurd hnew.symm (List.cons_ne_nil _ _)
        obtain ⟨p, hp⟩ := recommend_charged hhandler hnew hr
        exact ⟨p, chargedTo_grows (step_grows h) hp⟩
      · rw [hpayload] at hfresh
        exact absurd hfresh nofun

theorem booked_step (hinv : Booked sys.db) (h : Step settings sys l sys') : Booked sys'.db where
  toCounted := counted_step hinv h
  contexts j new context hj hcontext := by
    rcases step_job h hj with ⟨old, hold, hsame, -⟩ | ⟨-, -, hborn⟩
    · obtain ⟨more, hmore⟩ := step_charges h
      rw [hmore]
      rw [hsame.payload] at hcontext
      exact List.mem_append_left _ (hinv.contexts j old context hold hcontext)
    · exact (booked_born hinv (counted_step hinv h) h hborn).1 context hcontext
  loopJobs j new r hj htype hfresh hr := by
    rcases step_job h hj with ⟨old, hold, hsame, -⟩ | ⟨-, -, hborn⟩
    · rw [hsame.payload] at hfresh hr
      obtain ⟨p, hp⟩ := hinv.loopJobs j old r hold (hsame.type.symm.trans htype) hfresh hr
      exact ⟨p, chargedTo_grows (step_grows h) hp⟩
    · exact (booked_born hinv (counted_step hinv h) h hborn).2 r htype hfresh hr

theorem booked_initial (hstart : start.Initial) : Booked start.db where
  balanced c budget hc := by
    rw [budgetOf, hstart.budgets] at hc
    exact absurd hc fun h => by cases h
  total c := by
    rw [totalOf, budgetOf, hstart.budgets, hstart.events]
    rfl
  perCard c card := by
    rw [countOf, budgetOf, hstart.budgets, hstart.events]
    rfl
  founded r hr := by
    rw [hstart.events] at hr
    exact absurd hr List.not_mem_nil
  filed r hr := by
    rw [hstart.events] at hr
    exact absurd hr List.not_mem_nil
  decided row hrow := by
    rw [hstart.decisions] at hrow
    exact absurd hrow List.not_mem_nil
  contexts j job context hj := by
    rw [hstart.jobs] at hj
    exact absurd hj fun h => by cases h
  loopJobs j job r hj := by
    rw [hstart.jobs] at hj
    exact absurd hj fun h => by cases h

theorem once_step (hinv : Booked sys.db) (hnodup : (charges sys.db.events).Nodup)
    (hok : DecidesOnce sys l) (h : Step settings sys l sys') : (charges sys'.db.events).Nodup := by
  have hwrites := step_writes h
  generalize sys'.db = db at hwrites
  cases hwrites with
  | unfiled _ db hsame => rwa [hsame.charges]
  | manual q c charter seen db hpc hsame => rwa [hsame.charges]
  | operator w world j phase job txn next hpc hj hout =>
    rw [Db.commit_events, charges_append]
    cases execute_books hout with
    | closed hbudget hdecisions hcharges => rwa [hcharges, List.append_nil]
    | prepared specId spec htype hphase hspec hbudget hdecisions hcharges =>
      rwa [hcharges, List.append_nil]
    | decided it htype hfresh hit hsettles =>
      have hr := iterationOf_run hit
      obtain ⟨⟨c, card⟩, hp⟩ := hinv.loopJobs j job _ hj htype hfresh hr
      obtain ⟨-, hcard⟩ := charged_iteration hit hp
      obtain ⟨-, -, hevents⟩ := iterationOf_budget hit
      rw [hsettles.charges]
      by_cases hgates : gateDecisionsOf sys.db it.runId = []
      · obtain ⟨-, -, hcounted⟩ := counted_budget sys.db hcard
        rw [counted, if_pos hgates, hcounted, hevents]
        change (charges sys.db.events ++ [it.runId]).Nodup
        refine hnodup.append (List.nodup_singleton _) ?_
        rw [List.disjoint_singleton]
        intro hmem
        exact hok w world j phase job it.runId rfl hpc hj htype hfresh hr (hinv.filed _ hmem) hgates
      · rw [counted, if_neg hgates, hevents]
        rwa [charges_nil, List.append_nil]

theorem booked_run (hstart : start.Initial)
    (hrun : Reaches DecidesOnce (Runtime.step settings) start sys) :
    Booked sys.db ∧ (charges sys.db.events).Nodup := by
  refine hrun.invariant (fun sys => Booked sys.db ∧ (charges sys.db.events).Nodup) ?_ ?_
  · rintro sys l sys' ⟨hinv, hnodup⟩ hok hstep
    exact ⟨booked_step hinv (step_cases hstep), once_step hinv hnodup hok (step_cases hstep)⟩
  · refine ⟨booked_initial hstart, ?_⟩
    rw [hstart.events]
    exact List.nodup_nil

end Synthetos.Loop
