import Synthetos.Lib.Consecutive
import Synthetos.Runtime.RunRows

/-!
# Numbering runs

Transactions of requests and operators over the run table.  Each reads the table, numbers its run
from what it read, and commits later; any number of them are open at once.
-/

namespace Synthetos.Runs

open Synthetos.Core Storage Lib Worker Api Autonomy

inductive Transaction where
  | request (body : Request)
  | operator (input : OperatorInput) (phase : Phase) (world : External)

/-- What the transaction makes of the database, after it read `seen`. -/
def Transaction.commit (seen db : Db) : Transaction → Db
  | .request body =>
    match Api.respond body seen db with
    | .ok new => new
    | .error _ => db
  | .operator input phase world => db.commit (execute seen input phase world).1

inductive Writer where
  | request (q : Nat)
  | worker (w : WorkerId)
  deriving DecidableEq

/-- The run table and the open transactions, with what they read. -/
structure Numbering where
  runs : List RunRecord := []
  writers : Writer → Option (Transaction × Db) := fun _ => none

/-- The other tables are whatever they are at the read and at the commit, and the other columns
of a run may change at any time. -/
inductive NumberingLabel where
  | read (k : Writer) (transaction : Transaction) (tables : Db)
  | commit (k : Writer) (tables : Db)
  | abandon (k : Writer)
  | rewrite (r : RunId) (f : RunRecord → RunRecord)

namespace Numbering

/-- The row after a write that leaves its spec and its number alone. -/
def keepNumber (f : RunRecord → RunRecord) (run : RunRecord) : RunRecord :=
  { f run with experimentSpecId := run.experimentSpecId, runNumber := run.runNumber }

def step (s : Numbering) : NumberingLabel → Option Numbering
  | .read k transaction tables =>
    match s.writers k with
    | none =>
      let seen := { tables with runs := s.runs }
      some { s with writers := Function.update s.writers k (some (transaction, seen)) }
    | some _ => none
  | .commit k tables =>
    match s.writers k with
    | some (transaction, seen) => some
        { runs := (transaction.commit seen { tables with runs := s.runs }).runs
          writers := Function.update s.writers k none }
    | none => none
  | .abandon k => some { s with writers := Function.update s.writers k none }
  | .rewrite r f => some { s with runs := Table.update s.runs r (keepNumber f) }

/-- The transitions of `step`. -/
inductive Step (s : Numbering) : NumberingLabel → Numbering → Prop where
  | read (k : Writer) (transaction : Transaction) (tables : Db) (hfree : s.writers k = none) :
      Step s (.read k transaction tables)
        { s with
          writers := Function.update s.writers k (some (transaction, { tables with runs := s.runs })) }
  | commit (k : Writer) (tables : Db) (transaction : Transaction) (seen : Db)
      (hopen : s.writers k = some (transaction, seen)) :
      Step s (.commit k tables)
        { runs := (transaction.commit seen { tables with runs := s.runs }).runs
          writers := Function.update s.writers k none }
  | abandon (k : Writer) :
      Step s (.abandon k) { s with writers := Function.update s.writers k none }
  | rewrite (r : RunId) (f : RunRecord → RunRecord) :
      Step s (.rewrite r f) { s with runs := Table.update s.runs r (keepNumber f) }

theorem step_cases {s t : Numbering} {l : NumberingLabel} (h : s.step l = some t) :
    Step s l t := by
  cases l with
  | read k transaction tables =>
    cases hfree : s.writers k with
    | none =>
      simp only [step, hfree] at h
      obtain rfl := Option.some.inj h
      exact .read k transaction tables hfree
    | some writer =>
      simp only [step, hfree] at h
      exact absurd h nofun
  | commit k tables =>
    cases hopen : s.writers k with
    | none =>
      simp only [step, hopen] at h
      exact absurd h nofun
    | some writer =>
      simp only [step, hopen] at h
      obtain rfl := Option.some.inj h
      exact .commit k tables writer.1 writer.2 hopen
  | abandon k =>
    obtain rfl := Option.some.inj h
    exact .abandon k
  | rewrite r f =>
    obtain rfl := Option.some.inj h
    exact .rewrite r f

end Numbering

def numbersOf (runs : List RunRecord) (spec : SpecId) : List Nat :=
  (runs.filter fun run => run.experimentSpecId == spec).map RunRecord.runNumber

def DistinctNumbers (runs : List RunRecord) : Prop := ∀ spec, (numbersOf runs spec).Nodup

/-- Where the number of a new run comes from. -/
inductive Numbers (seen : Db) (new : RunRecord) : Prop where
  | counted (h : new.runNumber = runsOfSpec seen new.experimentSpecId + 1)
      (hroot : new.parentRunId = none)
  | largest (h : new.runNumber = nextRunNumber seen new.experimentSpecId)
      (hroot : new.parentRunId = none)
  | remediated (r : RunId) (run : RunRecord) (hrun : seen.runs[r]? = some run)
      (h : new = Remediation.retryRun run r)

variable {seen db new : Db} {runs runs' : List RunRecord} {spec : SpecId}

theorem runsOfSpec_eq (db : Db) (spec : SpecId) :
    runsOfSpec db spec = (numbersOf db.runs spec).length := by
  rw [numbersOf, List.length_map]
  rfl

theorem nextRunNumber_eq (db : Db) (spec : SpecId) :
    nextRunNumber db spec = (numbersOf db.runs spec).foldl max 0 + 1 := rfl

theorem numbersOf_append :
    numbersOf (runs ++ runs') spec = numbersOf runs spec ++ numbersOf runs' spec := by
  rw [numbersOf, List.filter_append, List.map_append]
  rfl

theorem numbersOf_singleton_self (run : RunRecord) :
    numbersOf [run] run.experimentSpecId = [run.runNumber] := by
  simp [numbersOf]

theorem numbersOf_singleton_ne {run : RunRecord} (h : run.experimentSpecId ≠ spec) :
    numbersOf [run] spec = [] := by
  simp [numbersOf, h]

theorem numbersOf_update {r : RunId} {f : RunRecord → RunRecord}
    (hspec : ∀ run, (f run).experimentSpecId = run.experimentSpecId)
    (hnumber : ∀ run, (f run).runNumber = run.runNumber) :
    numbersOf (Table.update runs r f) spec = numbersOf runs spec := by
  unfold Table.update
  induction runs generalizing r with
  | nil => simp
  | cons run rest ih =>
    cases r with
    | zero => simp [numbersOf, hspec, hnumber, List.filter_cons, apply_ite]
    | succ r =>
      simp only [List.modify_succ_cons]
      rw [← List.singleton_append, numbersOf_append, ih, ← numbersOf_append, List.singleton_append]

/-- What a transaction does to the run table: it rewrites rows and adds at most one run, numbered
from what it read. -/
inductive Adds (seen : Db) (runs after : List RunRecord) : Prop where
  | none (hnumbers : ∀ spec, numbersOf after spec = numbersOf runs spec)
      (hlength : after.length = runs.length)
  | one (new : RunRecord) (old : List RunRecord)
      (hnumbers : ∀ spec, numbersOf old spec = numbersOf runs spec)
      (hlength : old.length = runs.length) (hafter : after = old ++ [new])
      (hnew : Numbers seen new)

theorem adds_kept (h : runs' = runs) : Adds seen runs runs' := by
  subst h
  exact .none (fun _ => rfl) rfl

theorem adds_updated {r : RunId} {f : RunRecord → RunRecord} (h : runs' = Table.update runs r f)
    (hf : ∀ run, SameRun run (f run)) : Adds seen runs runs' := by
  subst h
  exact .none (fun _ => numbersOf_update (fun run => (hf run).spec) fun run => (hf run).number)
    Table.length_update

theorem adds_appended {run : RunRecord} (hnew : Numbers seen run) (h : runs' = runs ++ [run]) :
    Adds seen runs runs' :=
  .one run runs (fun _ => rfl) rfl h hnew

theorem respond_adds {body : Request} (h : Responds seen db body new) :
    Adds seen db.runs new.runs := by
  cases h with
  | startAnalysis c cycle moved hcycle hmoved =>
    rcases hmoved with ⟨-, rfl⟩ | ⟨-, rfl⟩ <;> exact adds_kept rfl
  | startRun spec row cycle moved hspec hvalidated hcycle hmoved =>
    rcases hmoved with ⟨-, rfl⟩ | ⟨-, rfl⟩ <;> exact adds_appended (.counted rfl rfl) rfl
  | cancelRun | pauseRun =>
    exact adds_updated rfl fun _ => ⟨rfl, rfl, rfl, rfl, rfl⟩
  | resumeRun r run =>
    exact adds_updated (ensureRunning_runs ..) fun _ => ⟨rfl, rfl, rfl, rfl, rfl⟩
  | retryRun r run =>
    exact adds_appended (.counted rfl rfl)
      (congrArg (· ++ [_]) (ensureRunning_runs seen db run.cycleId))
  | stopLoop c cycle moved hcycle hmoved =>
    rcases hmoved with ⟨-, rfl⟩ | ⟨-, rfl⟩ <;> exact adds_kept rfl
  | _ => exact adds_kept rfl

theorem exit_numbers {input : OperatorInput} {phase : Phase} {txn : Txn} {next : Core.Next}
    (h : Exit seen input phase txn next) :
    txn.newRuns = [] ∨ ∃ run, txn.newRuns = [run] ∧ txn.runUpdate = none ∧ Numbers seen run := by
  cases h with
  | loopPaused | loopClosed | relayed => exact .inl ‹txn.newRuns = []›
  | retried _ _ r run htype hr hrun hjob hwrite =>
    exact .inr ⟨_, hjob.runs, hwrite, .remediated r run hrun rfl⟩
  | _ =>
    first
      | exact .inl rfl
      | exact .inl ‹Quiet _›.runs
      | exact .inl ‹Enqueues _ _›.runs
      | exact .inr ⟨_, ‹Prepares _ _ _›.runs, ‹txn.runUpdate = none›,
          .largest ‹FreshRun _ _ _›.number ‹FreshRun _ _ _›.root⟩

theorem commit_adds {input : OperatorInput} {phase : Phase} {txn : Txn} {next : Core.Next}
    (h : Exit seen input phase txn next) : Adds seen db.runs (db.commit txn).runs := by
  rw [Db.commit_runs]
  rcases exit_numbers h with hnone | ⟨run, hone, hupdate, hnumbers⟩
  · rw [hnone, List.append_nil]
    rcases exit_runUpdate h with hkept | ⟨r, s, -, f, hf, hsame⟩
    · rw [hkept]
      exact adds_kept rfl
    · rw [hf]
      exact adds_updated rfl fun run => (hsame run).1
  · rw [hone, hupdate]
    exact adds_appended hnumbers rfl

theorem transaction_adds (transaction : Transaction) (seen db : Db) :
    Adds seen db.runs (transaction.commit seen db).runs := by
  cases transaction with
  | request body =>
    cases hanswer : Api.respond body seen db with
    | ok new =>
      rw [Transaction.commit, hanswer]
      exact respond_adds (respond_cases hanswer)
    | error e =>
      rw [Transaction.commit, hanswer]
      exact adds_kept rfl
  | operator input phase world =>
    have hexit : Exit seen input phase (execute seen input phase world).1 _ := execute_exit rfl
    exact commit_adds hexit

/-! ### The system numbers runs this way -/

def writerOf : RequestPc → Option (Transaction × Db)
  | .idle => none
  | .opened body seen => some (.request body, seen)

/-- The open requests of the system are the open transactions. -/
structure Represents (s : Numbering) (sys : Runtime) : Prop where
  runs : s.runs = sys.db.runs
  requests : ∀ q, s.writers (.request q) = writerOf (sys.requests q)
  workers : ∀ w, s.writers (.worker w) = none

variable {settings : Settings} {start sys sys' : Runtime} {l : Label} {s : Numbering}

theorem represents_moveWorker {w : WorkerId} {pc : WorkerPc} (h : Represents s sys)
    (hruns : db.runs = sys.db.runs) : Represents s (sys.moveWorker w db pc) :=
  ⟨h.runs.trans hruns.symm, h.requests, h.workers⟩

theorem represents_moveRequest {q : Nat} (rpc : RequestPc) (h : Represents s sys)
    (hruns : runs = db.runs) :
    Represents { runs := runs, writers := Function.update s.writers (.request q) (writerOf rpc) }
      (sys.moveRequest q db rpc) := by
  refine ⟨hruns, fun q' => ?_, fun w => ?_⟩
  · rw [Runtime.moveRequest_requests]
    dsimp only
    by_cases hq : q' = q
    · subst hq
      rw [Function.update_self, if_pos rfl]
    · rw [Function.update_of_ne (by simpa using hq), if_neg hq, h.requests]
  · dsimp only
    rw [Function.update_of_ne (by simp)]
    exact h.workers w

theorem path_request {q : Nat} {body : Request} {seen : Db} (h : Represents s sys)
    (hpc : sys.requests q = .opened body seen)
    (hdb : (Transaction.request body).commit seen sys.db = db) :
    ∃ ls s', Path Unguarded Numbering.step s ls s' ∧
      Represents s' (sys.moveRequest q db .idle) := by
  have hcurrent : { sys.db with runs := s.runs } = sys.db := by rw [h.runs]
  have hopen := h.requests q
  rw [hpc] at hopen
  refine ⟨[.commit (.request q) sys.db],
    { runs := db.runs, writers := Function.update s.writers (.request q) none },
    .cons trivial ?_ .nil, represents_moveRequest .idle h rfl⟩
  simp only [Numbering.step, hopen, writerOf, hcurrent, hdb]

theorem path_operator {w : WorkerId} {world : External} {j : JobId} {phase : Phase} {job : Job}
    {txn : Txn} {next : Core.Next} (h : Represents s sys)
    (hout : execute sys.db (operatorInput j job) phase world = (txn, next)) :
    ∃ ls s', Path Unguarded Numbering.step s ls s' ∧
      Represents s' (sys.moveWorker w (sys.db.commit txn) (Runtime.afterExec j next)) := by
  let transaction : Transaction := .operator (operatorInput j job) phase world
  have hcurrent : { sys.db with runs := s.runs } = sys.db := by rw [h.runs]
  have hcommit : transaction.commit sys.db sys.db = sys.db.commit txn := by
    change sys.db.commit (execute sys.db (operatorInput j job) phase world).1 = _
    rw [hout]
  let opened : Numbering :=
    { s with writers := Function.update s.writers (.worker w) (some (transaction, sys.db)) }
  have hread : s.step (.read (.worker w) transaction sys.db) = some opened := by
    simp only [Numbering.step, h.workers w, hcurrent, opened]
  have hwrite : opened.step (.commit (.worker w) sys.db) =
      some { s with runs := (sys.db.commit txn).runs } := by
    have hfree : Function.update s.writers (.worker w) none = s.writers :=
      Function.update_eq_self_iff.mpr (h.workers w).symm
    simp only [Numbering.step, opened, Function.update_self, Function.update_idem, hcurrent,
      hcommit, hfree]
  exact ⟨_, _, .cons trivial hread (.cons trivial hwrite .nil), rfl, h.requests, h.workers⟩

theorem path_failed {k : RunId} {f : RunRecord → RunRecord} {w : WorkerId} {pc : WorkerPc}
    (h : Represents s sys) (hf : ∀ run, SameRun run (f run))
    (hruns : db.runs = Table.update sys.db.runs k f) :
    ∃ ls s', Path Unguarded Numbering.step s ls s' ∧ Represents s' (sys.moveWorker w db pc) := by
  have hkeep : Numbering.keepNumber f = f := by
    funext run
    rw [Numbering.keepNumber, ← (hf run).spec, ← (hf run).number]
  have hrewrite : s.step (.rewrite k f) = some { s with runs := db.runs } := by
    rw [Numbering.step, hkeep, hruns, h.runs]
  exact ⟨_, _, .cons trivial hrewrite .nil, rfl, h.requests, h.workers⟩

theorem step_represented (h : Represents s sys) (hstep : Runtime.step settings sys l = some sys') :
    ∃ ls s', Path Unguarded Numbering.step s ls s' ∧ Represents s' sys' := by
  cases step_cases hstep with
  | exec w world j phase job txn next hpc hj hout => exact path_operator h hout
  | writeOutcome w j result seen cycleSeen runSeen job hpc hj =>
    rcases writeOutcome_runs sys.db j job result seen cycleSeen runSeen with
      hruns | ⟨k, seen, f, -, -, -, -, hruns, hf⟩
    · exact ⟨[], s, .nil, represents_moveWorker h hruns⟩
    · exact path_failed h (fun run => (hf run).1) hruns
  | writeStale w stale hpc =>
    exact ⟨[], s, .nil, represents_moveWorker h (reclaimStaleJobs_runs ..)⟩
  | receive q body hpc =>
    have hcurrent : { sys.db with runs := s.runs } = sys.db := by rw [h.runs]
    have hfree := h.requests q
    rw [hpc] at hfree
    have hread : s.step (.read (.request q) (.request body) sys.db) =
        some { s with
          writers := Function.update s.writers (.request q) (some (.request body, sys.db)) } := by
      simp only [Numbering.step, hfree, writerOf, hcurrent]
    exact ⟨_, _, .cons trivial hread .nil, represents_moveRequest (.opened body sys.db) h h.runs⟩
  | respond q body seen db hpc hanswer =>
    refine path_request h hpc ?_
    simp only [Runtime.step, Runtime.respond, hpc] at hstep
    cases hnew : Api.respond body seen sys.db with
    | ok new =>
      rw [hnew] at hstep
      have hdb := congrArg Runtime.db (Option.some.inj hstep)
      simp only [Transaction.commit, hnew]
      exact hdb
    | error e =>
      rw [hnew] at hstep
      have hdb := congrArg Runtime.db (Option.some.inj hstep)
      simp only [Transaction.commit, hnew]
      exact hdb
  | reject q body seen error hpc herror =>
    refine path_request h hpc ?_
    simp only [Transaction.commit, herror]
  | drop q =>
    exact ⟨[.abandon (.request q)], _, .cons trivial rfl .nil,
      represents_moveRequest .idle h h.runs⟩
  | _ => exact ⟨[], s, .nil, ⟨h.runs, h.requests, h.workers⟩⟩

/-- Every run of the system is an interleaving of the numbering. -/
theorem run_represented (hstart : start.Initial)
    (hrun : Reaches Unguarded (Runtime.step settings) start sys) :
    ∃ ls s, Path Unguarded Numbering.step {} ls s ∧ Represents s sys := by
  induction hrun with
  | refl =>
    refine ⟨[], {}, .nil, hstart.runs.symm, fun q => ?_, fun _ => rfl⟩
    rw [hstart.requests]
    rfl
  | tail _ next ih =>
    obtain ⟨ls, s, hpath, hrep⟩ := ih
    obtain ⟨l, -, taken⟩ := next
    obtain ⟨ls', s', hpath', hrep'⟩ := step_represented hrep taken
    exact ⟨ls ++ ls', s', hpath.append hpath', hrep'⟩

end Synthetos.Runs
