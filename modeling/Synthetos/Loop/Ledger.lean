import Synthetos.Runtime.Growth

/-!
# The tables of the loop

Decisions, recommendations, budgets and hypothesis cards are written by operators.  The only other
writer is `stop_loop`, which files a `stop_manual` decision.
-/

namespace Synthetos.Loop

open Synthetos.Core Storage Lib Worker Api Autonomy

/-- The tables only the operators of the loop write, and the events that count a run. -/
structure SameLedger (old new : Db) : Prop where
  recommendations : new.recommendations = old.recommendations
  budgets : new.budgets = old.budgets
  cards : new.cards = old.cards
  charges : Autonomy.charges new.events = Autonomy.charges old.events

/-- Nor is a decision filed. -/
structure Unfiled (old new : Db) : Prop extends SameLedger old new where
  decisions : new.decisions = old.decisions

theorem Unfiled.refl (db : Db) : Unfiled db db := ⟨⟨rfl, rfl, rfl, rfl⟩, rfl⟩

theorem Unfiled.of_administers {old new : Db} (h : Administers old new) : Unfiled old new := by
  cases h with
  | intro _ _ _ _ hcharges => exact ⟨⟨rfl, rfl, rfl, hcharges⟩, rfl⟩

theorem respond_ledger {body : Request} {seen db new : Db} (h : Responds seen db body new) :
    Unfiled db new ∨ ∃ c charter, body = .stopLoop c ∧ SameLedger db new ∧
      new.decisions = db.decisions ++ manualDecision db c charter := by
  cases h with
  | startAnalysis c cycle moved hcycle hmoved =>
    rcases hmoved with ⟨-, rfl⟩ | ⟨-, rfl⟩ <;>
      exact .inl ⟨⟨rfl, rfl, rfl, charges_logged rfl⟩, rfl⟩
  | startRun spec row cycle moved hspec hvalidated hcycle hmoved =>
    rcases hmoved with ⟨-, rfl⟩ | ⟨-, rfl⟩ <;>
      exact .inl ⟨⟨rfl, rfl, rfl, charges_logged rfl⟩, rfl⟩
  | resumeRun r run =>
    have hadded : Administers db
        (addJob (updateRunRow db r fun row => { row with status := .running })
          (createJob db (some run.cycleId) .executionRun
            { runRecordId := some r, resume := true } 10)) := .intro _ _ _ _ rfl
    exact .inl (.of_administers (hadded.trans (ensureRunning_administers seen _ run.cycleId)))
  | retryRun r run =>
    have h := Unfiled.of_administers (ensureRunning_administers seen db run.cycleId)
    exact .inl ⟨⟨h.recommendations, h.budgets, h.cards, h.charges⟩, h.decisions⟩
  | stopLoop c cycle moved hcycle hmoved =>
    rcases hmoved with ⟨-, rfl⟩ | ⟨-, rfl⟩ <;>
      exact .inr ⟨c, cycle.charterId, rfl, ⟨rfl, rfl, rfl, charges_logged rfl⟩, rfl⟩
  | _ => exact .inl ⟨⟨rfl, rfl, rfl, charges_logged rfl⟩, rfl⟩

/-- What a step writes to the tables of the loop. -/
inductive Writes (sys : Runtime) : Label → Db → Prop where
  | unfiled (l : Label) (db : Db) (h : Unfiled sys.db db) : Writes sys l db
  | manual (q : Nat) (c : CycleId) (charter : CharterId) (seen db : Db)
      (hpc : sys.requests q = .opened (.stopLoop c) seen) (hsame : SameLedger sys.db db)
      (hdecisions : db.decisions = sys.db.decisions ++ manualDecision sys.db c charter) :
      Writes sys (.respond q) db
  | operator (w : WorkerId) (world : External) (j : JobId) (phase : Phase) (job : Job) (txn : Txn)
      (next : Core.Next) (hpc : sys.workers w = .executing j phase)
      (hj : sys.db.jobs[j]? = some job)
      (hout : execute sys.db (operatorInput j job) phase world = (txn, next)) :
      Writes sys (.exec w world) (sys.db.commit txn)

variable {settings : Settings} {sys sys' : Runtime} {l : Label}

theorem step_writes (h : Step settings sys l sys') : Writes sys l sys'.db := by
  cases h with
  | exec w world j phase job txn next hpc hj hout =>
    exact .operator w world j phase job txn next hpc hj hout
  | writeOutcome w j result seen cycleSeen runSeen job =>
    exact .unfiled _ _ (.of_administers (writeOutcome_administers ..))
  | writeStale w stale => exact .unfiled _ _ (.of_administers (reclaimStaleJobs_administers ..))
  | respond q body seen db hpc hanswer =>
    rcases respond_ledger hanswer with hsame | ⟨c, charter, rfl, hsame, hdecisions⟩
    · exact .unfiled _ _ hsame
    · exact .manual q c charter seen db hpc hsame hdecisions
  | start | acknowledge => exact .unfiled _ _ ⟨⟨rfl, rfl, rfl, charges_logged rfl⟩, rfl⟩
  | _ => exact .unfiled _ _ ⟨⟨rfl, rfl, rfl, rfl⟩, rfl⟩

theorem step_decisions (h : Step settings sys l sys') :
    ∃ rows, sys'.db.decisions = sys.db.decisions ++ rows := by
  have hwrites := step_writes h
  generalize sys'.db = db at hwrites
  cases hwrites with
  | unfiled _ db hsame => exact ⟨[], by rw [hsame.decisions, List.append_nil]⟩
  | manual q c charter seen db hpc hsame hdecisions => exact ⟨_, hdecisions⟩
  | operator w world j phase job txn => exact ⟨txn.newDecisions, rfl⟩

theorem manualDecision_stops (db : Db) (c : CycleId) (charter : CharterId) :
    ∀ row ∈ manualDecision db c charter, row.decision = .stopManual := by
  intro row hrow
  unfold manualDecision at hrow
  dsimp only at hrow
  split at hrow
  · obtain rfl := List.mem_singleton.mp hrow
    rfl
  · split at hrow
    · obtain rfl := List.mem_singleton.mp hrow
      rfl
    · exact absurd hrow List.not_mem_nil

end Synthetos.Loop
