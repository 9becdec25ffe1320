import Synthetos.Runtime.RunRows

/-!
# Rows persist

Rows are never removed and their fixed columns never change, so what a request or an operator has
read about them stays true.
-/

namespace Synthetos

open Synthetos.Core Storage Lib Worker Api

/-- A spec keeps everything but its status. -/
def SameSpec (old new : ExperimentSpec) : Prop := new = { old with status := new.status }

theorem SameSpec.refl (spec : ExperimentSpec) : SameSpec spec spec := rfl

theorem SameSpec.trans {a b c : ExperimentSpec} (hab : SameSpec a b) (hbc : SameSpec b c) :
    SameSpec a c := by
  unfold SameSpec at *
  rw [hbc, hab]

theorem SameSpec.cycleId {old new : ExperimentSpec} (h : SameSpec old new) :
    new.cycleId = old.cycleId := by
  rw [h]

theorem SameCycle.trans {a b c : ResearchCycle} (hab : SameCycle a b) (hbc : SameCycle b c) :
    SameCycle a c :=
  ⟨hbc.charter.trans hab.charter, hbc.autonomy.trans hab.autonomy⟩

structure Grows (old new : Db) : Prop where
  cycles : ∀ (c : CycleId) (cycle : ResearchCycle), old.cycles[c]? = some cycle →
    ∃ now, new.cycles[c]? = some now ∧ SameCycle cycle now
  jobs : ∀ (j : JobId) (job : Job), old.jobs[j]? = some job →
    ∃ now, new.jobs[j]? = some now ∧ SameJob job now
  runs : ∀ (r : RunId) (run : RunRecord), old.runs[r]? = some run →
    ∃ now, new.runs[r]? = some now ∧ SameRun run now
  sessions : ∀ (s : SessionId) (session : HypothesisSession), old.sessions[s]? = some session →
    new.sessions[s]? = some session
  specs : ∀ (s : SpecId) (spec : ExperimentSpec), old.specs[s]? = some spec →
    ∃ now, new.specs[s]? = some now ∧ SameSpec spec now

theorem Grows.refl (db : Db) : Grows db db where
  cycles _ cycle h := ⟨cycle, h, .refl cycle⟩
  jobs _ job h := ⟨job, h, .refl job⟩
  runs _ run h := ⟨run, h, .refl run⟩
  sessions _ _ h := h
  specs _ spec h := ⟨spec, h, .refl spec⟩

theorem Grows.trans {a b c : Db} (hab : Grows a b) (hbc : Grows b c) : Grows a c where
  cycles k row h := by
    obtain ⟨mid, hmid, hsame⟩ := hab.cycles k row h
    obtain ⟨now, hnow, hsame'⟩ := hbc.cycles k mid hmid
    exact ⟨now, hnow, hsame.trans hsame'⟩
  jobs k row h := by
    obtain ⟨mid, hmid, hsame⟩ := hab.jobs k row h
    obtain ⟨now, hnow, hsame'⟩ := hbc.jobs k mid hmid
    exact ⟨now, hnow, hsame.trans hsame'⟩
  runs k row h := by
    obtain ⟨mid, hmid, hsame⟩ := hab.runs k row h
    obtain ⟨now, hnow, hsame'⟩ := hbc.runs k mid hmid
    exact ⟨now, hnow, hsame.trans hsame'⟩
  sessions k row h := hbc.sessions k row (hab.sessions k row h)
  specs k row h := by
    obtain ⟨mid, hmid, hsame⟩ := hab.specs k row h
    obtain ⟨now, hnow, hsame'⟩ := hbc.specs k mid hmid
    exact ⟨now, hnow, hsame.trans hsame'⟩

variable {settings : Settings} {start sys sys' : Runtime} {l : Label}

/-! ### Sessions and specs -/

/-- The tables only the protocol compiler and the hypothesis sessions write. -/
def SameDesigns (old new : Db) : Prop := new.sessions = old.sessions ∧ new.specs = old.specs

/-- Only cycles, jobs and runs are written, and no event is added that counts a run. -/
inductive Administers (old : Db) : Db → Prop where
  | intro (cycles : List ResearchCycle) (jobs : List Job) (runs : List RunRecord)
      (events : List DomainEvent)
      (hcharges : Autonomy.charges events = Autonomy.charges old.events) :
      Administers old { old with cycles, jobs, runs, events }

theorem Administers.refl (db : Db) : Administers db db := .intro _ _ _ _ rfl

theorem Administers.trans {a b c : Db} (hab : Administers a b) (hbc : Administers b c) :
    Administers a c := by
  cases hab with
  | intro _ _ _ _ hcharges =>
    cases hbc with
    | intro _ _ _ _ hcharges' => exact .intro _ _ _ _ (hcharges'.trans hcharges)

theorem Administers.designs {old new : Db} (h : Administers old new) : SameDesigns old new := by
  cases h
  exact ⟨rfl, rfl⟩

theorem Administers.actions {old new : Db} (h : Administers old new) :
    new.actions = old.actions := by
  cases h
  rfl

theorem reclaimStaleJobs_administers (maxReclaims : Nat) (db : Db) (stale : List (JobId × Job)) :
    Administers db (reclaimStaleJobs maxReclaims db stale) := by
  induction stale generalizing db with
  | nil => exact .refl db
  | cons entry rest ih =>
    refine Administers.trans ?_ (ih (reclaimJob maxReclaims db entry.1 entry.2))
    unfold reclaimJob
    dsimp only
    split <;> exact .intro _ _ _ _ (Autonomy.charges_logged rfl)

theorem writeOutcome_administers (db : Db) (j : JobId) (job : Job) (result : OperatorResult)
    (seen : JobStatus) (cycleSeen : Option CycleStatus) (runSeen : Option RunStatus) :
    Administers db (Worker.writeOutcome db j job result seen cycleSeen runSeen) := by
  have hpatched : Administers db (applyStatePatch db job result cycleSeen) := by
    unfold applyStatePatch
    split
    · exact .intro _ _ _ _ (Autonomy.charges_logged rfl)
    · exact .refl db
  have hmarked (error : String) : Administers db (markExecutionJobFailed db job error runSeen) := by
    unfold markExecutionJobFailed
    split
    · split
      · exact .refl db
      · exact .intro _ _ _ _ (Autonomy.charges_logged rfl)
    · exact .refl db
  unfold Worker.writeOutcome
  dsimp only
  split
  · split <;> exact hpatched.trans (.intro _ _ _ _ (Autonomy.charges_logged rfl))
  · exact (hmarked _).trans (.intro _ _ _ _ (Autonomy.charges_logged rfl))

theorem ensureRunning_administers (seen db : Db) (c : CycleId) :
    Administers db (ensureRunning seen db c) := by
  unfold ensureRunning
  split
  · exact .refl db
  · split <;> exact .intro _ _ _ _ rfl

theorem respond_actions {body : Request} {seen db new : Db} (h : Responds seen db body new) :
    new.actions = db.actions := by
  cases h with
  | startAnalysis c cycle moved hcycle hmoved | startRun spec row cycle moved _ _ _ hmoved
  | stopLoop c cycle moved hcycle hmoved =>
    rcases hmoved with ⟨-, rfl⟩ | ⟨-, rfl⟩ <;> rfl
  | resumeRun r run => exact (ensureRunning_administers seen _ run.cycleId).actions
  | retryRun r run => exact (ensureRunning_administers seen db run.cycleId).actions
  | _ => rfl

theorem respond_designs {body : Request} {seen db new : Db} (h : Responds seen db body new) :
    (∃ born, new.sessions = db.sessions ++ born) ∧
      ((∀ spec, body ≠ .startRun spec) ∧ new.specs = db.specs ∨
        ∃ spec, body = .startRun spec ∧ new.specs = Table.update db.specs spec fun old =>
          { old with status := .executing }) := by
  have kept {new : Db} (hbody : ∀ spec, body ≠ .startRun spec) (h : SameDesigns db new) :
      (∃ born, new.sessions = db.sessions ++ born) ∧
        ((∀ spec, body ≠ .startRun spec) ∧ new.specs = db.specs ∨
          ∃ spec, body = .startRun spec ∧ new.specs = Table.update db.specs spec fun old =>
            { old with status := .executing }) :=
    ⟨⟨[], by rw [h.1, List.append_nil]⟩, .inl ⟨hbody, h.2⟩⟩
  cases h with
  | startHypothesisSession => exact ⟨⟨_, rfl⟩, .inl ⟨nofun, rfl⟩⟩
  | startAnalysis c cycle moved hcycle hmoved =>
    rcases hmoved with ⟨-, rfl⟩ | ⟨-, rfl⟩ <;> exact kept nofun ⟨rfl, rfl⟩
  | startRun spec row cycle moved hspec hvalidated hcycle hmoved =>
    rcases hmoved with ⟨-, rfl⟩ | ⟨-, rfl⟩ <;>
      exact ⟨⟨[], (List.append_nil _).symm⟩, .inr ⟨spec, rfl, rfl⟩⟩
  | resumeRun r run => exact kept nofun (ensureRunning_administers seen _ run.cycleId).designs
  | retryRun r run => exact kept nofun (ensureRunning_administers seen db run.cycleId).designs
  | stopLoop c cycle moved hcycle hmoved =>
    rcases hmoved with ⟨-, rfl⟩ | ⟨-, rfl⟩ <;> exact kept nofun ⟨rfl, rfl⟩
  | _ => exact kept nofun ⟨rfl, rfl⟩

theorem step_designs (h : Step settings sys l sys') :
    (∃ born, sys'.db.sessions = sys.db.sessions ++ born) ∧
      ((∃ born, sys'.db.specs = sys.db.specs ++ born) ∨
        ∃ q spec, l = .respond q ∧ sys'.db.specs = Table.update sys.db.specs spec fun old =>
          { old with status := .executing }) := by
  have kept (h : SameDesigns sys.db sys'.db) :
      (∃ born, sys'.db.sessions = sys.db.sessions ++ born) ∧
        ((∃ born, sys'.db.specs = sys.db.specs ++ born) ∨
          ∃ q spec, l = .respond q ∧ sys'.db.specs = Table.update sys.db.specs spec fun old =>
            { old with status := .executing }) :=
    ⟨⟨[], by rw [h.1, List.append_nil]⟩, .inl ⟨[], by rw [h.2, List.append_nil]⟩⟩
  revert kept
  cases h with
  | exec w world j phase job txn =>
    exact fun _ => ⟨⟨[], (List.append_nil _).symm⟩, .inl ⟨txn.newSpecs, rfl⟩⟩
  | writeOutcome w j result seen cycleSeen runSeen job =>
    exact fun kept => kept (writeOutcome_administers ..).designs
  | writeStale w stale => exact fun kept => kept (reclaimStaleJobs_administers ..).designs
  | respond q body seen db hpc hanswer =>
    obtain ⟨hsessions, hspecs⟩ := respond_designs hanswer
    refine fun _ => ⟨hsessions, ?_⟩
    rcases hspecs with ⟨-, hspecs⟩ | ⟨spec, -, hspecs⟩
    · exact .inl ⟨[], by rw [List.append_nil]; exact hspecs⟩
    · exact .inr ⟨q, spec, rfl, hspecs⟩
  | _ => exact fun kept => kept ⟨rfl, rfl⟩

/-- Remediation actions are filed by operators. -/
theorem step_actions (h : Step settings sys l sys') : sys'.db.actions = sys.db.actions ∨
    ∃ w world j phase job txn next, l = .exec w world ∧ sys.workers w = .executing j phase ∧
      sys.db.jobs[j]? = some job ∧
      execute sys.db (operatorInput j job) phase world = (txn, next) ∧
      sys'.db.actions = sys.db.actions ++ txn.newActions := by
  cases h with
  | exec w world j phase job txn next hpc hj hout =>
    exact .inr ⟨w, world, j, phase, job, txn, next, rfl, hpc, hj, hout, rfl⟩
  | writeOutcome => exact .inl (writeOutcome_administers ..).actions
  | writeStale => exact .inl (reclaimStaleJobs_administers ..).actions
  | respond q body seen db hpc hanswer => exact .inl (respond_actions hanswer)
  | _ => exact .inl rfl

/-! ### Steps -/

theorem step_grows (h : Step settings sys l sys') : Grows sys.db sys'.db where
  cycles c cycle hc := by
    obtain ⟨new, hnew, hsame, -⟩ := step_cycle h hc
    exact ⟨new, hnew, hsame⟩
  jobs j job hj := by
    obtain ⟨new, hnew, hsame, -⟩ := step_row h hj
    exact ⟨new, hnew, hsame⟩
  runs r run hr := by
    obtain ⟨new, hnew, hsame, -⟩ := step_run h hr
    exact ⟨new, hnew, hsame⟩
  sessions s session hs := by
    obtain ⟨⟨born, hborn⟩, -⟩ := step_designs h
    rw [hborn]
    exact Table.getElem?_append_old hs
  specs s spec hs := by
    obtain ⟨-, ⟨born, hborn⟩ | ⟨-, k, -, hupdate⟩⟩ := step_designs h
    · refine ⟨spec, ?_, .refl spec⟩
      rw [hborn]
      exact Table.getElem?_append_old hs
    · rw [hupdate, Table.getElem?_update, hs]
      split
      · exact ⟨_, rfl, rfl⟩
      · exact ⟨spec, rfl, .refl spec⟩

/-- What an open request has read is an earlier database. -/
def ReadsPast (sys : Runtime) : Prop :=
  ∀ q body seen, sys.requests q = .opened body seen → Grows seen sys.db

theorem readsPast_step (hpast : ReadsPast sys) (h : Step settings sys l sys') : ReadsPast sys' := by
  intro q body seen hpc
  by_cases hl : l.request? = some q
  case neg =>
    rw [step_other_request h hl] at hpc
    exact (hpast q body seen hpc).trans (step_grows h)
  cases h with
  | receive q' body' =>
    obtain rfl := Option.some.inj hl
    rw [Runtime.moveRequest_requests, if_pos rfl] at hpc
    obtain ⟨-, rfl⟩ := RequestPc.opened.inj hpc
    exact .refl _
  | respond q' | reject q' | drop q' =>
    obtain rfl := Option.some.inj hl
    rw [Runtime.moveRequest_requests, if_pos rfl] at hpc
    exact absurd hpc nofun
  | _ => exact absurd hl nofun

end Synthetos
