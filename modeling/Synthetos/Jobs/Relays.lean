import Synthetos.Jobs.Outcomes

/-!
# Sessions handed on from job to job

The operators of a pipeline hand a session on: each commits what it did to the session together with
the job of the operator that follows.  Of a session only the row that says which operator is due
counts here.  What the operators compute is up to the pipelines.
-/

namespace Synthetos.Jobs

open Synthetos.Core Storage Lib Worker Api

variable {Row : Type}

/-- `loaded` is the row an operator under way has read, `reads` the row a worker has read to mark
its session failed, and `performed` lists the jobs whose operator committed. -/
structure Relay (Row : Type) where
  runtime : Runtime
  rows : List Row
  sessionOf : JobId → Option SessionId
  loaded : WorkerId → Option Row
  reads : WorkerId → Option Row
  performed : List JobId

/-- The session of a failed job, when its worker is about to read it. -/
def Relay.failedRow (sys : Relay Row) (w : WorkerId) : Option Row :=
  match sys.runtime.workers w with
  | .outcome j result _ =>
    if result.success then none else (sys.sessionOf j).bind fun s => sys.rows[s]?
  | _ => none

/-- The job rows after the operator of `j` returned: what it enqueued, and nothing else. -/
structure Returned (old : Runtime) (w : WorkerId) (j : JobId) (success : Bool) (born : List Job)
    (rt : Runtime) : Prop where
  jobs : rt.db.jobs = old.db.jobs ++ born
  events : rt.db.events = old.db.events
  requests : rt.requests = old.requests
  others : ∀ w', w' ≠ w → rt.workers w' = old.workers w'
  carries : ∃ result, rt.workers w = .returned j result ∧ result.success = success

/-- To the runtime, an operator of the type only enqueues the job that follows. -/
def PassesOn (type : JobType) : Prop :=
  ∀ db input phase world, input.jobType = type →
    handler db input phase world = relayOperator db input world

/-- Only the row of session `s` has changed. -/
structure Rewritten (rows rows' : List Row) (s : SessionId) (p : Row → Row → Prop) : Prop where
  length : rows'.length = rows.length
  others : ∀ t, s ≠ t → rows'[t]? = rows[t]?
  self : ∀ new, rows'[s]? = some new → ∃ old, rows[s]? = some old ∧ p old new

/-- A new job names session `s`. -/
def assign (sessionOf : JobId → Option SessionId) (last : JobId) (s : SessionId) :
    Option Job → JobId → Option SessionId
  | some _ => Function.update sessionOf last (some s)
  | none => sessionOf

/-- The steps of a pipeline whose job types satisfy `mine`; `due` is the type of the job that is due
for a session. -/
inductive Relays (settings : Settings) (mine : JobType → Prop) (due : Row → Option JobType)
    (sys : Relay Row) : Relay Row → Prop where
  | quiet (l : Label) (rt : Runtime) (loaded : WorkerId → Option Row)
      (hstep : Step settings sys.runtime l rt)
      (hexec : ∀ w world j phase job, l = .exec w world →
        sys.runtime.workers w = .executing j phase → sys.runtime.db.jobs[j]? = some job →
          ¬ mine job.jobType)
      (hread : ∀ w, l ≠ .readTarget w)
      (hwrite : ∀ w, l = .writeOutcome w → ∀ j result, Records (sys.runtime.workers w) j result →
        sys.sessionOf j = none ∨ sys.reads w = none)
      (hloaded : ∀ w row j phase, loaded w = some row → rt.workers w = .executing j phase →
        sys.loaded w = some row ∧ ∃ phase, sys.runtime.workers w = .executing j phase) :
      Relays settings mine due sys { sys with runtime := rt, loaded := loaded }
  | load (w : WorkerId) (j : JobId) (phase : Phase) (s : SessionId) (row : Row)
      (hpc : sys.runtime.workers w = .executing j phase) (hsession : sys.sessionOf j = some s)
      (hrow : sys.rows[s]? = some row) :
      Relays settings mine due sys { sys with loaded := Function.update sys.loaded w (some row) }
  | read (w : WorkerId) (rt : Runtime) (hstep : Step settings sys.runtime (.readTarget w) rt) :
      Relays settings mine due sys
        { sys with runtime := rt, reads := Function.update sys.reads w (sys.failedRow w) }
  | mark (w : WorkerId) (j : JobId) (result : OperatorResult) (s : SessionId) (row : Row)
      (rows : List Row) (rt : Runtime) (hstep : Step settings sys.runtime (.writeOutcome w) rt)
      (hr : Records (sys.runtime.workers w) j result) (hsession : sys.sessionOf j = some s)
      (hrow : sys.reads w = some row)
      (hrows : Rewritten sys.rows rows s fun old new =>
        due new = none ∨ due row = none ∧ due new = due old) :
      Relays settings mine due sys { sys with runtime := rt, rows := rows }
  | raised (w : WorkerId) (world : External) (j : JobId) (rt : Runtime)
      (hstep : Step settings sys.runtime (.exec w world) rt)
      (hreturned : Returned sys.runtime w j false [] rt) :
      Relays settings mine due sys { sys with runtime := rt }
  | committed (w : WorkerId) (world : External) (j : JobId) (phase : Phase) (job : Job)
      (s : SessionId) (rows : List Row) (success : Bool) (born : Option Job) (rt : Runtime)
      (hpc : sys.runtime.workers w = .executing j phase) (hj : sys.runtime.db.jobs[j]? = some job)
      (hsession : sys.sessionOf j = some s) (hstep : Step settings sys.runtime (.exec w world) rt)
      (hreturned : Returned sys.runtime w j success born.toList rt)
      (hborn : ∀ new, born = some new → mine new.jobType ∧ new.status = .pending)
      (hrows : Rewritten sys.rows rows s fun old new => due new = born.map Job.jobType ∨
        due new = due old ∧ ∃ row, sys.loaded w = some row ∧ due row ≠ some job.jobType) :
      Relays settings mine due sys
        { sys with
          runtime := rt, rows := rows, performed := sys.performed ++ [j]
          sessionOf := assign sys.sessionOf sys.runtime.db.jobs.length s born }
  | started (q : Nat) (rt : Runtime) (job : Job) (row : Row)
      (hstep : Step settings sys.runtime (.respond q) rt)
      (hjobs : rt.db.jobs = sys.runtime.db.jobs ++ [job])
      (hjob : mine job.jobType ∧ job.status = .pending) (hdue : due row = some job.jobType) :
      Relays settings mine due sys
        { sys with
          runtime := rt, rows := sys.rows ++ [row]
          sessionOf := Function.update sys.sessionOf sys.runtime.db.jobs.length
            (some sys.rows.length) }

/-- What the workers hold agrees with the tables. -/
structure Coherent (mine : JobType → Prop) (sys : Relay Row) : Prop where
  known : ∀ j s, sys.sessionOf j = some s → s < sys.rows.length ∧
    ∃ job, sys.runtime.db.jobs[j]? = some job ∧ mine job.jobType
  held : ∀ w j, (sys.runtime.workers w).job? = some j → j < sys.runtime.db.jobs.length
  carried : ∀ w j result s, result? (sys.runtime.workers w) = some (j, result) →
    result.success = true → sys.sessionOf j = some s → j ∈ sys.performed
  reads : ∀ w j result s, Records (sys.runtime.workers w) j result → sys.sessionOf j = some s →
    if result.success then sys.reads w = none else ∃ row, sys.reads w = some row
  completed : ∀ j s job, sys.sessionOf j = some s → sys.runtime.db.jobs[j]? = some job →
    job.status = .completed → j ∈ sys.performed
  performed : ∀ j ∈ sys.performed, j < sys.runtime.db.jobs.length

/-- The job that session `s` waits for.  The job may have been cancelled or paused; it is failed
only if a recovery pass gave it up. -/
structure Awaits (due : Row → Option JobType) (sys : Relay Row) (s : SessionId) (type : JobType)
    (j : JobId) : Prop where
  session : sys.sessionOf j = some s
  row : ∃ job, sys.runtime.db.jobs[j]? = some job ∧ job.jobType = type
  fresh : j ∉ sys.performed
  failed : ∀ job, sys.runtime.db.jobs[j]? = some job → job.status = .failed →
    ∃ count, .jobReclaimExhausted j count ∈ sys.runtime.db.events
  marked : ∀ w result row, Records (sys.runtime.workers w) j result → result.success = false →
    sys.reads w = some row → due row ≠ none
  loaded : ∀ w phase row, sys.runtime.workers w = .executing j phase → sys.loaded w = some row →
    due row = some type

def Waits (due : Row → Option JobType) (sys : Relay Row) : Prop :=
  ∀ (s : SessionId) (row : Row) (type : JobType), sys.rows[s]? = some row → due row = some type →
    ∃ j, Awaits due sys s type j

/-- At most one job of a session has not committed. -/
def Single (sys : Relay Row) : Prop :=
  ∀ (s : SessionId) (j k : JobId), sys.sessionOf j = some s → sys.sessionOf k = some s →
    j ∉ sys.performed → k ∉ sys.performed → j = k

structure Relay.Initial (sys : Relay Row) : Prop where
  runtime : sys.runtime.Initial
  rows : sys.rows = []
  sessionOf : ∀ j, sys.sessionOf j = none
  performed : sys.performed = []

variable {settings : Settings} {mine : JobType → Prop} {due : Row → Option JobType}
  {sys sys' : Relay Row} {s t : SessionId} {j k : JobId} {w : WorkerId} {type : JobType}
  {rows rows' : List Row} {p : Row → Row → Prop} {job : Job}

/-- The row of `s` is a part of a larger row that is rewritten. -/
theorem rewritten_of_update {Large : Type} {table : List Large} {f : Large → Row}
    {g : Large → Large} (h : ∀ old, table[s]? = some old → p (f old) (f (g old))) :
    Rewritten (table.map f) ((Table.update table s g).map f) s p where
  length := by simp
  others t hne := by rw [List.getElem?_map, List.getElem?_map, Table.getElem?_update_ne hne]
  self new hnew := by
    rw [List.getElem?_map, Table.getElem?_update_self, Option.map_map] at hnew
    obtain ⟨old, hold, rfl⟩ := Option.map_eq_some_iff.mp hnew
    exact ⟨f old, by rw [List.getElem?_map, hold]; rfl, h old hold⟩

/-! ### The operators as the runtime sees them -/

section Execute

variable {old rt : Runtime} {phase : Phase} {outcome : Except String Unit} {e : String}

theorem exec_returned {born : List Job} (result : OperatorResult)
    (hpc : old.workers w = .executing j phase) (hj : old.db.jobs[j]? = some job)
    (h : Runtime.step settings old (.exec w { relay := outcome }) = some rt)
    (hout : execute old.db (operatorInput j job) phase { relay := outcome } =
      ({ newJobs := born }, .finish result)) :
    Step settings old (.exec w { relay := outcome }) rt ∧
      Returned old w j result.success born rt := by
  have hstep := step_cases h
  obtain rfl := step_exec hstep hpc hj hout
  refine ⟨hstep, ?_, ?_, rfl, fun w' hw' => ?_, result, Runtime.moveWorker_self .., rfl⟩
  · simp [Db.pauseJobRow]
  · simp
  · rw [Runtime.moveWorker_workers, if_neg hw']

theorem exec_raised (htype : PassesOn job.jobType) (hpc : old.workers w = .executing j phase)
    (hj : old.db.jobs[j]? = some job)
    (h : Runtime.step settings old (.exec w { relay := .error e }) = some rt) :
    Step settings old (.exec w { relay := .error e }) rt ∧ Returned old w j false [] rt := by
  refine exec_returned (.failure s!"Handler for '{job.jobType.value}' raised: {e}") hpc hj h ?_
  unfold execute
  rw [htype old.db (operatorInput j job) phase _ rfl]
  rfl

theorem exec_passed (htype : PassesOn job.jobType) (hpc : old.workers w = .executing j phase)
    (hj : old.db.jobs[j]? = some job)
    (h : Runtime.step settings old (.exec w { relay := .ok () }) = some rt) :
    Step settings old (.exec w { relay := .ok () }) rt ∧
      Returned old w j true ((relayOf job.jobType).1.toList.map fun next =>
        createJob old.db job.cycleId next job.payload 10) rt := by
  refine exec_returned { success := true, statePatch := (relayOf job.jobType).2 } hpc hj h ?_
  unfold execute
  rw [htype old.db (operatorInput j job) phase _ rfl]
  rfl

end Execute

/-! ### What a step does -/

theorem Relays.step (h : Relays settings mine due sys sys') :
    sys'.runtime = sys.runtime ∨ ∃ l, Step settings sys.runtime l sys'.runtime := by
  cases h with
  | load => exact .inl rfl
  | quiet l rt loaded hstep => exact .inr ⟨l, hstep⟩
  | read w rt hstep => exact .inr ⟨_, hstep⟩
  | mark w j result s row rows rt hstep => exact .inr ⟨_, hstep⟩
  | raised w world j rt hstep => exact .inr ⟨_, hstep⟩
  | committed w world j phase job s rows success born rt hpc hj hsession hstep =>
    exact .inr ⟨_, hstep⟩
  | started q rt job row hstep => exact .inr ⟨_, hstep⟩

theorem jobs_length_le {old new : Runtime} {l : Label} (h : Step settings old l new) :
    old.db.jobs.length ≤ new.db.jobs.length := by
  by_contra hlt
  have hinside : new.db.jobs.length < old.db.jobs.length := by omega
  obtain ⟨row, hrow, -⟩ := step_row h (List.getElem?_eq_getElem hinside)
  exact absurd (Table.lt_length_of_getElem? hrow) (lt_irrefl _)

theorem Relays.length_le (h : Relays settings mine due sys sys') :
    sys.runtime.db.jobs.length ≤ sys'.runtime.db.jobs.length := by
  rcases h.step with hsame | ⟨l, hstep⟩
  · rw [hsame]
  · exact jobs_length_le hstep

theorem Relays.typed (h : Relays settings mine due sys sys')
    (hj : sys.runtime.db.jobs[j]? = some job) :
    ∃ new, sys'.runtime.db.jobs[j]? = some new ∧ new.jobType = job.jobType := by
  rcases h.step with hsame | ⟨l, hstep⟩
  · exact ⟨job, by rwa [hsame], rfl⟩
  · obtain ⟨new, hnew, hkept, -⟩ := step_row hstep hj
    exact ⟨new, hnew, hkept.type⟩

theorem Relays.rows_length_le (h : Relays settings mine due sys sys') :
    sys.rows.length ≤ sys'.rows.length := by
  cases h with
  | quiet | load | read | raised => exact le_rfl
  | mark w j result s row rows rt hstep hr hsession hrow hrows => exact hrows.length.ge
  | committed w world j phase job s rows success born rt hpc hj hsession hstep hreturned hborn
      hrows => exact hrows.length.ge
  | started => simp

theorem Relays.performed_sublist (h : Relays settings mine due sys sys') :
    sys.performed.Sublist sys'.performed := by
  cases h with
  | committed => exact List.sublist_append_left ..
  | _ => exact .refl _

theorem Relays.performed_mono (h : Relays settings mine due sys sys') (hj : j ∈ sys.performed) :
    j ∈ sys'.performed :=
  h.performed_sublist.subset hj

theorem Relays.performed_new (h : Relays settings mine due sys sys') (hj : j ∈ sys'.performed) :
    j ∈ sys.performed ∨ j < sys.runtime.db.jobs.length := by
  cases h with
  | committed w world k phase job s rows success born rt hpc hk =>
    rcases List.mem_append.mp hj with hold | hnew
    · exact .inl hold
    · obtain rfl := List.mem_singleton.mp hnew
      exact .inr (Table.lt_length_of_getElem? hk)
  | _ => exact .inl hj

/-- A job that gets a session is new, pending, and one of the pipeline. -/
structure BornFor (mine : JobType → Prop) (sys sys' : Relay Row) (j : JobId) (s : SessionId) : Prop
    where
  last : j = sys.runtime.db.jobs.length
  session : s < sys'.rows.length
  row : ∃ job, sys'.runtime.db.jobs[j]? = some job ∧ mine job.jobType ∧ job.status = .pending

theorem born_row {old new : Runtime} (h : new.db.jobs = old.db.jobs ++ [job]) :
    new.db.jobs[old.db.jobs.length]? = some job := by
  rw [h, List.getElem?_concat_length]

theorem Relays.sessionOf_new (h : Relays settings mine due sys sys')
    (hinv : Coherent mine sys) (hs : sys'.sessionOf j = some s) :
    sys.sessionOf j = some s ∨ BornFor mine sys sys' j s := by
  cases h with
  | quiet | load | read | mark | raised => exact .inl hs
  | committed w world k phase job t rows success born rt hpc hk hsession hstep hreturned hborn
      hrows =>
    cases born with
    | none => exact .inl hs
    | some new =>
      simp only [assign, Function.update_apply] at hs
      split at hs
      · rename_i hlast
        obtain rfl := Option.some.inj hs
        subst hlast
        exact .inr ⟨rfl, lt_of_lt_of_eq (hinv.known k t hsession).1 hrows.length.symm, new,
          born_row hreturned.jobs, hborn new rfl⟩
      · exact .inl hs
  | started q rt new row hstep hjobs hjob hdue =>
    simp only [Function.update_apply] at hs
    split at hs
    · rename_i hlast
      obtain rfl := Option.some.inj hs
      subst hlast
      exact .inr ⟨rfl, by simp, new, born_row hjobs, hjob⟩
    · exact .inl hs

theorem Relays.sessionOf_kept (h : Relays settings mine due sys sys')
    (hinv : Coherent mine sys) (hs : sys.sessionOf j = some s) : sys'.sessionOf j = some s := by
  have hne : j ≠ sys.runtime.db.jobs.length := by
    obtain ⟨-, job, hj, -⟩ := hinv.known j s hs
    exact Nat.ne_of_lt (Table.lt_length_of_getElem? hj)
  cases h with
  | quiet | load | read | mark | raised => exact hs
  | committed w world k phase job t rows success born rt hpc hk hsession hstep hreturned hborn
      hrows =>
    cases born with
    | none => exact hs
    | some new => exact (Function.update_of_ne hne ..).trans hs
  | started => exact (Function.update_of_ne hne ..).trans hs

/-- A successful result comes from an operator that committed. -/
theorem Relays.result_new {result : OperatorResult} (h : Relays settings mine due sys sys')
    (hinv : Coherent mine sys) (hr : result? (sys'.runtime.workers w) = some (j, result))
    (hok : result.success = true) (hs : sys.sessionOf j = some s) :
    result? (sys.runtime.workers w) = some (j, result) ∨ j ∈ sys'.performed := by
  have returned {w' : WorkerId} {k : JobId} {success : Bool} {born : List Job} {rt : Runtime}
      (hreturned : Returned sys.runtime w' k success born rt)
      (hr : result? (rt.workers w) = some (j, result)) :
      result? (sys.runtime.workers w) = some (j, result) ∨ k = j ∧ success = true := by
    by_cases hw : w = w'
    · subst hw
      obtain ⟨result', hpc, hsuccess⟩ := hreturned.carries
      rw [hpc] at hr
      obtain ⟨rfl, rfl⟩ := Prod.mk.inj (Option.some.inj hr)
      exact .inr ⟨rfl, hsuccess.symm.trans hok⟩
    · rw [hreturned.others w hw] at hr
      exact .inl hr
  cases h with
  | load => exact .inl hr
  | quiet l rt loaded hstep hexec =>
    refine (step_result hstep hr).imp_right ?_
    rintro ⟨world, phase, hl, hpc⟩
    obtain ⟨-, job, hj, hmine⟩ := hinv.known j s hs
    exact absurd hmine (hexec w world j phase job hl hpc hj)
  | read w' rt hstep | mark w' k result' t row rows rt hstep =>
    refine (step_result hstep hr).imp_right ?_
    rintro ⟨world, phase, hl, -⟩
    exact absurd hl nofun
  | started q rt job row hstep =>
    refine (step_result hstep hr).imp_right ?_
    rintro ⟨world, phase, hl, -⟩
    exact absurd hl nofun
  | raised w' world k rt hstep hreturned =>
    exact (returned hreturned hr).imp_right fun h => absurd h.2 nofun
  | committed w' world k phase job t rows success born rt hpc hk hsession hstep hreturned =>
    refine (returned hreturned hr).imp_right ?_
    rintro ⟨rfl, -⟩
    exact List.mem_append_right _ (List.mem_singleton_self k)

/-- An outcome that is about to be written was about to be written before, with the same session row
read, or that row has just been read. -/
theorem Relays.records_new {result : OperatorResult} (h : Relays settings mine due sys sys')
    (hr : Records (sys'.runtime.workers w) j result) :
    (Records (sys.runtime.workers w) j result ∧ sys'.reads w = sys.reads w) ∨
      (∃ seen, sys.runtime.workers w = .outcome j result seen) ∧
        sys'.reads w = sys.failedRow w := by
  have kept {l : Label} (hstep : Step settings sys.runtime l sys'.runtime)
      (hl : l ≠ .readTarget w) (hreads : sys'.reads w = sys.reads w) :
      (Records (sys.runtime.workers w) j result ∧ sys'.reads w = sys.reads w) ∨
        (∃ seen, sys.runtime.workers w = .outcome j result seen) ∧
          sys'.reads w = sys.failedRow w := by
    rcases step_records hstep hr with hold | ⟨htarget, -⟩
    · exact .inl ⟨hold, hreads⟩
    · exact absurd htarget hl
  cases h with
  | load => exact .inl ⟨hr, rfl⟩
  | quiet l rt loaded hstep hexec hread => exact kept hstep (hread w) rfl
  | read w' rt hstep =>
    by_cases hw : w = w'
    · subst hw
      exact .inr ⟨readTarget_records hstep hr, Function.update_self ..⟩
    · refine kept hstep ?_ (Function.update_of_ne hw ..)
      intro hl
      exact hw (Label.readTarget.inj hl).symm
  | mark w' k result' t row rows rt hstep => exact kept hstep nofun rfl
  | raised w' world k rt hstep => exact kept hstep nofun rfl
  | committed w' world k phase job t rows success born rt hpc hk hsession hstep =>
    exact kept hstep nofun rfl
  | started q rt job row hstep => exact kept hstep nofun rfl

/-- A worker that executes an operator was executing it before, or has just started. -/
theorem step_executing {old new : Runtime} {l : Label} {phase : Phase}
    (h : Step settings old l new) (hpc : new.workers w = .executing j phase) :
    (∃ phase, old.workers w = .executing j phase) ∨ l = .start w := by
  by_cases hl : l.worker? = some w
  case neg =>
    rw [step_other_worker h hl] at hpc
    exact .inl ⟨phase, hpc⟩
  cases h with
  | tick | receive | respond | reject | drop => exact absurd hl nofun
  | heartbeat => exact .inl ⟨phase, hpc⟩
  | start w' =>
    obtain rfl := Option.some.inj hl
    exact .inr rfl
  | exec w' world k phase' job txn next hold =>
    obtain rfl := Option.some.inj hl
    rw [Runtime.moveWorker_self] at hpc
    cases next with
    | finish => exact absurd hpc nofun
    | suspend =>
      obtain ⟨rfl, -⟩ := WorkerPc.executing.inj hpc
      exact .inl ⟨phase', hold⟩
  | claim w' | acknowledge w' | readOutcome w' | readFailure w' | readNoPatch w' | readPatch w'
  | raisePatch w' | writeOutcome w' | crash w' | readStale w' | writeStale w' =>
    obtain rfl := Option.some.inj hl
    rw [Runtime.moveWorker_self] at hpc
    exact absurd hpc nofun

/-! ### The invariants -/

theorem failedRow_outcome {result : OperatorResult} {seen : JobStatus}
    (hinv : Coherent mine sys) (hpc : sys.runtime.workers w = .outcome j result seen)
    (hs : sys.sessionOf j = some s) :
    if result.success then sys.failedRow w = none
    else ∃ row, sys.rows[s]? = some row ∧ sys.failedRow w = some row := by
  unfold Relay.failedRow
  rw [hpc]
  dsimp only
  split
  · rfl
  · have hrow := List.getElem?_eq_getElem (hinv.known j s hs).1
    exact ⟨_, hrow, by rw [hs]; exact hrow⟩

theorem result_job? {pc : WorkerPc} {result : OperatorResult}
    (h : result? pc = some (j, result)) : pc.job? = some j := by
  cases pc <;> simp_all [result?, WorkerPc.job?]

theorem Relays.held (h : Relays settings mine due sys sys') (hinv : Coherent mine sys)
    (hw : (sys'.runtime.workers w).job? = some j) : j < sys'.runtime.db.jobs.length := by
  rcases h.step with hsame | ⟨l, hstep⟩
  · rw [hsame] at hw ⊢
    exact hinv.held w j hw
  · apply Nat.lt_of_lt_of_le _ (jobs_length_le hstep)
    rcases step_job? hstep hw with hheld | ⟨locked, -, hj, -⟩
    · exact hinv.held w j hheld
    · obtain ⟨job, hrow, -⟩ := nextJob_pending _ _ hj
      exact Table.lt_length_of_getElem? hrow

theorem BornFor.uncarried {result : OperatorResult} (h : Relays settings mine due sys sys')
    (hinv : Coherent mine sys) (hborn : BornFor mine sys sys' j s)
    (hr : result? (sys'.runtime.workers w) = some (j, result)) : False := by
  have unheld (hw : (sys.runtime.workers w).job? = some j) : False :=
    absurd hborn.last (Nat.ne_of_lt (hinv.held w j hw))
  rcases h.step with hsame | ⟨l, hstep⟩
  · rw [hsame] at hr
    exact unheld (result_job? hr)
  · rcases step_result hstep hr with hbefore | ⟨world, phase, -, hpc⟩
    · exact unheld (result_job? hbefore)
    · exact unheld (by rw [hpc]; rfl)

theorem Relays.completed (h : Relays settings mine due sys sys') (hinv : Coherent mine sys)
    (hs : sys.sessionOf j = some s) (hj : sys'.runtime.db.jobs[j]? = some job)
    (hcompleted : job.status = .completed) : j ∈ sys.performed := by
  obtain ⟨-, old, hold, -⟩ := hinv.known j s hs
  rcases h.step with hsame | ⟨l, hstep⟩
  · rw [hsame] at hj
    exact hinv.completed j s job hs hj hcompleted
  · rcases step_completed hstep hold hj hcompleted with hdone | ⟨w, result, hrecords, hok⟩
    · exact hinv.completed j s old hs hold hdone
    · exact hinv.carried w j result s hrecords.result? hok hs

theorem coherent_step (hinv : Coherent mine sys) (h : Relays settings mine due sys sys') :
    Coherent mine sys' := by
  -- a job that is held is not the one born in this step
  have older {j : JobId} {s : SessionId} (hlt : j < sys.runtime.db.jobs.length)
      (hs : sys'.sessionOf j = some s) : sys.sessionOf j = some s := by
    rcases h.sessionOf_new hinv hs with hold | hborn
    · exact hold
    · exact absurd hborn.last (Nat.ne_of_lt hlt)
  refine ⟨fun j s hs => ?_, fun w j => h.held hinv, fun w j result s hr hok hs => ?_,
    fun w j result s hr hs => ?_, fun j s new hs hj hnew => ?_, fun j hj => ?_⟩
  · rcases h.sessionOf_new hinv hs with hold | hborn
    · obtain ⟨hlt, job, hj, hmine⟩ := hinv.known j s hold
      obtain ⟨new, hnew, htype⟩ := h.typed hj
      exact ⟨Nat.lt_of_lt_of_le hlt h.rows_length_le, new, hnew, by rwa [htype]⟩
    · obtain ⟨job, hj, hmine, -⟩ := hborn.row
      exact ⟨hborn.session, job, hj, hmine⟩
  · rcases h.sessionOf_new hinv hs with hold | hborn
    · rcases h.result_new hinv hr hok hold with hbefore | hdone
      · exact h.performed_mono (hinv.carried w j result s hbefore hok hold)
      · exact hdone
    · exact (hborn.uncarried h hinv hr).elim
  · rcases h.records_new hr with ⟨hbefore, hreads⟩ | ⟨⟨seen, hpc⟩, hreads⟩
    · rw [hreads]
      exact hinv.reads w j result s hbefore (older (hinv.held w j hbefore.job?) hs)
    · have hread := failedRow_outcome hinv hpc (older (hinv.held w j (by rw [hpc]; rfl)) hs)
      rw [hreads]
      split at hread
      · rwa [if_pos ‹_›]
      · obtain ⟨row, -, hrow⟩ := hread
        rw [if_neg ‹_›]
        exact ⟨row, hrow⟩
  · rcases h.sessionOf_new hinv hs with hold | hborn
    · exact h.performed_mono (h.completed hinv hold hj hnew)
    · obtain ⟨job, hrow, -, hpending⟩ := hborn.row
      obtain rfl := Option.some.inj (hrow.symm.trans hj)
      exact absurd (hpending.symm.trans hnew) nofun
  · apply Nat.lt_of_lt_of_le _ h.length_le
    rcases h.performed_new hj with hold | hlt
    · exact hinv.performed j hold
    · exact hlt

/-! ### The job that is due -/

/-- What a step does to the rows that operators under way have loaded. -/
theorem Relays.loaded_new {row : Row} {phase : Phase} (h : Relays settings mine due sys sys')
    (hpc : sys'.runtime.workers w = .executing j phase) (hrow : sys'.loaded w = some row)
    (hs : sys.sessionOf j = some s) :
    (sys.loaded w = some row ∧ ∃ phase, sys.runtime.workers w = .executing j phase) ∨
      sys.rows[s]? = some row := by
  have kept {l : Label} (hstep : Step settings sys.runtime l sys'.runtime)
      (hl : ∀ w, l ≠ .start w) (hloaded : sys'.loaded = sys.loaded) :
      (sys.loaded w = some row ∧ ∃ phase, sys.runtime.workers w = .executing j phase) ∨
        sys.rows[s]? = some row := by
    rcases step_executing hstep hpc with hold | hstart
    · exact .inl ⟨by rwa [← hloaded], hold⟩
    · exact absurd hstart (hl w)
  cases h with
  | quiet l rt loaded hstep hexec hread hwrite hloaded => exact .inl (hloaded w row j phase hrow hpc)
  | load w' k phase' t found hk hsession hfound =>
    by_cases hw : w = w'
    · subst hw
      dsimp only at hrow
      rw [Function.update_self] at hrow
      obtain rfl := Option.some.inj hrow
      obtain ⟨rfl, -⟩ := WorkerPc.executing.inj (hpc.symm.trans hk)
      obtain rfl := Option.some.inj (hs.symm.trans hsession)
      exact .inr hfound
    · exact .inl ⟨(Function.update_of_ne hw ..).symm.trans hrow, phase, hpc⟩
  | read w' rt hstep => exact kept hstep nofun rfl
  | mark w' k result t found rows rt hstep => exact kept hstep nofun rfl
  | raised w' world k rt hstep => exact kept hstep nofun rfl
  | committed w' world k phase' job t rows success born rt hk hj hsession hstep =>
    exact kept hstep nofun rfl
  | started q rt job found hstep => exact kept hstep nofun rfl

/-- The step writes no failure for job `j`. -/
def Spares (settings : Settings) (sys sys' : Relay Row) (j : JobId) : Prop :=
  sys'.runtime = sys.runtime ∨ ∃ l, Step settings sys.runtime l sys'.runtime ∧
    ∀ w result, l = .writeOutcome w → Records (sys.runtime.workers w) j result →
      result.success = true

/-- The job waited for stays so while it does not commit and no failure is written for it. -/
theorem Awaits.keep {row : Row} (h : Relays settings mine due sys sys')
    (hinv : Coherent mine sys) (hawaits : Awaits due sys s type j)
    (hrow : sys.rows[s]? = some row) (hdue : due row = some type) (hfresh : j ∉ sys'.performed)
    (hspares : Spares settings sys sys' j) : Awaits due sys' s type j := by
  obtain ⟨job, hj, htype⟩ := hawaits.row
  obtain ⟨now, hnow, hkept⟩ := h.typed hj
  refine ⟨h.sessionOf_kept hinv hawaits.session, ⟨now, hnow, hkept.trans htype⟩, hfresh,
    fun new hnew hfailed => ?_, fun w result found hr hfails hfound => ?_,
    fun w phase found hpc hfound => ?_⟩
  · rcases hspares with hsame | ⟨l, hstep, hwritten⟩
    · rw [hsame] at hnew ⊢
      exact hawaits.failed new hnew hfailed
    · rcases step_failed hstep hj hnew hfailed with hbefore | hgiven | ⟨w, result, hl, hr, hfails⟩
      · obtain ⟨count, hcount⟩ := hawaits.failed job hj hbefore
        exact ⟨count, (step_logs hstep).subset hcount⟩
      · exact hgiven
      · exact absurd (hwritten w result hl hr) (by simp [hfails])
  · rcases h.records_new hr with ⟨hbefore, hreads⟩ | ⟨⟨seen, hpc⟩, hreads⟩
    · exact hawaits.marked w result found hbefore hfails (hreads.symm.trans hfound)
    · have hread := failedRow_outcome hinv hpc hawaits.session
      rw [if_neg (by simp [hfails])] at hread
      obtain ⟨current, hcurrent, hsame⟩ := hread
      obtain rfl := Option.some.inj (hrow.symm.trans hcurrent)
      obtain rfl := Option.some.inj (hsame.symm.trans (hreads.symm.trans hfound))
      rw [hdue]
      exact Option.some_ne_none type
  · rcases h.loaded_new hpc hfound hawaits.session with ⟨hold, phase', hexecuting⟩ | hcurrent
    · exact hawaits.loaded w phase' found hexecuting hold
    · obtain rfl := Option.some.inj (hrow.symm.trans hcurrent)
      exact hdue

/-- A job that was just enqueued for a session is one it waits for. -/
theorem BornFor.awaits (h : Relays settings mine due sys sys') (hinv : Coherent mine sys)
    (hborn : BornFor mine sys sys' j s) (hsession : sys'.sessionOf j = some s)
    (hj : sys'.runtime.db.jobs[j]? = some job) (htype : job.jobType = type)
    (hpending : job.status = .pending) : Awaits due sys' s type j where
  session := hsession
  row := ⟨job, hj, htype⟩
  fresh hmem := by
    rcases h.performed_new hmem with hold | hlt
    · exact absurd hborn.last (Nat.ne_of_lt (hinv.performed j hold))
    · exact absurd hborn.last (Nat.ne_of_lt hlt)
  failed new hnew hfailed := by
    obtain rfl := Option.some.inj (hj.symm.trans hnew)
    exact absurd (hpending.symm.trans hfailed) nofun
  marked w result row hr _ _ := (hborn.uncarried h hinv hr.result?).elim
  loaded w phase row hpc _ := by
    rcases h.step with hsame | ⟨l, hstep⟩
    · rw [hsame] at hpc
      exact absurd hborn.last (Nat.ne_of_lt (hinv.held w j (by rw [hpc]; rfl)))
    · rcases step_executing hstep hpc with ⟨phase', hold⟩ | rfl
      · exact absurd hborn.last (Nat.ne_of_lt (hinv.held w j (by rw [hold]; rfl)))
      · have hjob : (sys'.runtime.workers w).job? = some j := by rw [hpc]; rfl
        rcases step_job? hstep hjob with hheld | ⟨locked, hl, -⟩
        · exact absurd hborn.last (Nat.ne_of_lt (hinv.held w j hheld))
        · exact absurd hl nofun

theorem waits_step (hinv : Coherent mine sys) (hwaits : Waits due sys)
    (h : Relays settings mine due sys sys') : Waits due sys' := by
  intro s row type hs hdue
  -- a session whose row stays due for the same job keeps the job it waits for
  have keeps {old : Row} (hold : sys.rows[s]? = some old) (hsame : due row = due old)
      (hfresh : ∀ j, Awaits due sys s type j → j ∉ sys'.performed)
      (hspares : ∀ j, Awaits due sys s type j → Spares settings sys sys' j) :
      ∃ j, Awaits due sys' s type j := by
    obtain ⟨j, hj⟩ := hwaits s old type hold (hsame.symm.trans hdue)
    exact ⟨j, hj.keep h hinv hold (hsame.symm.trans hdue) (hfresh j hj) (hspares j hj)⟩
  have spares {l : Label} (hstep : Step settings sys.runtime l sys'.runtime)
      (hl : ∀ w, l ≠ .writeOutcome w) (j : JobId) : Spares settings sys sys' j :=
    .inr ⟨l, hstep, fun w _ heq => absurd heq (hl w)⟩
  cases id h with
  | load => exact keeps hs rfl (fun j hj => hj.fresh) fun _ _ => .inl rfl
  | quiet l rt loaded hstep hexec hread hwrite =>
    refine keeps hs rfl (fun j hj => hj.fresh) fun j hj => .inr ⟨l, hstep, ?_⟩
    intro w result hl hr
    by_contra hfails
    have hrow := hinv.reads w j result s hr hj.session
    rw [if_neg hfails] at hrow
    obtain ⟨found, hfound⟩ := hrow
    rcases hwrite w hl j result hr with hnone | hnone
    · exact absurd (hj.session.symm.trans hnone) nofun
    · exact absurd (hfound.symm.trans hnone) nofun
  | read w rt hstep => exact keeps hs rfl (fun j hj => hj.fresh) fun j _ => spares hstep nofun j
  | raised w world k rt hstep =>
    exact keeps hs rfl (fun j hj => hj.fresh) fun j _ => spares hstep nofun j
  | mark w k result t found rows rt hstep hr hk hfound hrows =>
    by_cases hne : t = s
    · subst hne
      obtain ⟨old, hold, hdone | ⟨hseen, hsame⟩⟩ := hrows.self row hs
      · exact absurd (hdue.symm.trans hdone) nofun
      · refine keeps hold hsame (fun j hj => hj.fresh) fun j hj => .inr ⟨_, hstep, ?_⟩
        intro w' result' hl hr'
        obtain rfl := Label.writeOutcome.inj hl
        obtain ⟨rfl, rfl⟩ := hr.unique hr'
        by_contra hfails
        exact hj.marked w result found hr (by simpa using hfails) hfound hseen
    · refine keeps ((hrows.others s hne).symm.trans hs) rfl (fun j hj => hj.fresh) fun j hj =>
        .inr ⟨_, hstep, ?_⟩
      intro w' result' hl hr'
      obtain rfl := Label.writeOutcome.inj hl
      obtain ⟨rfl, -⟩ := hr.unique hr'
      exact absurd (Option.some.inj (hk.symm.trans hj.session)) hne
  | committed w world k phase job t rows success born rt hpc hk hsession hstep hreturned hborn
      hrows =>
    have fresh {j : JobId} (hj : Awaits due sys s type j) (hne : j ≠ k) :
        j ∉ sys.performed ++ [k] := by
      intro hmem
      rcases List.mem_append.mp hmem with hbefore | hlast
      · exact hj.fresh hbefore
      · exact hne (List.mem_singleton.mp hlast)
    by_cases hne : t = s
    · subst hne
      obtain ⟨old, hold, hmoved | ⟨hsame, found, hfound, hother⟩⟩ := hrows.self row hs
      · -- the operator that is due now has the job that was just enqueued
        rw [hdue] at hmoved
        obtain ⟨new, rfl, htype⟩ := Option.map_eq_some_iff.mp hmoved.symm
        have hlast := born_row hreturned.jobs
        obtain ⟨hmine, hpending⟩ := hborn new rfl
        refine ⟨sys.runtime.db.jobs.length, BornFor.awaits h hinv ⟨rfl, ?_, new, hlast, hmine,
          hpending⟩ (Function.update_self ..) hlast htype hpending⟩
        exact lt_of_lt_of_eq (hinv.known k t hsession).1 hrows.length.symm
      · -- the operator had seen its own work done, so the job waited for is another one
        refine keeps hold hsame (fun j hj => fresh hj ?_) fun j _ => spares hstep nofun j
        rintro rfl
        obtain ⟨current, hcurrent, htype⟩ := hj.row
        obtain rfl := Option.some.inj (hk.symm.trans hcurrent)
        exact hother ((hj.loaded w phase found hpc hfound).trans (congrArg some htype.symm))
    · refine keeps ((hrows.others s hne).symm.trans hs) rfl (fun j hj => fresh hj ?_)
        fun j _ => spares hstep nofun j
      rintro rfl
      exact hne (Option.some.inj (hsession.symm.trans hj.session))
  | started q rt job found hstep hjobs hjob hfound =>
    rcases Table.getElem?_append_singleton hs with hold | ⟨rfl, rfl⟩
    · exact keeps hold rfl (fun j hj => hj.fresh) fun j _ => spares hstep nofun j
    · obtain rfl := Option.some.inj (hfound.symm.trans hdue)
      have hlast := born_row hjobs
      exact ⟨sys.runtime.db.jobs.length, BornFor.awaits h hinv ⟨rfl, by simp, job, hlast, hjob⟩
        (Function.update_self ..) hlast rfl hjob.2⟩

/-- The job that is due is not completed, and it is failed only if a recovery pass gave it up. -/
theorem awaited_job {row : Row} (hinv : Coherent mine sys) (hwaits : Waits due sys)
    (hs : sys.rows[s]? = some row) (hdue : due row = some type) :
    ∃ (j : JobId) (job : Job), sys.sessionOf j = some s ∧ sys.runtime.db.jobs[j]? = some job ∧
      job.jobType = type ∧ j ∉ sys.performed ∧ job.status ≠ .completed ∧
      (job.status = .failed → ∃ count, .jobReclaimExhausted j count ∈ sys.runtime.db.events) := by
  obtain ⟨j, hj⟩ := hwaits s row type hs hdue
  obtain ⟨job, hjob, htype⟩ := hj.row
  exact ⟨j, job, hj.session, hjob, htype, hj.fresh,
    fun hcompleted => hj.fresh (hinv.completed j s job hj.session hjob hcompleted),
    hj.failed job hjob⟩

/-! ### One job at a time -/

/-- While no operator commits twice for one job, at most one job of a session is left. -/
theorem single_step (hinv : Coherent mine sys) (hbefore : sys.performed.Nodup → Single sys)
    (h : Relays settings mine due sys sys') (honce : sys'.performed.Nodup) : Single sys' := by
  have hsingle := hbefore (honce.sublist h.performed_sublist)
  have old {j : JobId} (hfresh : j ∉ sys'.performed) : j ∉ sys.performed :=
    fun hj => hfresh (h.performed_mono hj)
  intro s j k hj hk hjfresh hkfresh
  cases id h with
  | quiet | load | read | mark | raised => exact hsingle s j k hj hk hjfresh hkfresh
  | committed w world m phase job t rows success born rt hpc hm hsession =>
    -- a job of `t` that is left after the commit is the one just enqueued
    have last {i : JobId} (hi : assign sys.sessionOf sys.runtime.db.jobs.length t born i = some s)
        (hfresh : i ∉ sys.performed ++ [m]) :
        (t = s ∧ i = sys.runtime.db.jobs.length) ∨ (t ≠ s ∧ sys.sessionOf i = some s) := by
      have hnew : sys.sessionOf i = some s → t ≠ s := by
        rintro hi rfl
        have hm : m ∉ sys.performed := fun hm =>
          List.disjoint_of_nodup_append honce hm (List.mem_singleton_self m)
        have hsame := hsingle t i m hi hsession (old hfresh) hm
        exact hfresh (by simp [hsame])
      cases born with
      | none => exact .inr ⟨hnew hi, hi⟩
      | some new =>
        simp only [assign, Function.update_apply] at hi
        split at hi
        · exact .inl ⟨Option.some.inj hi, ‹_›⟩
        · exact .inr ⟨hnew hi, hi⟩
    rcases last hj hjfresh with ⟨hts, rfl⟩ | ⟨hts, hjold⟩
    · rcases last hk hkfresh with ⟨-, rfl⟩ | ⟨hts', -⟩
      · rfl
      · exact absurd hts hts'
    · rcases last hk hkfresh with ⟨hts', -⟩ | ⟨-, hkold⟩
      · exact absurd hts' hts
      · exact hsingle s j k hjold hkold (old hjfresh) (old hkfresh)
  | started q rt job found hstep hjobs =>
    have new {i : JobId} (hi : Function.update sys.sessionOf sys.runtime.db.jobs.length
        (some sys.rows.length) i = some s) :
        (s = sys.rows.length ∧ i = sys.runtime.db.jobs.length) ∨ sys.sessionOf i = some s := by
      rw [Function.update_apply] at hi
      split at hi
      · exact .inl ⟨(Option.some.inj hi).symm, ‹_›⟩
      · exact .inr hi
    rcases new hj with ⟨hs, rfl⟩ | hjold
    · rcases new hk with ⟨-, rfl⟩ | hkold
      · rfl
      · exact absurd hs (Nat.ne_of_lt (hinv.known k s hkold).1)
    · rcases new hk with ⟨hs, rfl⟩ | hkold
      · exact absurd hs (Nat.ne_of_lt (hinv.known j s hjold).1)
      · exact hsingle s j k hjold hkold hjfresh hkfresh

/-! ### Before the first request -/

theorem coherent_initial (h : sys.Initial) : Coherent mine sys where
  known j s hs := absurd ((h.sessionOf j).symm.trans hs) nofun
  held w j hw := by
    rw [h.runtime.workers] at hw
    exact absurd hw nofun
  carried w j result s hr _ _ := by
    rw [h.runtime.workers] at hr
    exact absurd hr nofun
  reads w j result s hr hs := absurd ((h.sessionOf j).symm.trans hs) nofun
  completed j s job hs := absurd ((h.sessionOf j).symm.trans hs) nofun
  performed j hj := by
    rw [h.performed] at hj
    exact absurd hj nofun

theorem waits_initial (h : sys.Initial) : Waits due sys := by
  intro s row type hs
  rw [h.rows] at hs
  exact absurd hs nofun

theorem single_initial (h : sys.Initial) : Single sys :=
  fun _ j _ hj => absurd ((h.sessionOf j).symm.trans hj) nofun

end Synthetos.Jobs
