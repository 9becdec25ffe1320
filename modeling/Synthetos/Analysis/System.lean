import Synthetos.Analysis.Session
import Synthetos.Jobs.Relays

/-!
# Analysis sessions in the running system

The tables of the analysis sessions beside the runtime.  To the runtime an analysis operator only
passes its session on to the next job; here it also reads and writes the rows of the session.  All
other steps are those of the runtime.
-/

namespace Synthetos.Analysis

open Synthetos.Core Lib Storage Worker

/-- `sessionOf` is the `analysis_session_id` of a job's payload, `errors` the error of the result a
worker carries and `reads` the session row it has read to mark it failed.  No step reads
`performed`: it lists the jobs whose operator committed. -/
structure System where
  runtime : Runtime
  store : AnalysisDb := {}
  sessionOf : JobId → Option SessionId := fun _ => none
  errors : WorkerId → String := fun _ => ""
  reads : WorkerId → Option AnalysisSession := fun _ => none
  performed : List JobId := []

/-- `POST /papers/{id}/analyze`; `triageStatus` is that of the paper the request finds. -/
structure StartRequest where
  paperCardId : Nat
  charterId : CharterId
  triageStatus : Option String
  budget : AnalysisBudget := .usual

/-- Only shortlisted or escalated papers can be analyzed. -/
def StartRequest.eligible (body : StartRequest) : Bool :=
  body.triageStatus == some "shortlisted" || body.triageStatus == some "escalated"

inductive Act where
  | runtime (label : Label)
  | operate (worker : WorkerId) (world : AnalysisWorld)
  | start (request : Nat) (body : StartRequest)

namespace System

def stageOf (sys : System) (j : JobId) : Option Stage :=
  sys.runtime.db.jobs[j]?.bind fun job => Stage.ofJobType? job.jobType

/-- The analysis job a worker is to execute. -/
def executing? (sys : System) (w : WorkerId) : Option (JobId × Stage) :=
  match sys.runtime.workers w with
  | .executing j _ => (sys.stageOf j).map fun stage => (j, stage)
  | _ => none

/-- The session of a failed analysis job, when the worker is about to read it. -/
def readSession (sys : System) (w : WorkerId) : Option AnalysisSession :=
  match sys.runtime.workers w with
  | .outcome j result _ =>
    if result.success then none
    else (sys.sessionOf j).bind fun s => sys.store.sessions[s]?.map SessionRows.analysis
  | _ => none

/-- `_mark_analysis_job_failed`, for the session row it read. -/
def markFailed (sys : System) (w : WorkerId) : AnalysisDb :=
  match sys.runtime.workers w with
  | .recording j _ _ _ _ =>
    match sys.sessionOf j, sys.reads w with
    | some s, some seen => sys.store.writeFailure s seen (sys.errors w)
    | _, _ => sys.store
  | _ => sys.store

def runtimeStep (settings : Settings) (sys : System) (l : Label) : Option System :=
  let moved := Runtime.step settings sys.runtime l
  match l with
  | .exec w _ =>
    if (sys.executing? w).isSome then none else moved.map fun rt => { sys with runtime := rt }
  | .respond q =>
    match sys.runtime.requests q with
    | .opened (.startAnalysis _) _ => none
    | _ => moved.map fun rt => { sys with runtime := rt }
  | .readTarget w => moved.map fun rt =>
      { sys with runtime := rt, reads := Function.update sys.reads w (sys.readSession w) }
  | .writeOutcome w => moved.map fun rt => { sys with runtime := rt, store := sys.markFailed w }
  | _ => moved.map fun rt => { sys with runtime := rt }

/-- The result of an operator, as the runtime sees it: an error, or the job that follows. -/
def relayed (settings : Settings) (sys : System) (w : WorkerId) (outcome : Except String Unit) :
    Option Runtime :=
  Runtime.step settings sys.runtime (.exec w { relay := outcome })

/-- Execute the operator of an analysis job. -/
def operate (settings : Settings) (sys : System) (w : WorkerId) (world : AnalysisWorld) :
    Option System :=
  match sys.executing? w with
  | none => none
  | some (j, stage) =>
    let outcome : Except String (AnalysisDb × Option String) := match sys.sessionOf j with
      | none => .error s!"job {j} payload is missing required 'analysis_session_id'"
      | some s => sys.store.operate s stage world
    match outcome with
    | .error e => (sys.relayed settings w (.error e)).map fun rt =>
      { sys with
        runtime := rt
        errors := Function.update sys.errors w
          s!"Handler for '{stage.jobType.value}' raised: {e}" }
    | .ok (store, some e) => (sys.relayed settings w (.error e)).map fun rt =>
      { sys with
        runtime := rt
        store := store
        errors := Function.update sys.errors w e
        performed := sys.performed ++ [j] }
    | .ok (store, none) => (sys.relayed settings w (.ok ())).map fun rt =>
      { sys with
        runtime := rt
        store := store
        sessionOf := if (stage.done.due).isSome then
          Function.update sys.sessionOf sys.runtime.db.jobs.length (sys.sessionOf j)
          else sys.sessionOf
        performed := sys.performed ++ [j] }

/-- `start_analysis` -/
def start (sys : System) (q : Nat) (body : StartRequest) : Option System :=
  match sys.runtime.requests q with
  | .opened (.startAnalysis c) seen =>
    match if body.eligible then Api.startAnalysis seen sys.runtime.db c
      else .error s!"paper {body.paperCardId} cannot be analyzed" with
    | .ok db => some
      { sys with
        runtime := sys.runtime.moveRequest q db .idle
        store := sys.store.create
          { cycleId := c, charterId := body.charterId, paperCardId := body.paperCardId
            budget := body.budget }
        sessionOf := Function.update sys.sessionOf sys.runtime.db.jobs.length
          (some sys.store.sessions.length) }
    | .error _ => some { sys with runtime := sys.runtime.moveRequest q sys.runtime.db .idle }
  | _ => none

def step (settings : Settings) (sys : System) : Act → Option System
  | .runtime l => sys.runtimeStep settings l
  | .operate w world => sys.operate settings w world
  | .start q body => sys.start q body

/-- Before the first request. -/
structure Initial (sys : System) : Prop where
  runtime : sys.runtime.Initial
  store : sys.store = {}
  sessionOf : ∀ j, sys.sessionOf j = none
  performed : sys.performed = []

end System

/-! ### What a step can do -/

/-- The job rows after the operator of `j` returned: what it enqueued, and nothing else. -/
structure Returned (sys : System) (w : WorkerId) (j : JobId) (success : Bool) (born : List Job)
    (rt : Runtime) : Prop where
  jobs : rt.db.jobs = sys.runtime.db.jobs ++ born
  events : rt.db.events = sys.runtime.db.events
  requests : rt.requests = sys.runtime.requests
  others : ∀ w', w' ≠ w → rt.workers w' = sys.runtime.workers w'
  carries : ∃ result, rt.workers w = .returned j result ∧ result.success = success

/-- The steps of the system. -/
inductive Moves (settings : Settings) (sys : System) : Act → System → Prop where
  | quiet (l : Label) (rt : Runtime) (hstep : Step settings sys.runtime l rt)
      (hexec : ∀ w, (∃ world, l = .exec w world) → sys.executing? w = none)
      (hrespond : ∀ q, l = .respond q →
        ∀ c seen, sys.runtime.requests q ≠ .opened (.startAnalysis c) seen)
      (hread : ∀ w, l ≠ .readTarget w)
      (hwrite : ∀ w, l = .writeOutcome w → ∀ j result, Jobs.Records (sys.runtime.workers w) j result →
        sys.sessionOf j = none ∨ sys.reads w = none) :
      Moves settings sys (.runtime l) { sys with runtime := rt }
  | read (w : WorkerId) (rt : Runtime) (hstep : Step settings sys.runtime (.readTarget w) rt) :
      Moves settings sys (.runtime (.readTarget w))
        { sys with runtime := rt, reads := Function.update sys.reads w (sys.readSession w) }
  | mark (w : WorkerId) (j : JobId) (result : OperatorResult) (seen : JobStatus)
      (cycleSeen : Option CycleStatus) (runSeen : Option RunStatus) (s : SessionId)
      (row : AnalysisSession) (rt : Runtime)
      (hstep : Step settings sys.runtime (.writeOutcome w) rt)
      (hpc : sys.runtime.workers w = .recording j result seen cycleSeen runSeen)
      (hsession : sys.sessionOf j = some s) (hrow : sys.reads w = some row) :
      Moves settings sys (.runtime (.writeOutcome w))
        { sys with runtime := rt, store := sys.store.writeFailure s row (sys.errors w) }
  | raised (w : WorkerId) (world : AnalysisWorld) (j : JobId) (stage : Stage) (e : String)
      (rt : Runtime) (errors : WorkerId → String)
      (hexec : sys.executing? w = some (j, stage))
      (hstep : Step settings sys.runtime (.exec w { relay := .error e }) rt)
      (hreturned : Returned sys w j false [] rt) :
      Moves settings sys (.operate w world) { sys with runtime := rt, errors := errors }
  | failed (w : WorkerId) (world : AnalysisWorld) (j : JobId) (stage : Stage) (s : SessionId)
      (e : String) (rt : Runtime) (store : AnalysisDb) (errors : WorkerId → String)
      (hexec : sys.executing? w = some (j, stage)) (hsession : sys.sessionOf j = some s)
      (hout : sys.store.operate s stage world = .ok (store, some e))
      (hstep : Step settings sys.runtime (.exec w { relay := .error e }) rt)
      (hreturned : Returned sys w j false [] rt) :
      Moves settings sys (.operate w world)
        { sys with
          runtime := rt, store := store, errors := errors, performed := sys.performed ++ [j] }
  | passed (w : WorkerId) (world : AnalysisWorld) (j : JobId) (stage next : Stage)
      (s : SessionId) (rt : Runtime) (store : AnalysisDb) (job : Job)
      (hexec : sys.executing? w = some (j, stage)) (hsession : sys.sessionOf j = some s)
      (hnext : stage.done.due = some next)
      (hout : sys.store.operate s stage world = .ok (store, none))
      (hstep : Step settings sys.runtime (.exec w { relay := .ok () }) rt)
      (hjob : job.jobType = next.jobType ∧ job.status = .pending)
      (hreturned : Returned sys w j true [job] rt) :
      Moves settings sys (.operate w world)
        { sys with
          runtime := rt, store := store, performed := sys.performed ++ [j]
          sessionOf := Function.update sys.sessionOf sys.runtime.db.jobs.length (some s) }
  | finished (w : WorkerId) (world : AnalysisWorld) (j : JobId) (stage : Stage) (s : SessionId)
      (rt : Runtime) (store : AnalysisDb)
      (hexec : sys.executing? w = some (j, stage)) (hsession : sys.sessionOf j = some s)
      (hend : stage.done.due = none)
      (hout : sys.store.operate s stage world = .ok (store, none))
      (hstep : Step settings sys.runtime (.exec w { relay := .ok () }) rt)
      (hreturned : Returned sys w j true [] rt) :
      Moves settings sys (.operate w world)
        { sys with runtime := rt, store := store, performed := sys.performed ++ [j] }
  | started (q : Nat) (body : StartRequest) (c : CycleId) (seen : Db) (rt : Runtime) (job : Job)
      (hpc : sys.runtime.requests q = .opened (.startAnalysis c) seen)
      (hstep : Step settings sys.runtime (.respond q) rt)
      (hjobs : rt.db.jobs = sys.runtime.db.jobs ++ [job])
      (hjob : job.jobType = .analysisIngest ∧ job.status = .pending) :
      Moves settings sys (.start q body)
        { sys with
          runtime := rt
          store := sys.store.create
            { cycleId := c, charterId := body.charterId, paperCardId := body.paperCardId
              budget := body.budget }
          sessionOf := Function.update sys.sessionOf sys.runtime.db.jobs.length
            (some sys.store.sessions.length) }
  | refused (q : Nat) (body : StartRequest) :
      Moves settings sys (.start q body)
        { sys with runtime := sys.runtime.moveRequest q sys.runtime.db .idle }

variable {settings : Settings} {sys sys' : System} {w : WorkerId} {j : JobId} {stage : Stage}

theorem stageOf_eq_some : sys.stageOf j = some stage ↔
    ∃ job, sys.runtime.db.jobs[j]? = some job ∧ job.jobType = stage.jobType := by
  unfold System.stageOf
  rw [Option.bind_eq_some_iff]
  refine exists_congr fun job => and_congr_right fun _ => ?_
  cases job.jobType <;> cases stage <;> simp [Stage.ofJobType?, Stage.jobType]

theorem executing?_eq_some : sys.executing? w = some (j, stage) ↔
    (∃ phase, sys.runtime.workers w = .executing j phase) ∧ sys.stageOf j = some stage := by
  unfold System.executing?
  split
  · rename_i k phase hpc
    rw [hpc]
    simp only [Option.map_eq_some_iff, Prod.mk.injEq, WorkerPc.executing.injEq]
    constructor
    · rintro ⟨found, hfound, rfl, rfl⟩
      exact ⟨⟨phase, rfl, rfl⟩, hfound⟩
    · rintro ⟨⟨phase, rfl, -⟩, hfound⟩
      exact ⟨stage, hfound, rfl, rfl⟩
  · rename_i hpc
    exact ⟨nofun, fun ⟨⟨phase, h⟩, _⟩ => absurd h (hpc j phase)⟩

/-! ### The operator as the runtime sees it -/

theorem passesOn_stage (stage : Stage) : Jobs.PassesOn stage.jobType := by
  intro db input phase world htype
  unfold handler
  rw [htype]
  cases stage <;> rfl

theorem relayOf_stage (stage : Stage) :
    (relayOf stage.jobType).1 = stage.done.due.map Stage.jobType := by
  cases stage <;> rfl

theorem executing_job (h : sys.executing? w = some (j, stage)) :
    ∃ phase job, sys.runtime.workers w = .executing j phase ∧
      sys.runtime.db.jobs[j]? = some job ∧ job.jobType = stage.jobType := by
  obtain ⟨⟨phase, hpc⟩, hstage⟩ := executing?_eq_some.mp h
  obtain ⟨job, hj, htype⟩ := stageOf_eq_some.mp hstage
  exact ⟨phase, job, hpc, hj, htype⟩

theorem returned_relay {success : Bool} {born : List Job} {rt : Runtime} :
    Returned sys w j success born rt ↔ Jobs.Returned sys.runtime w j success born rt :=
  ⟨fun h => ⟨h.jobs, h.events, h.requests, h.others, h.carries⟩,
    fun h => ⟨h.jobs, h.events, h.requests, h.others, h.carries⟩⟩

theorem relayed_error {e : String} {rt : Runtime} (hexec : sys.executing? w = some (j, stage))
    (h : sys.relayed settings w (.error e) = some rt) :
    Step settings sys.runtime (.exec w { relay := .error e }) rt ∧ Returned sys w j false [] rt := by
  obtain ⟨phase, job, hpc, hj, htype⟩ := executing_job hexec
  obtain ⟨hstep, hreturned⟩ := Jobs.exec_raised (htype ▸ passesOn_stage stage) hpc hj h
  exact ⟨hstep, returned_relay.mpr hreturned⟩

theorem relayed_ok {rt : Runtime} (hexec : sys.executing? w = some (j, stage))
    (h : sys.relayed settings w (.ok ()) = some rt) :
    Step settings sys.runtime (.exec w { relay := .ok () }) rt ∧
      ∃ job : Job, Returned sys w j true (stage.done.due.toList.map fun next =>
        createJob sys.runtime.db job.cycleId next.jobType job.payload 10) rt := by
  obtain ⟨phase, job, hpc, hj, htype⟩ := executing_job hexec
  obtain ⟨hstep, hreturned⟩ := Jobs.exec_passed (htype ▸ passesOn_stage stage) hpc hj h
  rw [htype, relayOf_stage] at hreturned
  refine ⟨hstep, job, returned_relay.mpr ?_⟩
  cases hnext : stage.done.due <;> rwa [hnext] at hreturned

/-! ### The steps -/

theorem moves_writeOutcome {rt : Runtime} (h : Step settings sys.runtime (.writeOutcome w) rt) :
    Moves settings sys (.runtime (.writeOutcome w))
      { sys with runtime := rt, store := sys.markFailed w } := by
  have plain (hother : ∀ j result, Jobs.Records (sys.runtime.workers w) j result →
      sys.sessionOf j = none ∨ sys.reads w = none) :
      Moves settings sys (.runtime (.writeOutcome w)) { sys with runtime := rt } := by
    refine .quiet _ rt h (fun _ ⟨_, hl⟩ => nomatch hl) (fun _ hl => nomatch hl) nofun ?_
    rintro w' hl
    obtain rfl := Label.writeOutcome.inj hl
    exact hother
  unfold System.markFailed
  split
  · rename_i j result seen cycleSeen runSeen hpc
    split
    · rename_i s row hsession hrow
      exact .mark w j result seen cycleSeen runSeen s row rt h hpc hsession hrow
    · rename_i hother
      refine plain fun k result' hrecords => ?_
      obtain ⟨rfl, -⟩ := Jobs.Records.unique ⟨seen, cycleSeen, runSeen, hpc⟩ hrecords
      cases hsession : sys.sessionOf j with
      | none => exact .inl rfl
      | some s =>
        right
        exact Option.eq_none_iff_forall_ne_some.mpr fun row hrow => hother s row hsession hrow
  · rename_i hother
    refine plain fun j result hrecords => ?_
    obtain ⟨seen, cycleSeen, runSeen, hpc⟩ := hrecords
    exact absurd hpc (hother j result seen cycleSeen runSeen)

theorem moves_runtime {l : Label} (h : sys.runtimeStep settings l = some sys') :
    Moves settings sys (.runtime l) sys' := by
  have plain (hexec : ∀ w world, l ≠ .exec w world) (hrespond : ∀ q, l ≠ .respond q)
      (hread : ∀ w, l ≠ .readTarget w) (hwrite : ∀ w, l ≠ .writeOutcome w)
      (h : ((Runtime.step settings sys.runtime l).map fun rt => { sys with runtime := rt }) =
        some sys') : Moves settings sys (.runtime l) sys' := by
    obtain ⟨rt, hrt, rfl⟩ := Option.map_eq_some_iff.mp h
    exact .quiet _ rt (step_cases hrt) (fun w ⟨world, hl⟩ => absurd hl (hexec w world))
      (fun q hl => absurd hl (hrespond q)) hread (fun w hl => absurd hl (hwrite w))
  cases l with
  | exec w world =>
    change (if _ then none else _) = _ at h
    split at h
    · exact absurd h nofun
    · rename_i hexec
      obtain ⟨rt, hrt, rfl⟩ := Option.map_eq_some_iff.mp h
      refine .quiet _ rt (step_cases hrt) ?_ (fun _ hl => nomatch hl) nofun
        (fun _ hl => nomatch hl)
      rintro w' ⟨world', hl⟩
      obtain ⟨rfl, -⟩ := Label.exec.inj hl
      simpa using hexec
  | respond q =>
    change (match sys.runtime.requests q with
      | .opened (.startAnalysis _) _ => none
      | _ => _) = _ at h
    split at h
    · exact absurd h nofun
    · rename_i hother
      obtain ⟨rt, hrt, rfl⟩ := Option.map_eq_some_iff.mp h
      refine .quiet _ rt (step_cases hrt) (fun _ ⟨_, hl⟩ => nomatch hl) ?_ nofun
        (fun _ hl => nomatch hl)
      rintro q' hl c seen hpc
      obtain rfl := Label.respond.inj hl
      exact hother c seen hpc
  | readTarget w =>
    obtain ⟨rt, hrt, rfl⟩ := Option.map_eq_some_iff.mp h
    exact .read _ rt (step_cases hrt)
  | writeOutcome w =>
    obtain ⟨rt, hrt, rfl⟩ := Option.map_eq_some_iff.mp h
    exact moves_writeOutcome (step_cases hrt)
  | _ =>
    simp only [System.runtimeStep] at h
    exact plain (fun _ _ hl => nomatch hl) (fun _ hl => nomatch hl) (fun _ hl => nomatch hl)
      (fun _ hl => nomatch hl) h

theorem moves_operate {world : AnalysisWorld} (h : sys.operate settings w world = some sys') :
    Moves settings sys (.operate w world) sys' := by
  unfold System.operate at h
  split at h
  · exact absurd h nofun
  · rename_i j stage hexec
    dsimp only at h
    split at h
    · rename_i e _
      obtain ⟨rt, hrt, rfl⟩ := Option.map_eq_some_iff.mp h
      obtain ⟨hstep, hreturned⟩ := relayed_error hexec hrt
      exact .raised w world j stage e rt _ hexec hstep hreturned
    · rename_i store e hout
      obtain ⟨rt, hrt, rfl⟩ := Option.map_eq_some_iff.mp h
      obtain ⟨hstep, hreturned⟩ := relayed_error hexec hrt
      split at hout
      · exact absurd hout nofun
      · rename_i s hsession
        exact .failed w world j stage s e rt store _ hexec hsession hout hstep hreturned
    · rename_i store hout
      obtain ⟨rt, hrt, rfl⟩ := Option.map_eq_some_iff.mp h
      obtain ⟨hstep, job, hreturned⟩ := relayed_ok hexec hrt
      split at hout
      · exact absurd hout nofun
      · rename_i s hsession
        cases hnext : stage.done.due with
        | none =>
          rw [hnext] at hreturned
          exact .finished w world j stage s rt store hexec hsession hnext hout hstep hreturned
        | some next =>
          rw [hnext] at hreturned
          rw [hsession]
          exact .passed w world j stage next s rt store _ hexec hsession hnext hout hstep
            ⟨rfl, rfl⟩ hreturned

theorem moves_start {q : Nat} {body : StartRequest} (h : sys.start q body = some sys') :
    Moves settings sys (.start q body) sys' := by
  unfold System.start at h
  split at h
  · rename_i c seen hpc
    split at h
    · rename_i db hanswer
      obtain rfl := Option.some.inj h
      split at hanswer
      · have hstep : Step settings sys.runtime (.respond q)
            (sys.runtime.moveRequest q db .idle) := by
          apply step_respond
          unfold Runtime.respond
          rw [hpc]
          dsimp only [Api.respond]
          rw [hanswer]
        unfold Api.startAnalysis at hanswer
        split at hanswer
        · exact absurd hanswer nofun
        · obtain rfl := Except.ok.inj hanswer
          refine .started q body c seen _ (createJob sys.runtime.db (some c) .analysisIngest {} 10)
            hpc hstep ?_ ⟨rfl, rfl⟩
          dsimp only [Runtime.moveRequest_db, emit_jobs, Api.addJob]
          split <;> rfl
      · exact absurd hanswer nofun
    · obtain rfl := Option.some.inj h
      exact .refused q body
  · exact absurd h nofun

theorem moves_of_step {act : Act} (h : sys.step settings act = some sys') :
    Moves settings sys act sys' := by
  cases act with
  | runtime l => exact moves_runtime h
  | operate w world => exact moves_operate h
  | start q body => exact moves_start h

end Synthetos.Analysis
