import Synthetos.Discovery.Session
import Synthetos.Jobs.Relays

/-!
# Discovery sessions in the running system

The tables of the discovery sessions beside the runtime.  To the runtime a discovery operator only
passes its session on to the next job.  Here it loads the session, then the profile and the cards,
and commits what it makes of them, and users triage cards meanwhile.
-/

namespace Synthetos.Discovery

open Synthetos.Core Lib Storage Worker Jobs

/-- The profile and the cards an operator works with. -/
structure Selected where
  profile : ProblemProfile
  cards : List CardRow

/-- An order in which the database finds rows. -/
structure Arrangement where
  run : List CardRow → List CardRow
  perm : ∀ rows, (run rows).Perm rows

def Arrangement.asStored : Arrangement := ⟨id, .refl⟩

/-- What an operator finds of a session. -/
def Arrangement.found (arrangement : Arrangement) (rows : SessionRows) : Selected :=
  ⟨rows.profile, arrangement.run rows.cards⟩

structure TriageRequest where
  sessionId : SessionId
  paperId : Nat
  triageStatus : TriageStatus
  triageReason : Option String

/-- A triage request and the card it has read. -/
structure Triaging where
  body : TriageRequest
  seen : CardRow

/-- `sessionOf` is the `session_id` of a job's payload, `errors` the error of the result a worker
carries and `reads` the session row it has read to mark it failed.  No step reads `performed`, the
jobs whose operator committed, or `decisions`, the triage requests that committed. -/
structure System where
  runtime : Runtime
  store : DiscoveryDb := {}
  sessionOf : JobId → Option SessionId := fun _ => none
  loaded : WorkerId → Option DiscoverySession := fun _ => none
  selected : WorkerId → Option Selected := fun _ => none
  errors : WorkerId → String := fun _ => ""
  reads : WorkerId → Option DiscoverySession := fun _ => none
  triages : Nat → Option Triaging := fun _ => none
  performed : List JobId := []
  decisions : List TriageRequest := []

/-- `POST /charters/{id}/discovery` -/
structure ProblemProfileCreate where
  charterId : CharterId
  profile : ProblemProfile

inductive Act where
  | runtime (label : Label)
  | load (worker : WorkerId)
  | select (worker : WorkerId) (arrangement : Arrangement)
  | operate (worker : WorkerId) (world : DiscoveryWorld)
  | start (request : Nat) (body : ProblemProfileCreate)
  | readTriage (client : Nat) (body : TriageRequest)
  | writeTriage (client : Nat)

namespace System

def stageOf (sys : System) (j : JobId) : Option Stage :=
  sys.runtime.db.jobs[j]?.bind fun job => Stage.ofJobType? job.jobType

/-- The discovery job a worker is to execute. -/
def executing? (sys : System) (w : WorkerId) : Option (JobId × Stage) :=
  match sys.runtime.workers w with
  | .executing j _ => (sys.stageOf j).map fun stage => (j, stage)
  | _ => none

/-- The session of the discovery job a worker executes. -/
def working? (sys : System) (w : WorkerId) : Option SessionRows := do
  let (j, _) ← sys.executing? w
  let s ← sys.sessionOf j
  sys.store.sessions[s]?

/-- The session of a failed discovery job, when the worker is about to read it. -/
def readSession (sys : System) (w : WorkerId) : Option DiscoverySession :=
  match sys.runtime.workers w with
  | .outcome j result _ =>
    if result.success then none
    else (sys.sessionOf j).bind fun s => sys.store.sessions[s]?.map SessionRows.discovery
  | _ => none

/-- `_mark_discovery_job_failed`, for the session row it read. -/
def markFailed (sys : System) (w : WorkerId) : DiscoveryDb :=
  match sys.runtime.workers w with
  | .recording j _ _ _ _ =>
    match sys.sessionOf j, sys.reads w with
    | some s, some seen => sys.store.writeFailure s seen (sys.errors w)
    | _, _ => sys.store
  | _ => sys.store

def runtimeStep (settings : Settings) (sys : System) (l : Label) : Option System :=
  let moved := Runtime.step settings sys.runtime l
  match l with
  | .start w => moved.map fun rt =>
      { sys with
        runtime := rt
        loaded := Function.update sys.loaded w none
        selected := Function.update sys.selected w none }
  | .exec w _ =>
    if (sys.executing? w).isSome then none else moved.map fun rt => { sys with runtime := rt }
  | .respond q =>
    match sys.runtime.requests q with
    | .opened (.startDiscovery _) _ => none
    | _ => moved.map fun rt => { sys with runtime := rt }
  | .readTarget w => moved.map fun rt =>
      { sys with runtime := rt, reads := Function.update sys.reads w (sys.readSession w) }
  | .writeOutcome w => moved.map fun rt => { sys with runtime := rt, store := sys.markFailed w }
  | _ => moved.map fun rt => { sys with runtime := rt }

/-- `load_session` -/
def load (sys : System) (w : WorkerId) : Option System :=
  (sys.working? w).map fun rows =>
    { sys with
      loaded := Function.update sys.loaded w (some rows.discovery)
      selected := Function.update sys.selected w none }

/-- `load_profile`, and the cards. -/
def select (sys : System) (w : WorkerId) (arrangement : Arrangement) : Option System :=
  match sys.loaded w with
  | none => none
  | some _ => (sys.working? w).map fun rows =>
      { sys with selected := Function.update sys.selected w (some (arrangement.found rows)) }

/-- The result of an operator, as the runtime sees it: an error, or the job that follows. -/
def relayed (settings : Settings) (sys : System) (w : WorkerId) (outcome : Except String Unit) :
    Option Runtime :=
  Runtime.step settings sys.runtime (.exec w { relay := outcome })

/-- What an operator commits, and the error of its result.  It can raise before it has loaded
anything. -/
def outcome (platform : Platform) (sys : System) (w : WorkerId) (j : JobId) (stage : Stage)
    (world : DiscoveryWorld) : Option (Except String (DiscoveryDb × Option String)) :=
  match world.raised, sys.sessionOf j, sys.loaded w, sys.selected w with
  | some e, _, _, _ => some (.error e)
  | none, none, _, _ => some (.error s!"job {j} payload is missing required 'session_id'")
  | none, some s, some seen, some rest =>
    some (sys.store.operate platform s stage seen rest.profile rest.cards world)
  | none, some _, _, _ => none

/-- Execute the rest of a discovery operator. -/
def operate (settings : Settings) (platform : Platform) (sys : System) (w : WorkerId)
    (world : DiscoveryWorld) : Option System :=
  match sys.executing? w with
  | none => none
  | some (j, stage) =>
    match sys.outcome platform w j stage world with
    | none => none
    | some (.error e) => (sys.relayed settings w (.error e)).map fun rt =>
      { sys with
        runtime := rt
        errors := Function.update sys.errors w
          s!"Handler for '{stage.jobType.value}' raised: {e}" }
    | some (.ok (store, some e)) => (sys.relayed settings w (.error e)).map fun rt =>
      { sys with
        runtime := rt
        store := store
        errors := Function.update sys.errors w e
        performed := sys.performed ++ [j] }
    | some (.ok (store, none)) => (sys.relayed settings w (.ok ())).map fun rt =>
      { sys with
        runtime := rt
        store := store
        sessionOf := if (stage.done.due).isSome then
          Function.update sys.sessionOf sys.runtime.db.jobs.length (sys.sessionOf j)
          else sys.sessionOf
        performed := sys.performed ++ [j] }

/-- `start_discovery_session`: a cycle has one problem profile. -/
def start (sys : System) (q : Nat) (body : ProblemProfileCreate) : Option System :=
  match sys.runtime.requests q with
  | .opened (.startDiscovery c) seen =>
    match if sys.store.sessions.any fun rows => rows.discovery.cycleId == c then
        .error s!"cycle {c} already has a problem profile"
      else Api.startDiscovery seen sys.runtime.db c with
    | .ok db => some
      { sys with
        runtime := sys.runtime.moveRequest q db .idle
        store := sys.store.create { cycleId := c, charterId := body.charterId } body.profile
        sessionOf := Function.update sys.sessionOf sys.runtime.db.jobs.length
          (some sys.store.sessions.length) }
    | .error _ => some { sys with runtime := sys.runtime.moveRequest q sys.runtime.db .idle }
  | _ => none

/-- `triage_paper_card` reads the card. -/
def readTriage (sys : System) (client : Nat) (body : TriageRequest) : Option System := do
  let rows ← sys.store.sessions[body.sessionId]?
  let seen ← rows.cards.find? (·.id == body.paperId)
  return { sys with triages := Function.update sys.triages client (some ⟨body, seen⟩) }

/-- It commits what it changes. -/
def writeTriage (sys : System) (client : Nat) : Option System :=
  (sys.triages client).map fun triaging =>
    { sys with
      store := sys.store.writeTriage triaging.body.sessionId triaging.seen
        triaging.body.triageStatus triaging.body.triageReason
      triages := Function.update sys.triages client none
      decisions := sys.decisions ++ [triaging.body] }

def step (settings : Settings) (platform : Platform) (sys : System) : Act → Option System
  | .runtime l => sys.runtimeStep settings l
  | .load w => sys.load w
  | .select w arrangement => sys.select w arrangement
  | .operate w world => sys.operate settings platform w world
  | .start q body => sys.start q body
  | .readTriage client body => sys.readTriage client body
  | .writeTriage client => sys.writeTriage client

/-- Before the first request. -/
structure Initial (sys : System) : Prop where
  runtime : sys.runtime.Initial
  store : sys.store = {}
  sessionOf : ∀ j, sys.sessionOf j = none
  performed : sys.performed = []
  triages : ∀ client, sys.triages client = none
  decisions : sys.decisions = []

/-- The jobs and the rows of the sessions, without the cards. -/
def relay (sys : System) : Relay DiscoverySession where
  runtime := sys.runtime
  rows := sys.store.sessions.map SessionRows.discovery
  sessionOf := sys.sessionOf
  loaded := sys.loaded
  reads := sys.reads
  performed := sys.performed

end System

end Synthetos.Discovery
