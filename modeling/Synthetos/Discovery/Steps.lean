import Synthetos.Discovery.System

/-!
# The steps of the discovery system

What each step does to the sessions.  Without the cards the system is a relay: its sessions are
handed on from job to job.
-/

namespace Synthetos.Discovery

open Synthetos.Core Lib Storage Worker Jobs

/-- The commit of an operator, taken apart. -/
structure Operated (platform : Platform) (db : DiscoveryDb) (s : SessionId) (stage : Stage)
    (seen : DiscoverySession) (rest : Selected) (world : DiscoveryWorld) (db' : DiscoveryDb)
    (rows : SessionRows) (draft : Draft) : Prop where
  found : db.sessions[s]? = some rows
  ran : runOperator platform stage seen rest.profile rest.cards world = .ok draft
  accepted : db.Accepts rows draft.added
  sessions : db'.sessions = Table.update db.sessions s fun _ =>
    DiscoveryDb.commitRows rows seen rest.profile.sourceScope draft

theorem operate_cases {platform : Platform} {db db' : DiscoveryDb} {s : SessionId} {stage : Stage}
    {seen : DiscoverySession} {rest : Selected} {world : DiscoveryWorld} {error : Option String}
    (h : db.operate platform s stage seen rest.profile rest.cards world = .ok (db', error)) :
    ∃ rows draft, Operated platform db s stage seen rest world db' rows draft ∧
      draft.error = error := by
  unfold DiscoveryDb.operate at h
  split at h
  · exact absurd h nofun
  · exact absurd h nofun
  · rename_i rows _ hfound
    obtain ⟨draft, hran, h⟩ := bind_eq_ok.mp h
    split at h
    · rename_i haccepted
      obtain ⟨rfl, rfl⟩ := Prod.mk.inj (Except.ok.inj h)
      exact ⟨rows, draft, ⟨hfound, hran, haccepted, rfl⟩, rfl⟩
    · exact absurd h nofun

/-- The steps of the system. -/
inductive Moves (settings : Settings) (platform : Platform) (sys : System) : Act → System → Prop
    where
  | quiet (l : Label) (rt : Runtime) (loaded : WorkerId → Option DiscoverySession)
      (selected : WorkerId → Option Selected) (hstep : Step settings sys.runtime l rt)
      (hexec : ∀ w, (∃ world, l = .exec w world) → sys.executing? w = none)
      (hread : ∀ w, l ≠ .readTarget w)
      (hwrite : ∀ w, l = .writeOutcome w → ∀ j result, Records (sys.runtime.workers w) j result →
        sys.sessionOf j = none ∨ sys.reads w = none)
      (hstart : ∀ w, l = .start w → loaded w = none ∧ selected w = none)
      (hkept : ∀ w, l ≠ .start w → loaded w = sys.loaded w ∧ selected w = sys.selected w) :
      Moves settings platform sys (.runtime l)
        { sys with runtime := rt, loaded := loaded, selected := selected }
  | load (w : WorkerId) (j : JobId) (phase : Phase) (s : SessionId) (rows : SessionRows)
      (hpc : sys.runtime.workers w = .executing j phase) (hsession : sys.sessionOf j = some s)
      (hrows : sys.store.sessions[s]? = some rows) :
      Moves settings platform sys (.load w)
        { sys with
          loaded := Function.update sys.loaded w (some rows.discovery)
          selected := Function.update sys.selected w none }
  | select (w : WorkerId) (arrangement : Arrangement) (j : JobId) (phase : Phase) (s : SessionId)
      (rows : SessionRows) (hpc : sys.runtime.workers w = .executing j phase)
      (hsession : sys.sessionOf j = some s) (hrows : sys.store.sessions[s]? = some rows)
      (hloaded : sys.loaded w ≠ none) :
      Moves settings platform sys (.select w arrangement)
        { sys with selected := Function.update sys.selected w (some (arrangement.found rows)) }
  | read (w : WorkerId) (rt : Runtime) (hstep : Step settings sys.runtime (.readTarget w) rt) :
      Moves settings platform sys (.runtime (.readTarget w))
        { sys with runtime := rt, reads := Function.update sys.reads w (sys.readSession w) }
  | mark (w : WorkerId) (j : JobId) (result : OperatorResult) (s : SessionId)
      (row : DiscoverySession) (rt : Runtime)
      (hstep : Step settings sys.runtime (.writeOutcome w) rt)
      (hr : Records (sys.runtime.workers w) j result)
      (hsession : sys.sessionOf j = some s) (hrow : sys.reads w = some row) :
      Moves settings platform sys (.runtime (.writeOutcome w))
        { sys with runtime := rt, store := sys.store.writeFailure s row (sys.errors w) }
  | raised (w : WorkerId) (world : DiscoveryWorld) (j : JobId) (outer : External) (rt : Runtime)
      (errors : WorkerId → String) (hstep : Step settings sys.runtime (.exec w outer) rt)
      (hreturned : Returned sys.runtime w j false [] rt) :
      Moves settings platform sys (.operate w world) { sys with runtime := rt, errors := errors }
  | committed (w : WorkerId) (world : DiscoveryWorld) (j : JobId) (phase : Phase) (job : Job)
      (stage : Stage) (s : SessionId) (seen : DiscoverySession) (rest : Selected)
      (store : DiscoveryDb) (rows : SessionRows) (draft : Draft) (outer : External) (rt : Runtime)
      (errors : WorkerId → String) (born : Option Job)
      (hpc : sys.runtime.workers w = .executing j phase)
      (hj : sys.runtime.db.jobs[j]? = some job) (htype : job.jobType = stage.jobType)
      (hsession : sys.sessionOf j = some s) (hloaded : sys.loaded w = some seen)
      (hselected : sys.selected w = some rest)
      (hout : Operated platform sys.store s stage seen rest world store rows draft)
      (hstep : Step settings sys.runtime (.exec w outer) rt)
      (hreturned : Returned sys.runtime w j draft.error.isNone born.toList rt)
      (hborn : born.map Job.jobType =
        if draft.error.isNone then stage.done.due.map Stage.jobType else none)
      (hpending : ∀ new, born = some new → new.status = .pending) :
      Moves settings platform sys (.operate w world)
        { sys with
          runtime := rt, store := store, errors := errors, performed := sys.performed ++ [j]
          sessionOf := assign sys.sessionOf sys.runtime.db.jobs.length s born }
  | started (q : Nat) (body : ProblemProfileCreate) (c : CycleId) (rt : Runtime) (job : Job)
      (hnone : ∀ rows ∈ sys.store.sessions, rows.discovery.cycleId ≠ c)
      (hstep : Step settings sys.runtime (.respond q) rt)
      (hjobs : rt.db.jobs = sys.runtime.db.jobs ++ [job])
      (hjob : job.jobType = .discoveryIntake ∧ job.status = .pending) :
      Moves settings platform sys (.start q body)
        { sys with
          runtime := rt
          store := sys.store.create { cycleId := c, charterId := body.charterId } body.profile
          sessionOf := Function.update sys.sessionOf sys.runtime.db.jobs.length
            (some sys.store.sessions.length) }
  | refused (q : Nat) (body : ProblemProfileCreate) :
      Moves settings platform sys (.start q body)
        { sys with runtime := sys.runtime.moveRequest q sys.runtime.db .idle }
  | readTriage (client : Nat) (body : TriageRequest) (rows : SessionRows) (seen : CardRow)
      (hrows : sys.store.sessions[body.sessionId]? = some rows) (hseen : seen ∈ rows.cards)
      (hid : seen.id = body.paperId) :
      Moves settings platform sys (.readTriage client body)
        { sys with triages := Function.update sys.triages client (some ⟨body, seen⟩) }
  | writeTriage (client : Nat) (triaging : Triaging) (htriage : sys.triages client = some triaging) :
      Moves settings platform sys (.writeTriage client)
        { sys with
          store := sys.store.writeTriage triaging.body.sessionId triaging.seen
            triaging.body.triageStatus triaging.body.triageReason
          triages := Function.update sys.triages client none
          decisions := sys.decisions ++ [triaging.body] }

variable {settings : Settings} {platform : Platform} {sys sys' : System} {act : Act}
  {w : WorkerId} {j : JobId} {stage : Stage} {s t : SessionId} {db db' : DiscoveryDb}
  {rows : SessionRows} {seen : DiscoverySession} {rest : Selected} {world : DiscoveryWorld}
  {draft : Draft}

theorem passesOn_stage (stage : Stage) : PassesOn stage.jobType := by
  intro db input phase world htype
  unfold handler
  rw [htype]
  cases stage <;> rfl

theorem relayOf_stage (stage : Stage) :
    (relayOf stage.jobType).1 = stage.done.due.map Stage.jobType := by
  cases stage <;> rfl

theorem stageOf_eq_some : sys.stageOf j = some stage ↔
    ∃ job, sys.runtime.db.jobs[j]? = some job ∧ job.jobType = stage.jobType := by
  unfold System.stageOf
  rw [Option.bind_eq_some_iff]
  refine exists_congr fun job => and_congr_right fun _ => ?_
  cases job.jobType <;> cases stage <;> simp [Stage.ofJobType?, Stage.jobType]

theorem executing?_eq_some : sys.executing? w = some (j, stage) ↔
    (∃ phase, sys.runtime.workers w = .executing j phase) ∧ sys.stageOf j = some stage := by
  unfold System.executing?
  split
  · rename_i k phase hpc
    rw [hpc]
    simp only [Option.map_eq_some_iff, Prod.mk.injEq, WorkerPc.executing.injEq]
    constructor
    · rintro ⟨found, hfound, rfl, rfl⟩
      exact ⟨⟨phase, rfl, rfl⟩, hfound⟩
    · rintro ⟨⟨phase, rfl, -⟩, hfound⟩
      exact ⟨stage, hfound, rfl, rfl⟩
  · rename_i hpc
    exact ⟨nofun, fun ⟨⟨phase, h⟩, _⟩ => absurd h (hpc j phase)⟩

theorem working?_eq_some (h : sys.working? w = some rows) :
    ∃ j phase s, sys.runtime.workers w = .executing j phase ∧ sys.sessionOf j = some s ∧
      sys.store.sessions[s]? = some rows := by
  obtain ⟨⟨j, stage⟩, hexec, h⟩ := Option.bind_eq_some_iff.mp h
  obtain ⟨s, hs, hrows⟩ := Option.bind_eq_some_iff.mp h
  obtain ⟨⟨phase, hpc⟩, -⟩ := executing?_eq_some.mp hexec
  exact ⟨j, phase, s, hpc, hs, hrows⟩

/-! ### Every step is one of these -/

theorem moves_writeOutcome {rt : Runtime} (h : Step settings sys.runtime (.writeOutcome w) rt) :
    Moves settings platform sys (.runtime (.writeOutcome w))
      { sys with runtime := rt, store := sys.markFailed w } := by
  have plain (hother : ∀ j result, Records (sys.runtime.workers w) j result →
      sys.sessionOf j = none ∨ sys.reads w = none) :
      Moves settings platform sys (.runtime (.writeOutcome w)) { sys with runtime := rt } := by
    refine .quiet _ rt sys.loaded sys.selected h (fun _ ⟨_, hl⟩ => nomatch hl) nofun ?_
      (fun _ hl => nomatch hl) fun _ _ => ⟨rfl, rfl⟩
    intro w' hl
    obtain rfl := Label.writeOutcome.inj hl
    exact hother
  unfold System.markFailed
  split
  · rename_i j result seen cycleSeen runSeen hpc
    have hr : Records (sys.runtime.workers w) j result := ⟨seen, cycleSeen, runSeen, hpc⟩
    split
    · rename_i s row hsession hrow
      exact .mark w j result s row rt h hr hsession hrow
    · rename_i hother
      refine plain fun k result' hrecords => ?_
      obtain ⟨rfl, -⟩ := hr.unique hrecords
      cases hsession : sys.sessionOf j with
      | none => exact .inl rfl
      | some s =>
        right
        exact Option.eq_none_iff_forall_ne_some.mpr fun row hrow => hother s row hsession hrow
  · rename_i hother
    refine plain fun j result hrecords => ?_
    obtain ⟨seen, cycleSeen, runSeen, hpc⟩ := hrecords
    exact absurd hpc (hother j result seen cycleSeen runSeen)

theorem moves_runtime {l : Label} (h : sys.runtimeStep settings l = some sys') :
    Moves settings platform sys (.runtime l) sys' := by
  have plain (hexec : ∀ w world, l = .exec w world → sys.executing? w = none)
      (hstart : ∀ w, l ≠ .start w)
      (hread : ∀ w, l ≠ .readTarget w) (hwrite : ∀ w, l ≠ .writeOutcome w)
      (h : ((Runtime.step settings sys.runtime l).map fun rt => { sys with runtime := rt }) =
        some sys') : Moves settings platform sys (.runtime l) sys' := by
    obtain ⟨rt, hrt, rfl⟩ := Option.map_eq_some_iff.mp h
    exact .quiet l rt sys.loaded sys.selected (step_cases hrt) (fun w ⟨world, hl⟩ => hexec w world hl)
      hread (fun w hl => absurd hl (hwrite w)) (fun w hl => absurd hl (hstart w))
      fun _ _ => ⟨rfl, rfl⟩
  cases l with
  | start w =>
    obtain ⟨rt, hrt, rfl⟩ := Option.map_eq_some_iff.mp h
    refine .quiet _ rt _ _ (step_cases hrt) (fun _ ⟨_, hl⟩ => nomatch hl) nofun
      (fun _ hl => nomatch hl) ?_ ?_
    · intro w' hl
      obtain rfl := Label.start.inj hl
      exact ⟨Function.update_self .., Function.update_self ..⟩
    · intro w' hl
      have hne : w' ≠ w := fun heq => hl (by rw [heq])
      exact ⟨Function.update_of_ne hne .., Function.update_of_ne hne ..⟩
  | exec w world =>
    simp only [System.runtimeStep] at h
    split at h
    · exact absurd h nofun
    · rename_i hexec
      refine plain (fun w' world' hl => ?_) (fun _ hl => nomatch hl) (fun _ hl => nomatch hl)
        (fun _ hl => nomatch hl) h
      obtain ⟨rfl, -⟩ := Label.exec.inj hl
      simpa using hexec
  | respond q =>
    simp only [System.runtimeStep] at h
    split at h
    · exact absurd h nofun
    · exact plain (fun _ _ hl => nomatch hl) (fun _ hl => nomatch hl) (fun _ hl => nomatch hl)
        (fun _ hl => nomatch hl) h
  | readTarget w =>
    obtain ⟨rt, hrt, rfl⟩ := Option.map_eq_some_iff.mp h
    exact .read w rt (step_cases hrt)
  | writeOutcome w =>
    obtain ⟨rt, hrt, rfl⟩ := Option.map_eq_some_iff.mp h
    exact moves_writeOutcome (step_cases hrt)
  | _ =>
    simp only [System.runtimeStep] at h
    exact plain (fun _ _ hl => nomatch hl) (fun _ hl => nomatch hl) (fun _ hl => nomatch hl)
      (fun _ hl => nomatch hl) h

theorem outcome_ok {store : DiscoveryDb} {error : Option String}
    (h : sys.outcome platform w j stage world = some (.ok (store, error))) :
    ∃ s seen rest rows draft, sys.sessionOf j = some s ∧ sys.loaded w = some seen ∧
      sys.selected w = some rest ∧
      Operated platform sys.store s stage seen rest world store rows draft ∧
        draft.error = error := by
  unfold System.outcome at h
  split at h
  · exact absurd (Option.some.inj h) nofun
  · exact absurd (Option.some.inj h) nofun
  · rename_i s seen rest _ hs hloaded hselected
    obtain ⟨rows, draft, hout, herror⟩ := operate_cases (Option.some.inj h)
    exact ⟨s, seen, rest, rows, draft, hs, hloaded, hselected, hout, herror⟩
  · exact absurd h nofun

theorem moves_operate (h : sys.operate settings platform w world = some sys') :
    Moves settings platform sys (.operate w world) sys' := by
  unfold System.operate at h
  split at h
  · exact absurd h nofun
  · rename_i j stage hexec
    obtain ⟨⟨phase, hpc⟩, hstage⟩ := executing?_eq_some.mp hexec
    obtain ⟨job, hj, htype⟩ := stageOf_eq_some.mp hstage
    have hpasses : PassesOn job.jobType := htype ▸ passesOn_stage stage
    split at h
    · exact absurd h nofun
    · rename_i e _
      obtain ⟨rt, hrt, rfl⟩ := Option.map_eq_some_iff.mp h
      obtain ⟨hstep, hreturned⟩ := exec_raised hpasses hpc hj hrt
      exact .raised w world j _ rt _ hstep hreturned
    · rename_i store e hout
      obtain ⟨rt, hrt, rfl⟩ := Option.map_eq_some_iff.mp h
      obtain ⟨hstep, hreturned⟩ := exec_raised hpasses hpc hj hrt
      obtain ⟨s, seen, rest, rows, draft, hs, hloaded, hselected, hout, herror⟩ := outcome_ok hout
      exact .committed w world j phase job stage s seen rest store rows draft _ rt _ none hpc hj
        htype hs hloaded hselected hout hstep (by rwa [herror]) (by rw [herror]; rfl)
        fun _ hnew => nomatch hnew
    · rename_i store hout
      obtain ⟨rt, hrt, rfl⟩ := Option.map_eq_some_iff.mp h
      obtain ⟨hstep, hreturned⟩ := exec_passed hpasses hpc hj hrt
      obtain ⟨s, seen, rest, rows, draft, hs, hloaded, hselected, hout, herror⟩ := outcome_ok hout
      rw [htype, relayOf_stage] at hreturned
      cases hnext : stage.done.due with
      | none =>
        rw [hnext] at hreturned
        exact .committed w world j phase job stage s seen rest store rows draft _ rt sys.errors none
          hpc hj htype hs hloaded hselected hout hstep (by rwa [herror])
          (by rw [herror, hnext]; rfl) fun _ hnew => nomatch hnew
      | some next =>
        rw [hnext] at hreturned
        rw [hs]
        refine .committed w world j phase job stage s seen rest store rows draft _ rt sys.errors
          (some (createJob sys.runtime.db job.cycleId next.jobType job.payload 10))
          hpc hj htype hs hloaded hselected hout hstep (by rwa [herror])
          (by rw [herror, hnext]; rfl) fun new hnew => ?_
        obtain rfl := Option.some.inj hnew
        rfl

theorem moves_start {q : Nat} {body : ProblemProfileCreate} (h : sys.start q body = some sys') :
    Moves settings platform sys (.start q body) sys' := by
  unfold System.start at h
  split at h
  · rename_i c first hpc
    split at h
    · rename_i answered hanswer
      obtain rfl := Option.some.inj h
      split at hanswer
      · exact absurd hanswer nofun
      · rename_i hnone
        have hstep : Step settings sys.runtime (.respond q)
            (sys.runtime.moveRequest q answered .idle) := by
          apply step_respond
          unfold Runtime.respond
          rw [hpc]
          dsimp only [Api.respond]
          rw [hanswer]
        have hjobs : answered.jobs =
            sys.runtime.db.jobs ++ [createJob sys.runtime.db (some c) .discoveryIntake {} 10] := by
          cases Api.startDiscovery_cases hanswer with
          | startDiscovery => rfl
        refine .started q body c _ _ (fun rows hrows heq => hnone ?_) hstep hjobs ⟨rfl, rfl⟩
        exact List.any_eq_true.mpr ⟨rows, hrows, by simpa using heq⟩
    · obtain rfl := Option.some.inj h
      exact .refused q body
  · exact absurd h nofun

theorem moves_of_step (h : sys.step settings platform act = some sys') :
    Moves settings platform sys act sys' := by
  cases act with
  | runtime l => exact moves_runtime h
  | load w =>
    obtain ⟨rows, hworking, rfl⟩ := Option.map_eq_some_iff.mp h
    obtain ⟨j, phase, s, hpc, hs, hrows⟩ := working?_eq_some hworking
    exact .load w j phase s rows hpc hs hrows
  | select w arrangement =>
    simp only [System.step, System.select] at h
    split at h
    · exact absurd h nofun
    · rename_i seen hloaded
      obtain ⟨rows, hworking, rfl⟩ := Option.map_eq_some_iff.mp h
      obtain ⟨j, phase, s, hpc, hs, hrows⟩ := working?_eq_some hworking
      exact .select w arrangement j phase s rows hpc hs hrows (by rw [hloaded]; exact nofun)
  | operate w world => exact moves_operate h
  | start q body => exact moves_start h
  | readTriage client body =>
    obtain ⟨rows, hrows, h⟩ := Option.bind_eq_some_iff.mp h
    obtain ⟨seen, hseen, h⟩ := Option.bind_eq_some_iff.mp h
    obtain rfl := Option.some.inj h
    have hid := List.find?_some hseen
    exact .readTriage client body rows seen hrows (List.mem_of_find?_eq_some hseen)
      (by simpa using hid)
  | writeTriage client =>
    obtain ⟨triaging, htriage, rfl⟩ := Option.map_eq_some_iff.mp h
    exact .writeTriage client triaging htriage

end Synthetos.Discovery
