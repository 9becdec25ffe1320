import Synthetos.Discovery.Steps
import Synthetos.Runtime.Solo

/-!
# Discovery sessions wait for a job

No operator locks its session, so an operator that is executed again can write over what came after
it.  The operator that is due still has a job that has not committed.
-/

namespace Synthetos.Discovery

open Synthetos.Core Lib Storage Worker Jobs

/-- The job types of the pipeline. -/
def IsDiscovery (type : JobType) : Prop := ∃ stage : Stage, type = stage.jobType

/-- The type of the job that is due for a session. -/
def DiscoverySession.dueType (discovery : DiscoverySession) : Option JobType :=
  discovery.status.due.map Stage.jobType

variable {settings : Settings} {platform : Platform} {start sys sys' : System} {act : Act}
  {w : WorkerId} {j : JobId} {stage : Stage} {s : SessionId} {db db' : DiscoveryDb}
  {rows : SessionRows} {seen discovery new current : DiscoverySession} {profile : ProblemProfile}
  {cards : List CardRow} {rest : Selected} {world : DiscoveryWorld} {draft : Draft}

/-! ### The status an operator leaves -/

theorem markFailed_status (discovery : DiscoverySession) (error : String) :
    (discovery.markFailed error).status = .failed := by
  unfold DiscoverySession.markFailed
  split
  · rename_i h
    exact h.1
  · rfl

theorem runOperator_status
    (h : runOperator platform stage discovery profile cards world = .ok draft) :
    draft.discovery.status = if draft.error.isNone then stage.done else .failed := by
  cases stage with
  | intake =>
    obtain rfl := Except.ok.inj h
    rfl
  | search =>
    obtain ⟨hits, -, h⟩ := bind_eq_ok.mp h
    obtain rfl := Except.ok.inj h
    rfl
  | rerank =>
    obtain ⟨done, -, h⟩ := bind_eq_ok.mp h
    obtain rfl := Except.ok.inj h
    rfl
  | analyze =>
    obtain ⟨-, -, h⟩ := bind_eq_ok.mp h
    obtain rfl := Except.ok.inj h
    rfl
  | finalize =>
    obtain ⟨views, -, h⟩ := bind_eq_ok.mp h
    dsimp only at h
    split at h
    · obtain rfl := pure_eq_ok.mp h
      rfl
    · obtain rfl := pure_eq_ok.mp h
      exact markFailed_status ..

/-- A status that the writer has already seen is not written. -/
theorem write_status (seen new current : DiscoverySession) :
    (seen.write new current).status = new.status ∨
      seen.status = new.status ∧ (seen.write new current).status = current.status := by
  unfold DiscoverySession.write ormSet
  dsimp only
  split
  · exact .inr ⟨‹_›, rfl⟩
  · exact .inl rfl

theorem dueType_ne (stage : Stage)
    (h : discovery.status = stage.done ∨ discovery.status = .failed) :
    discovery.dueType ≠ some stage.jobType := by
  unfold DiscoverySession.dueType
  rcases h with h | h <;> rw [h]
  · cases stage <;> exact nofun
  · exact nofun

/-! ### The sessions as a relay -/

theorem relay_mark (sys : System) (w : WorkerId) (s : SessionId) (seen : DiscoverySession) :
    Rewritten sys.relay.rows
      ((sys.store.writeFailure s seen (sys.errors w)).sessions.map SessionRows.discovery) s
      fun old new => new.dueType = none ∨ seen.dueType = none ∧ new.dueType = old.dueType := by
  refine rewritten_of_update fun old _ => ?_
  have hfailed := markFailed_status seen (sys.errors w)
  rcases write_status seen (seen.markFailed (sys.errors w)) old.discovery with hnew | ⟨hseen, hnew⟩
  · left
    unfold DiscoverySession.dueType
    rw [hnew, hfailed]
    rfl
  · right
    unfold DiscoverySession.dueType
    rw [hnew, hseen, hfailed]
    exact ⟨rfl, rfl⟩

theorem relay_commit {born : Option Job} {job : Job} {loaded : WorkerId → Option DiscoverySession}
    (hout : Operated platform db s stage seen rest world db' rows draft)
    (htype : job.jobType = stage.jobType) (hloaded : loaded w = some seen)
    (hborn : born.map Job.jobType =
      if draft.error.isNone then stage.done.due.map Stage.jobType else none) :
    Rewritten (db.sessions.map SessionRows.discovery) (db'.sessions.map SessionRows.discovery) s
      fun old new => new.dueType = born.map Job.jobType ∨
        new.dueType = old.dueType ∧ ∃ row, loaded w = some row ∧
          row.dueType ≠ some job.jobType := by
  have hstatus := runOperator_status hout.ran
  rw [hout.sessions]
  refine rewritten_of_update fun old hold => ?_
  obtain rfl := Option.some.inj (hout.found.symm.trans hold)
  rcases write_status seen draft.discovery rows.discovery with hnew | ⟨hseen, hnew⟩
  · left
    unfold DiscoverySession.dueType
    dsimp only [DiscoveryDb.commitRows]
    rw [hnew, hstatus, hborn]
    split <;> rfl
  · right
    refine ⟨?_, seen, hloaded, ?_⟩
    · unfold DiscoverySession.dueType
      dsimp only [DiscoveryDb.commitRows]
      rw [hnew]
    · rw [htype]
      apply dueType_ne
      rw [hseen, hstatus]
      split
      · exact .inl rfl
      · exact .inr rfl

theorem readSession_relay : sys.readSession w = sys.relay.failedRow w := by
  have hrows : (fun s => sys.store.sessions[s]?.map SessionRows.discovery) =
      fun s => sys.relay.rows[s]? :=
    funext fun _ => (List.getElem?_map ..).symm
  unfold System.readSession Relay.failedRow
  rw [hrows]
  rfl

/-- Each step hands sessions on, or does nothing to them but to their cards. -/
theorem relays_of_moves (h : Moves settings platform sys act sys') :
    sys'.relay = sys.relay ∨
      Relays settings IsDiscovery DiscoverySession.dueType sys.relay sys'.relay := by
  cases h with
  | quiet l rt loaded selected hstep hexec hread hwrite hstart hkept =>
    refine .inr (.quiet l rt loaded hstep ?_ hread hwrite ?_)
    · rintro w world j phase job hl hpc hj ⟨stage, htype⟩
      have hfound := executing?_eq_some.mpr ⟨⟨phase, hpc⟩, stageOf_eq_some.mpr ⟨job, hj, htype⟩⟩
      exact absurd ((hexec w ⟨world, hl⟩).symm.trans hfound) nofun
    · intro w row j phase hrow hpc
      rcases step_executing hstep hpc with hold | hl
      · by_cases hl : l = .start w
        · exact absurd ((hstart w hl).1.symm.trans hrow) nofun
        · exact ⟨(hkept w hl).1.symm.trans hrow, hold⟩
      · exact absurd ((hstart w hl).1.symm.trans hrow) nofun
  | load w j phase s rows hpc hs hrows =>
    refine .inr (.load w j phase s rows.discovery hpc hs ?_)
    exact (List.getElem?_map ..).trans (congrArg (Option.map _) hrows)
  | select => exact .inl rfl
  | read w rt hstep =>
    right
    rw [readSession_relay]
    exact .read w rt hstep
  | mark w j result s row rt hstep hr hs hrow =>
    exact .inr (.mark w j result s row _ rt hstep hr hs hrow (relay_mark sys w s row))
  | raised w world j outer rt errors hstep hreturned =>
    exact .inr (.raised w outer j rt hstep hreturned)
  | committed w world j phase job stage s seen rest store rows draft outer rt errors born hpc hj
      htype hs hloaded hselected hout hstep hreturned hborn hpending =>
    refine .inr (.committed w outer j phase job s _ _ born rt hpc hj hs hstep hreturned ?_
      (relay_commit hout htype hloaded hborn))
    rintro new rfl
    refine ⟨?_, hpending new rfl⟩
    split at hborn
    · obtain ⟨next, -, hnext⟩ := Option.map_eq_some_iff.mp hborn.symm
      exact ⟨next, hnext.symm⟩
    · exact absurd hborn nofun
  | started q body c rt job hnone hstep hjobs hjob =>
    right
    have hdue : DiscoverySession.dueType { cycleId := c, charterId := body.charterId } =
        some job.jobType := congrArg some hjob.1.symm
    have hrelay : Relays settings IsDiscovery DiscoverySession.dueType sys.relay _ :=
      .started q rt job _ hstep hjobs ⟨⟨.intake, hjob.1⟩, hjob.2⟩ hdue
    simpa [System.relay, DiscoveryDb.create] using hrelay
  | refused q body =>
    refine .inr (.quiet (.drop q) _ sys.loaded (.drop q) ?_ nofun (fun _ hl => nomatch hl) ?_)
    · exact fun _ _ _ _ _ hl => nomatch hl
    · exact fun w row j phase hrow hpc => ⟨hrow, phase, hpc⟩
  | readTriage => exact .inl rfl
  | writeTriage client triaging htriage =>
    left
    have hrows : (sys.store.writeTriage triaging.body.sessionId triaging.seen
        triaging.body.triageStatus triaging.body.triageReason).sessions.map SessionRows.discovery =
        sys.store.sessions.map SessionRows.discovery := Table.map_update fun _ => rfl
    unfold System.relay
    dsimp only
    rw [hrows]

theorem relay_initial (h : start.Initial) : start.relay.Initial where
  runtime := h.runtime
  rows := by
    unfold System.relay
    rw [h.store]
    rfl
  sessionOf := h.sessionOf
  performed := h.performed

theorem waits_run (h₀ : start.Initial)
    (h : Reaches Unguarded (System.step settings platform) start sys) :
    Coherent IsDiscovery sys.relay ∧ Waits DiscoverySession.dueType sys.relay :=
  h.invariant (fun sys => Coherent IsDiscovery sys.relay ∧ Waits DiscoverySession.dueType sys.relay)
    (fun _ _ _ hinv _ hstep => by
      rcases relays_of_moves (moves_of_step hstep) with hsame | hrelays
      · rwa [hsame]
      · exact ⟨coherent_step hinv.1 hrelays, waits_step hinv.1 hinv.2 hrelays⟩)
    ⟨coherent_initial (relay_initial h₀), waits_initial (relay_initial h₀)⟩

/-- In every reachable state the operator that is due in a discovery session has a job whose
operator has not committed.  Its row is not completed, and it is failed only if a recovery pass gave
it up. -/
theorem unfinished_discoveries_wait {settings : Settings} {platform : Platform}
    {start sys : System} {s : SessionId} {rows : SessionRows} {stage : Stage} (h₀ : start.Initial)
    (h : Reaches Unguarded (System.step settings platform) start sys)
    (hs : sys.store.sessions[s]? = some rows) (hdue : rows.discovery.status.due = some stage) :
    ∃ (j : JobId) (job : Job), sys.sessionOf j = some s ∧ sys.runtime.db.jobs[j]? = some job ∧
      job.jobType = stage.jobType ∧ j ∉ sys.performed ∧ job.status ≠ .completed ∧
      (job.status = .failed → ∃ count, .jobReclaimExhausted j count ∈ sys.runtime.db.events) := by
  obtain ⟨hinv, hwaits⟩ := waits_run h₀ h
  have hrow : sys.relay.rows[s]? = some rows.discovery :=
    (List.getElem?_map ..).trans (congrArg (Option.map _) hs)
  have hduetype : rows.discovery.dueType = some stage.jobType := congrArg (Option.map _) hdue
  exact awaited_job hinv hwaits hrow hduetype

/-! ### One job at a time -/

theorem single_run (h₀ : start.Initial)
    (h : Reaches Unguarded (System.step settings platform) start sys) :
    sys.performed.Nodup → Single sys.relay :=
  (h.invariant (fun sys => Coherent IsDiscovery sys.relay ∧
      (sys.relay.performed.Nodup → Single sys.relay))
    (fun _ _ _ hinv _ hstep => by
      rcases relays_of_moves (moves_of_step hstep) with hsame | hrelays
      · rwa [hsame]
      · exact ⟨coherent_step hinv.1 hrelays, single_step hinv.1 hinv.2 hrelays⟩)
    ⟨coherent_initial (relay_initial h₀), fun _ => single_initial (relay_initial h₀)⟩).2

/-- While no operator has committed twice for one job, at most one job of a session is left to
commit. -/
theorem one_discovery_job_left {settings : Settings} {platform : Platform} {start sys : System}
    {s : SessionId} {j k : JobId} (h₀ : start.Initial)
    (h : Reaches Unguarded (System.step settings platform) start sys)
    (honce : sys.performed.Nodup) (hj : sys.sessionOf j = some s) (hk : sys.sessionOf k = some s)
    (hjleft : j ∉ sys.performed) (hkleft : k ∉ sys.performed) : j = k :=
  single_run h₀ h honce s j k hj hk hjleft hkleft

/-! ### A session under way -/

def plainPlatform : Platform := ⟨plainHost, fun _ _ => 0, fun v => some (!v.isEmpty)⟩

/-- A new cycle, before the first request. -/
def newCycle : System := { runtime := Runtime.newCycle }

theorem newCycle_initial : newCycle.Initial where
  runtime := Runtime.newCycle_initial
  store := rfl
  sessionOf _ := rfl
  performed := rfl
  triages _ := rfl
  decisions := rfl

def anyQuery : ProblemProfileCreate where
  charterId := 0
  profile :=
    { queryText := "sorting".toList, sourceScope := none, viewPreference := .both
      rerankPolicy := cutAtOne, budget := {} }

/-- A discovery is requested, and its intake commits. -/
def takeIn : List Act :=
  [.runtime (.receive 0 (.startDiscovery 0)), .start 0 anyQuery, .runtime (.claim 0 []),
    .runtime (.start 0), .load 0, .select 0 .asStored, .operate 0 {}]

def statusIs (status : SessionStatus) (sys : System) : Bool :=
  sys.store.sessions[0]?.any fun rows => rows.discovery.status == status

theorem unfinished_discoveries_wait_intake : ∃ (start sys : System) (rows : SessionRows),
    start.Initial ∧ Reaches Unguarded (System.step {} plainPlatform) start sys ∧
      sys.store.sessions[0]? = some rows ∧ rows.discovery.status.due = some .search ∧
      ∃ (j : JobId) (job : Job), sys.sessionOf j = some 0 ∧ sys.runtime.db.jobs[j]? = some job ∧
        job.jobType = Stage.search.jobType ∧ j ∉ sys.performed ∧ job.status ≠ .completed ∧
        (job.status = .failed →
          ∃ count, .jobReclaimExhausted j count ∈ sys.runtime.db.events) := by
  have hperform : (perform (fun _ _ => true) (System.step {} plainPlatform) newCycle takeIn).any
      (statusIs .intakeComplete) = true := by decide +kernel
  obtain ⟨sys, hrun, htest⟩ := Reaches.of_perform_all hperform
  obtain ⟨rows, hrows, hstatus⟩ := (Option.any_eq_true _ _).mp htest
  have hdue : rows.discovery.status.due = some .search := by
    rw [beq_iff_eq.mp hstatus]
    rfl
  exact ⟨newCycle, sys, rows, newCycle_initial, hrun, hrows, hdue,
    unfinished_discoveries_wait newCycle_initial hrun hrows hdue⟩

theorem one_discovery_job_left_intake : ∃ (start sys : System), start.Initial ∧
    Reaches Unguarded (System.step {} plainPlatform) start sys ∧ sys.performed.Nodup ∧
      sys.sessionOf 1 = some 0 ∧ 1 ∉ sys.performed ∧
        ∀ k, sys.sessionOf k = some 0 → k ∉ sys.performed → 1 = k := by
  have hperform : (perform (fun _ _ => true) (System.step {} plainPlatform) newCycle takeIn).any
      (fun sys => sys.performed == [0] && sys.sessionOf 1 == some 0) = true := by decide +kernel
  obtain ⟨sys, hrun, htest⟩ := Reaches.of_perform_all hperform
  obtain ⟨hperformed, hsession⟩ := Bool.and_eq_true_iff.mp htest
  rw [beq_iff_eq] at hperformed hsession
  have honce : sys.performed.Nodup := by
    rw [hperformed]
    decide
  have hleft : 1 ∉ sys.performed := by
    rw [hperformed]
    decide
  exact ⟨newCycle, sys, newCycle_initial, hrun, honce, hsession, hleft, fun k hk hkleft =>
    one_discovery_job_left newCycle_initial hrun honce hsession hk hleft hkleft⟩

end Synthetos.Discovery
