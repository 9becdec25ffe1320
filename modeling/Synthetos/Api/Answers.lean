import Synthetos.Api.Requests

/-!
# What a request can commit

`Responds` lists the committing branches of the requests with the checks that lead to them;
`respond_cases` turns an answered request into its branch.
-/

namespace Synthetos.Api

open Synthetos.Core Storage Lib

inductive Responds (seen db : Db) : Request → Db → Prop where
  | createCycle (charter : CharterId) (policy : Autonomy.AutonomyPolicy) :
      Responds seen db (.createCycle charter policy) (createCycle db charter policy)
  | transitionCycle (c : CycleId) (target : CycleStatus) (cycle : ResearchCycle)
      (hcycle : seen.cycles[c]? = some cycle) (hvalid : validTransition cycle.status target = true) :
      Responds seen db (.transitionCycle c target) (setCycleStatus db c cycle.status target)
  | startDiscovery (c : CycleId) (cycle : ResearchCycle) (hcycle : seen.cycles[c]? = some cycle)
      (hstatus : cycle.status = .created ∨ cycle.status = .discoveryReady)
      (hseen : ¬ seen.profiles.contains c = true) (hnone : ¬ db.profiles.contains c = true) :
      Responds seen db (.startDiscovery c)
        (emit (addJob { db with profiles := db.profiles ++ [c] }
            (createJob db (some c) .discoveryIntake {} 10))
          [.sessionStarted c .discoveryIntake])
  | startAnalysis (c : CycleId) (cycle : ResearchCycle) (moved : Db)
      (hcycle : seen.cycles[c]? = some cycle)
      (hmoved : (cycle.status = .discoveryScreened ∨ cycle.status = .analysisReady) ∧
          moved = assignCycleStatus db c cycle.status .analysisReady ∨
        ¬ (cycle.status = .discoveryScreened ∨ cycle.status = .analysisReady) ∧ moved = db) :
      Responds seen db (.startAnalysis c)
        (emit (addJob moved (createJob db (some c) .analysisIngest {} 10))
          [.sessionStarted c .analysisIngest])
  | startHypothesisSession (c : CycleId) (charter : CharterId) (cycle : ResearchCycle)
      (hcycle : seen.cycles[c]? = some cycle) (hstatus : cycle.status = .evidenceReady) :
      Responds seen db (.startHypothesisSession c charter)
        (emit (addJob
          { db with sessions := db.sessions ++ [{ charterId := charter, cycleId := c }] }
          (createJob db (some c) .hypothesisGenerate
            { hypothesisSessionId := some db.sessions.length } 10))
          [.sessionStarted c .hypothesisGenerate])
  | compileProtocols (c : CycleId) (cycle : ResearchCycle) (session : SessionId)
      (row : HypothesisSession) (cards : List CardId) (hardwareProfile : Option Dict)
      (baseImage : Option String) (hcycle : seen.cycles[c]? = some cycle)
      (hstatus : cycle.status = .portfolioReady) (hrow : seen.sessions[session]? = some row)
      (hsession : row.cycleId = c) :
      Responds seen db (.compileProtocols c session cards hardwareProfile baseImage)
        (emit (addJob db (createJob db (some c) .protocolCompile
            { hypothesisSessionId := some session, hypothesisCardIds := cards
              hardwareProfile, baseImage } 10))
          [.compilationStarted db.jobs.length])
  | startRun (spec : SpecId) (row : ExperimentSpec) (cycle : ResearchCycle) (moved : Db)
      (hspec : seen.specs[spec]? = some row) (hvalidated : row.status = .validated)
      (hcycle : seen.cycles[row.cycleId]? = some cycle)
      (hmoved : cycle.status = .protocolReady ∧
          moved = assignCycleStatus db row.cycleId cycle.status .running ∨
        cycle.status ≠ .protocolReady ∧ moved = db) :
      Responds seen db (.startRun spec)
        (emit (addRun seen
          { moved with specs := Table.update moved.specs spec fun old =>
              { old with status := .executing } }
          spec row.charterId row.cycleId)
          [.workspaceCreated db.runs.length])
  | cancelRun (r : RunId) (run : RunRecord) (hrun : seen.runs[r]? = some run)
      (hallowed : (allowedActions run.status).contains .cancel = true) :
      Responds seen db (.controlRun r .cancel) (cancelRun db r)
  | pauseRun (r : RunId) (run : RunRecord) (hrun : seen.runs[r]? = some run)
      (hallowed : (allowedActions run.status).contains .pause = true) :
      Responds seen db (.controlRun r .pause) (pauseRun db r)
  | resumeRun (r : RunId) (run : RunRecord) (hrun : seen.runs[r]? = some run)
      (hallowed : (allowedActions run.status).contains .resume = true) :
      Responds seen db (.controlRun r .resume) (resumeRun seen db r run)
  | retryRun (r : RunId) (run : RunRecord) (hrun : seen.runs[r]? = some run)
      (hallowed : (allowedActions run.status).contains .retry = true) :
      Responds seen db (.controlRun r .retry) (retryRun seen db run)
  | cancelJob (j : JobId) (job : Job) (hjob : seen.jobs[j]? = some job)
      (hstatus : job.status.cancellable = true) :
      Responds seen db (.cancelJob j)
        (emit (updateJob db j fun row =>
          { row with status := .cancelled, completedAt := some db.now }) [.jobCancelled j])
  | pauseJob (j : JobId) (job : Job) (hjob : seen.jobs[j]? = some job)
      (hstatus : job.status = .pending ∨ job.status = .claimed ∨ job.status = .running) :
      Responds seen db (.pauseJob j) (emit (Core.pauseJob db j) [.jobPaused j])
  | resumeJob (j : JobId) (job : Job) (hjob : seen.jobs[j]? = some job)
      (hstatus : job.status = .paused) :
      Responds seen db (.resumeJob j)
        (emit (updateJob db j fun row =>
          { row with
            status := .pending
            claimedBy := ormSet job.claimedBy none row.claimedBy
            claimedAt := ormSet job.claimedAt none row.claimedAt
            heartbeatAt := ormSet job.heartbeatAt none row.heartbeatAt }) [.jobResumed j])
  | resumeGate (c : CycleId) (j : JobId) (hj : pausedLoopJob seen c = some j) :
      Responds seen db (.resumeGate c)
        (emit (updateJob db j fun job =>
          { job with
            status := .pending, claimedBy := none, claimedAt := none, heartbeatAt := none })
          [.gateResumed c none])
  | stopLoop (c : CycleId) (cycle : ResearchCycle) (moved : Db)
      (hcycle : seen.cycles[c]? = some cycle)
      (hmoved : (cycle.status = .loopDeciding ∨ cycle.status = .running) ∧
          moved = addJob (assignCycleStatus (stoppedLoop db c cycle.charterId) c cycle.status
              .reporting) (createJob db (some c) .loopReport { cycleId := some c } 5) ∨
        ¬ (cycle.status = .loopDeciding ∨ cycle.status = .running) ∧
          moved = stoppedLoop db c cycle.charterId) :
      Responds seen db (.stopLoop c) (emit moved [.loopStoppedManual c])

variable {seen db db' : Db}

theorem transitionCycle_cases {c : CycleId} {target : CycleStatus}
    (h : transitionCycle seen db c target = .ok db') :
    Responds seen db (.transitionCycle c target) db' := by
  unfold transitionCycle at h
  split at h
  · exact absurd h nofun
  · split at h
    · obtain rfl := Except.ok.inj h
      exact .transitionCycle c target _ ‹_› ‹_›
    · exact absurd h nofun

theorem startDiscovery_cases {c : CycleId} (h : startDiscovery seen db c = .ok db') :
    Responds seen db (.startDiscovery c) db' := by
  unfold startDiscovery at h
  split at h
  · exact absurd h nofun
  · split at h
    · split at h
      · exact absurd h nofun
      · split at h
        · exact absurd h nofun
        · obtain rfl := Except.ok.inj h
          exact .startDiscovery c _ ‹_› ‹_› ‹_› ‹_›
    · exact absurd h nofun

theorem startAnalysis_cases {c : CycleId} (h : startAnalysis seen db c = .ok db') :
    Responds seen db (.startAnalysis c) db' := by
  unfold startAnalysis at h
  split at h
  · exact absurd h nofun
  · obtain rfl := Except.ok.inj h
    refine .startAnalysis c _ _ ‹_› ?_
    split
    · exact .inl ⟨‹_›, rfl⟩
    · exact .inr ⟨‹_›, rfl⟩

theorem startHypothesisSession_cases {c : CycleId} {charter : CharterId}
    (h : startHypothesisSession seen db c charter = .ok db') :
    Responds seen db (.startHypothesisSession c charter) db' := by
  unfold startHypothesisSession at h
  split at h
  · exact absurd h nofun
  · split at h
    · obtain rfl := Except.ok.inj h
      exact .startHypothesisSession c charter _ ‹_› ‹_›
    · exact absurd h nofun

theorem compileProtocols_cases {c : CycleId} {session : SessionId} {cards : List CardId}
    {hardwareProfile : Option Dict} {baseImage : Option String}
    (h : compileProtocols seen db c session cards hardwareProfile baseImage = .ok db') :
    Responds seen db (.compileProtocols c session cards hardwareProfile baseImage) db' := by
  unfold compileProtocols at h
  split at h
  · exact absurd h nofun
  · rename_i cycle hcycle
    split at h
    · exact absurd h nofun
    · rename_i hstatus
      split at h
      · exact absurd h nofun
      · rename_i row hrow
        split at h
        · rename_i hsession
          obtain rfl := Except.ok.inj h
          exact .compileProtocols c cycle session row cards hardwareProfile baseImage hcycle
            (not_not.mp hstatus) hrow hsession
        · exact absurd h nofun

theorem startRun_cases {spec : SpecId} (h : startRun seen db spec = .ok db') :
    Responds seen db (.startRun spec) db' := by
  unfold startRun at h
  split at h
  · exact absurd h nofun
  · rename_i row hrow
    split at h
    · exact absurd h nofun
    · rename_i hvalidated
      split at h
      · exact absurd h nofun
      · rename_i cycle hcycle
        obtain rfl := Except.ok.inj h
        refine .startRun spec row cycle _ hrow (not_not.mp hvalidated) hcycle ?_
        split
        · exact .inl ⟨‹_›, rfl⟩
        · exact .inr ⟨‹_›, rfl⟩

theorem controlRun_cases {r : RunId} {action : RunAction}
    (h : controlRun seen db r action = .ok db') :
    Responds seen db (.controlRun r action) db' := by
  unfold controlRun at h
  split at h
  · exact absurd h nofun
  · rename_i run hrun
    split at h
    · rename_i hallowed
      cases action with
      | cancel =>
        obtain rfl := Except.ok.inj h
        exact .cancelRun r run hrun hallowed
      | pause =>
        obtain rfl := Except.ok.inj h
        exact .pauseRun r run hrun hallowed
      | resume =>
        obtain rfl := Except.ok.inj h
        exact .resumeRun r run hrun hallowed
      | retry =>
        obtain rfl := Except.ok.inj h
        exact .retryRun r run hrun hallowed
    · exact absurd h nofun

theorem cancelJob_cases {j : JobId} (h : cancelJob seen db j = .ok db') :
    Responds seen db (.cancelJob j) db' := by
  unfold cancelJob at h
  split at h
  · exact absurd h nofun
  · split at h
    · obtain rfl := Except.ok.inj h
      exact .cancelJob j _ ‹_› ‹_›
    · exact absurd h nofun

theorem pauseJob_cases {j : JobId} (h : pauseJobRequest seen db j = .ok db') :
    Responds seen db (.pauseJob j) db' := by
  unfold pauseJobRequest at h
  split at h
  · exact absurd h nofun
  · split at h
    · obtain rfl := Except.ok.inj h
      exact .pauseJob j _ ‹_› ‹_›
    · exact absurd h nofun

theorem resumeJob_cases {j : JobId} (h : resumeJob seen db j = .ok db') :
    Responds seen db (.resumeJob j) db' := by
  unfold resumeJob at h
  split at h
  · exact absurd h nofun
  · split at h
    · obtain rfl := Except.ok.inj h
      exact .resumeJob j _ ‹_› ‹_›
    · exact absurd h nofun

theorem resumeGate_cases {c : CycleId} (h : resumeGate seen db c = .ok db') :
    Responds seen db (.resumeGate c) db' := by
  unfold resumeGate at h
  split at h
  · exact absurd h nofun
  · obtain rfl := Except.ok.inj h
    exact .resumeGate c _ ‹_›

theorem stopLoop_cases {c : CycleId} (h : stopLoop seen db c = .ok db') :
    Responds seen db (.stopLoop c) db' := by
  unfold stopLoop at h
  split at h
  · exact absurd h nofun
  · obtain rfl := Except.ok.inj h
    refine .stopLoop c _ _ ‹_› ?_
    split
    · exact .inl ⟨‹_›, rfl⟩
    · exact .inr ⟨‹_›, rfl⟩

theorem respond_cases {body : Request} (h : respond body seen db = .ok db') :
    Responds seen db body db' := by
  cases body with
  | createCycle charter policy =>
    obtain rfl := Except.ok.inj h
    exact .createCycle charter policy
  | transitionCycle c target => exact transitionCycle_cases h
  | startDiscovery c => exact startDiscovery_cases h
  | startAnalysis c => exact startAnalysis_cases h
  | startHypothesisSession c charter => exact startHypothesisSession_cases h
  | compileProtocols c session cards profile image => exact compileProtocols_cases h
  | startRun spec => exact startRun_cases h
  | controlRun r action => exact controlRun_cases h
  | cancelJob j => exact cancelJob_cases h
  | pauseJob j => exact pauseJob_cases h
  | resumeJob j => exact resumeJob_cases h
  | resumeGate c => exact resumeGate_cases h
  | stopLoop c => exact stopLoop_cases h

end Synthetos.Api
