import Synthetos.Cycles.Ownership
import Synthetos.Loop.Approvals
import Synthetos.Runs.Archive

/-!
# Provenance

In every reachable state each row about a run rests on rows that are there, and each queued job
that takes up a row has it.
-/

namespace Synthetos.Runs

open Synthetos.Core Storage Lib Worker Api Autonomy Protocols Remediation Verification Jobs Cycles

/-- The rows a job takes up exist. -/
structure Commissioned (db : Db) (job : Job) : Prop where
  remediates : job.jobType = .autoRemediate → ∀ r, job.payload.runRecordId = some r → Failed db r
  explains : job.jobType = .verificationPostmortem → ∀ r, job.payload.runRecordId = some r →
    Declined db r
  classifies : job.jobType = .signalClassify → ∀ r, job.payload.runRecordId = some r →
    Assessed db r
  recommends : job.jobType = .recommend → ∀ r, job.payload.runRecordId = some r → Judged db r
  decides : job.jobType = .loopDecide → ∀ r k, job.payload.runRecordId = some r →
    job.payload.recommendationId = some k → Recommended db r k
  compiles : job.jobType = .protocolCompile → ∀ context, job.payload.loopContext = some context →
    Recommended db context.runRecordId context.recommendationId ∧
      Names db context.runRecordId fun run => job.cycleId = some run.cycleId

structure Provenance (sys : Runtime) : Prop where
  archive : Archive sys.db
  jobs : ∀ (j : JobId) (job : Job), sys.db.jobs[j]? = some job → Commissioned sys.db job

variable {settings : Settings} {start sys sys' : Runtime} {l : Label} {db old new : Db}
  {input : OperatorInput} {phase : Phase} {txn : Txn} {next : Core.Next} {job job' : Job}
  {r : RunId} {w : WorkerId} {j : JobId}

theorem Commissioned.of_unprompted (h : Unprompted job) : Commissioned db job where
  remediates ht := absurd (by rw [ht]; rfl) (Bool.eq_false_iff.mp h.fresh)
  explains ht := absurd (by rw [ht]; rfl) (Bool.eq_false_iff.mp h.fresh)
  classifies ht := absurd (by rw [ht]; rfl) (Bool.eq_false_iff.mp h.fresh)
  recommends ht := absurd (by rw [ht]; rfl) (Bool.eq_false_iff.mp h.fresh)
  decides ht r k hr := absurd ((h.decides ht).symm.trans hr) nofun
  compiles ht context hcontext := absurd ((h.compiles ht).symm.trans hcontext) nofun

theorem Commissioned.keeps (h : Commissioned old job) (hkeeps : Keeps old new)
    (hsame : SameJob job job') : Commissioned new job' where
  remediates ht r hr :=
    (h.remediates (hsame.type ▸ ht) r (hsame.payload ▸ hr)).keeps hkeeps
  explains ht r hr := (h.explains (hsame.type ▸ ht) r (hsame.payload ▸ hr)).keeps hkeeps
  classifies ht r hr := (h.classifies (hsame.type ▸ ht) r (hsame.payload ▸ hr)).keeps hkeeps
  recommends ht r hr := (h.recommends (hsame.type ▸ ht) r (hsame.payload ▸ hr)).keeps hkeeps
  decides ht r k hr hk :=
    (h.decides (hsame.type ▸ ht) r k (hsame.payload ▸ hr) (hsame.payload ▸ hk)).keeps hkeeps
  compiles ht context hcontext := by
    obtain ⟨hrecommended, hrun⟩ :=
      h.compiles (hsame.type ▸ ht) context (hsame.payload ▸ hcontext)
    rw [hsame.cycle]
    exact ⟨hrecommended.keeps hkeeps, hrun.keeps hkeeps fun run now hsame' hcycle =>
      hcycle.trans (congrArg some hsame'.cycle.symm)⟩

/-! ### Operators -/

theorem filed_links (h : Filed db input phase txn) : Links txn := by
  have linked {r : RunId} {links : Bool} {link : VerificationReport → VerificationReport}
      (hlink : ∀ row, SameReport row (link row)) (k : RunId)
      (link' : VerificationReport → VerificationReport)
      (h : linkReports r links link = some (k, link')) (row : VerificationReport) :
      SameReport row (link' row) := by
    unfold linkReports at h
    split at h
    · obtain ⟨-, rfl⟩ := Prod.mk.inj (Option.some.inj h)
      exact hlink row
    · exact absurd h nofun
  have unlinked (hnone : txn.reportUpdate = none) : Links txn := by
    intro r link hlink
    exact absurd (hnone.symm.trans hlink) nofun
  cases h with
  | plain hrecord | gated _ _ _ _ _ _ _ _ hrecord => exact unlinked hrecord.links
  | decided it _ _ hsigned => exact unlinked hsigned.record.links
  | classified _ _ _ _ _ _ _ _ _ _ h =>
    obtain rfl := h
    exact linked fun _ => ⟨rfl, rfl, rfl, rfl⟩
  | recommended _ _ _ _ _ _ _ _ _ _ _ h =>
    obtain rfl := h
    exact linked fun _ => ⟨rfl, rfl, rfl, rfl⟩
  | reported _ _ _ _ _ h | declined _ _ _ _ _ _ _ _ h | retried _ _ _ _ _ _ _ _ h
  | explained _ _ _ _ _ _ _ _ _ h | unclassified _ _ _ _ _ h =>
    obtain rfl := h
    exact unlinked rfl

theorem grounds_of_decisions (hrecord : Unrecorded txn)
    (hdecisions : ∀ row ∈ txn.newDecisions, DecisionGrounds (db.commit txn) row) :
    Grounds db txn where
  linked _ _ h := absurd (hrecord.links.symm.trans h) nofun
  reports := by rw [hrecord.reports]; exact List.forall_mem_nil _
  actions := by rw [hrecord.actions]; exact List.forall_mem_nil _
  postmortems := by rw [hrecord.postmortems]; exact List.forall_mem_nil _
  signal _ h := absurd (hrecord.signal.symm.trans h) nofun
  recommendation _ h := absurd (hrecord.recommendation.symm.trans h) nofun
  decisions := hdecisions

theorem opens_grounds {it : Iteration} (hit : Opens db input it) :
    input.payload.runRecordId = some it.runId ∧ input.payload.recommendationId = some it.recId ∧
      db.runs[it.runId]? = some it.run := by
  cases hit with
  | rows recId runId recommendation run cycle _ hrec hr _ hrun => exact ⟨hr, hrec, hrun⟩

theorem linked_of {links : Bool} {link link' : VerificationReport → VerificationReport} {k : RunId}
    (h : linkReports r links link = some (k, link')) : k = r ∧ link' = link := by
  unfold linkReports at h
  split at h
  · obtain ⟨rfl, rfl⟩ := Prod.mk.inj (Option.some.inj h)
    exact ⟨rfl, rfl⟩
  · exact absurd h nofun

/-- The compiled spec of a loop's compilation is in the cycle of its job. -/
def CompiledInCycle (db : Db) (job : Job) (phase : Phase) : Prop :=
  ∀ specId (spec : ExperimentSpec), phase = .compiled specId → db.specs[specId]? = some spec →
    job.cycleId = some spec.cycleId

theorem declined_grounds {run : RunRecord} {row : RemediationAction}
    (hrun : db.runs[r]? = some run) (hfailed : Failed db r) (hrow : ActionFor run r none row) :
    ActionGrounds db row := by
  obtain rfl := hrow.target
  exact ⟨⟨run, hrun, hrow.charter, hrow.cycle, hrow.spec⟩, hfailed,
    fun k hk => absurd (hrow.retried.symm.trans hk) nofun⟩

/-- The retry is there only after the transaction, so the rest is grounded before it. -/
theorem retried_grounds {run : RunRecord} {row : RemediationAction}
    (hkeeps : Keeps db (db.commit txn)) (hruns : txn.newRuns = [retryRun run r])
    (hrun : db.runs[r]? = some run) (hfailed : Failed db r)
    (hrow : ActionFor run r (some db.runs.length) row) : ActionGrounds (db.commit txn) row := by
  have hrest : ActionFor run r none { row with retryRunId := none } :=
    ⟨hrow.target, rfl, hrow.charter, hrow.cycle, hrow.spec⟩
  have hlater := (declined_grounds hrun hfailed hrest).keeps hkeeps
  refine ⟨hlater.run, hlater.cause, fun k hk => ?_⟩
  obtain rfl := Option.some.inj (hrow.retried.symm.trans hk)
  rw [hrow.target]
  exact ⟨_, commit_newRun hruns, rfl⟩

theorem linkSignal_grounds {report : VerificationReport} (h : ReportGrounds new report)
    (hsignal : Signalled new report.runRecordId (signalId db r)) :
    ReportGrounds new (linkSignal db r report) where
  run := h.run
  signal k hk := by
    obtain rfl := Option.some.inj hk
    exact hsignal
  recommendation := h.recommendation

theorem linkRecommendation_grounds {report : VerificationReport} (h : ReportGrounds new report)
    (hrecommended : Recommended new report.runRecordId (recommendationOf db r)) :
    ReportGrounds new (linkRecommendation db r report) where
  run := h.run
  signal := h.signal
  recommendation k hk := by
    obtain rfl := Option.some.inj hk
    exact hrecommended

theorem decision_grounds {run : RunRecord} {row : LoopDecision} {k : RecommendationId}
    (hrun : db.runs[r]? = some run) (hrecommended : Recommended db r k)
    (hrow : row.runRecordId = r ∧ row.recommendationId = k ∧ row.cycleId = run.cycleId) :
    DecisionGrounds db row := by
  obtain ⟨rfl, rfl, hcycle⟩ := hrow
  exact ⟨⟨run, hrun, hcycle⟩, hrecommended⟩

theorem filed_grounds (h : Filed db (operatorInput j job) phase txn)
    (hkeeps : Keeps db (db.commit txn)) (hjob : Commissioned db job)
    (hcompiled : job.jobType = .protocolCompile → CompiledInCycle db job phase) :
    Grounds db txn := by
  cases h with
  | plain hrecord hdecisions =>
    exact grounds_of_decisions hrecord (by rw [hdecisions]; exact List.forall_mem_nil _)
  | reported r run verdict events hrun h =>
    obtain rfl := h
    have hrow : ReportGrounds db (reportFor run r verdict) := ⟨⟨run, hrun, rfl, rfl⟩, nofun, nofun⟩
    exact ⟨nofun, List.forall_mem_singleton.mpr (hrow.keeps hkeeps), List.forall_mem_nil _,
      List.forall_mem_nil _, nofun, nofun, List.forall_mem_nil _⟩
  | declined r run row events htype hr hrun hrow h =>
    obtain rfl := h
    have hgrounds := declined_grounds hrun (hjob.remediates htype _ hr) hrow
    exact ⟨nofun, List.forall_mem_nil _, List.forall_mem_singleton.mpr (hgrounds.keeps hkeeps),
      List.forall_mem_nil _, nofun, nofun, List.forall_mem_nil _⟩
  | retried r run row events htype hr hrun hrow h =>
    obtain rfl := h
    have hgrounds := retried_grounds hkeeps rfl hrun (hjob.remediates htype _ hr) hrow
    exact ⟨nofun, List.forall_mem_nil _, List.forall_mem_singleton.mpr hgrounds,
      List.forall_mem_nil _, nofun, nofun, List.forall_mem_nil _⟩
  | explained r run row events htype hr hrun hrow hreport h =>
    obtain rfl := h
    obtain ⟨rfl, hcharter, hcycle⟩ := hrow
    have hgrounds : PostmortemGrounds db row :=
      ⟨⟨run, hrun, hcharter, hcycle⟩, hjob.explains htype _ hr, hreport⟩
    exact ⟨nofun, List.forall_mem_nil _, List.forall_mem_nil _,
      List.forall_mem_singleton.mpr (hgrounds.keeps hkeeps), nofun, nofun, List.forall_mem_nil _⟩
  | unclassified r run htype hr hrun h =>
    obtain rfl := h
    exact ⟨nofun, List.forall_mem_nil _, List.forall_mem_nil _, List.forall_mem_nil _, nofun, nofun,
      List.forall_mem_nil _⟩
  | classified r run row links frontier events htype hr hrun hrow h =>
    obtain rfl := h
    obtain ⟨rfl, hcolumns⟩ := hrow
    have hgrounds : SignalGrounds db row := ⟨⟨run, hrun, hcolumns⟩, hjob.classifies htype _ hr⟩
    refine ⟨fun k link hlink report hreport hrest => ?_, List.forall_mem_nil _,
      List.forall_mem_nil _, List.forall_mem_nil _, fun row' hrow' => ?_, nofun,
      List.forall_mem_nil _⟩
    · obtain ⟨rfl, rfl⟩ := linked_of hlink
      exact linkSignal_grounds hrest ⟨row, Table.getElem?_upsertId, hreport.symm⟩
    · obtain rfl := Option.some.inj hrow'
      exact hgrounds.keeps hkeeps
  | recommended r run row links jobs events htype hr hrun hrow hjobs h =>
    obtain rfl := h
    obtain ⟨rfl, hcolumns⟩ := hrow
    have hgrounds : RecommendationGrounds db row :=
      ⟨⟨run, hrun, hcolumns⟩, hjob.recommends htype _ hr⟩
    refine ⟨fun k link hlink report hreport hrest => ?_, List.forall_mem_nil _,
      List.forall_mem_nil _, List.forall_mem_nil _, nofun, fun row' hrow' => ?_,
      List.forall_mem_nil _⟩
    · obtain ⟨rfl, rfl⟩ := linked_of hlink
      exact linkRecommendation_grounds hrest ⟨row, Table.getElem?_upsertId, hreport.symm⟩
    · obtain rfl := Option.some.inj hrow'
      exact hgrounds.keeps hkeeps
  | decided it htype hit hsigned =>
    obtain ⟨hr, hrec, hrun⟩ := opens_grounds hit
    refine grounds_of_decisions hsigned.record fun row hrow => ?_
    exact (decision_grounds hrun (hjob.decides htype _ _ hr hrec) (hsigned.rows row hrow)).keeps
      hkeeps
  | gated specId spec context row htype hphase hspec hcontext hrecord hdecisions hrow =>
    obtain ⟨hrowRun, hrowRec, hrowCycle⟩ := hrow
    obtain ⟨hrecommended, run, hrun, hcycle⟩ := hjob.compiles htype context hcontext
    have hsame := (hcompiled htype specId spec hphase hspec).symm.trans hcycle
    have hgrounds := decision_grounds hrun hrecommended
      ⟨hrowRun, hrowRec, hrowCycle.trans (Option.some.inj hsame)⟩
    refine grounds_of_decisions hrecord ?_
    rw [hdecisions]
    exact List.forall_mem_singleton.mpr (hgrounds.keeps hkeeps)

/-! ### New jobs -/

theorem commissioned_handler {d : Db} {c : CycleId} {verdict : Verdict}
    (h : Reported db r (· = verdict)) : Commissioned db (enqueueNext d c (handlerOf verdict) r) := by
  unfold handlerOf
  split
  · rename_i hfailed
    subst hfailed
    refine ⟨fun _ k hk => ?_, nofun, nofun, nofun, nofun, nofun⟩
    obtain rfl := Option.some.inj hk
    exact h
  · rename_i hpassed
    refine ⟨nofun, nofun, fun _ k hk => ?_, nofun, nofun, nofun⟩
    obtain rfl := Option.some.inj hk
    obtain ⟨place, report, hreport, hrun, rfl⟩ := h
    exact ⟨place, report, hreport, hrun, hpassed⟩

theorem filed_commissions (h : Filed db (operatorInput j job) phase txn)
    (hkeeps : Keeps db (db.commit txn)) (hjob : Commissioned db job) :
    ∀ new ∈ txn.newJobs, Commissioned (db.commit txn) new := by
  cases h with
  | plain _ _ hjobs | gated _ _ _ _ _ _ _ _ _ _ _ hjobs =>
    exact fun new hnew => .of_unprompted (hjobs new hnew)
  | reported r run verdict events hrun h =>
    obtain rfl := h
    have hlast : (db.reports ++ [reportFor run r verdict])[db.reports.length]? = _ :=
      List.getElem?_concat_length
    exact List.forall_mem_singleton.mpr (commissioned_handler ⟨_, _, hlast, rfl, rfl⟩)
  | declined r run row events htype hr hrun hrow h =>
    obtain rfl := h
    refine List.forall_mem_singleton.mpr ⟨nofun, fun _ k hk => ?_, nofun, nofun, nofun, nofun⟩
    obtain rfl := Option.some.inj hk
    exact ⟨row, List.mem_append_right _ (List.mem_singleton_self row), hrow.target, hrow.retried⟩
  | retried r run row events htype hr hrun hrow h =>
    obtain rfl := h
    exact List.forall_mem_singleton.mpr (.of_unprompted (unprompted_next rfl (by decide)))
  | explained r run row events htype hr hrun hrow hreport h =>
    obtain rfl := h
    refine List.forall_mem_singleton.mpr ⟨nofun, nofun, nofun, fun _ k hk => ?_, nofun, nofun⟩
    obtain rfl := Option.some.inj hk
    exact .inr ⟨row, List.mem_append_right _ (List.mem_singleton_self row), hrow.1⟩
  | unclassified r run htype hr hrun h | classified r run _ _ _ _ htype hr hrun _ h =>
    obtain rfl := h
    refine List.forall_mem_singleton.mpr ⟨nofun, nofun, nofun, fun _ k hk => ?_, nofun, nofun⟩
    obtain rfl := Option.some.inj hk
    exact .inl ((hjob.classifies htype r hr).keeps hkeeps)
  | recommended r run row links jobs events htype hr hrun hrow hjobs h =>
    obtain rfl := h
    intro new hnew
    obtain rfl := hjobs new hnew
    obtain ⟨rfl, -⟩ := hrow
    refine ⟨nofun, nofun, nofun, nofun, fun _ k place hk hplace => ?_, nofun⟩
    obtain rfl := Option.some.inj hk
    obtain rfl := Option.some.inj hplace
    exact ⟨row, Table.getElem?_upsertId, rfl⟩
  | decided it htype hit hsigned =>
    intro new hnew
    obtain ⟨hr, hrec, hrun⟩ := opens_grounds hit
    obtain ⟨hfresh, hdecide, hcompile⟩ := hsigned.jobs new hnew
    have hcase : (∀ context, new.payload.loopContext = some context →
        Recommended (db.commit txn) context.runRecordId context.recommendationId ∧
          Names (db.commit txn) context.runRecordId fun run => new.cycleId = some run.cycleId) := by
      intro context hcontext
      obtain ⟨hcontextRun, hcontextRec, hcycle⟩ := hcompile context hcontext
      have hnames : Names db it.runId fun run => new.cycleId = some run.cycleId :=
        ⟨it.run, hrun, hcycle⟩
      rw [hcontextRun, hcontextRec]
      exact ⟨(hjob.decides htype _ _ hr hrec).keeps hkeeps, hnames.keeps hkeeps
        fun run now hsame hcycle => hcycle.trans (congrArg some hsame.cycle.symm)⟩
    have untaken {t : JobType} {P : Prop} (ht : new.jobType = t) (htakes : takesUp t = true) : P :=
      absurd (by rw [ht]; exact htakes) (Bool.eq_false_iff.mp hfresh)
    exact ⟨fun ht => untaken ht rfl, fun ht => untaken ht rfl, fun ht => untaken ht rfl,
      fun ht => untaken ht rfl, fun ht => absurd ht hdecide, fun _ => hcase⟩

theorem requested_unprompted {seen : Db} {body : Request} (h : Requested seen db body job) :
    Unprompted job := by
  cases h with
  | compileProtocols => exact ⟨rfl, nofun, fun _ => rfl⟩
  | _ => exact ⟨rfl, nofun, nofun⟩

/-! ### Steps -/

/-- The tables that hold rows about runs, decisions apart. -/
structure SameRecords (old new : Db) : Prop where
  reports : new.reports = old.reports
  actions : new.actions = old.actions
  postmortems : new.postmortems = old.postmortems
  signals : new.signals = old.signals
  recommendations : new.recommendations = old.recommendations

theorem SameRecords.of_administers (h : Administers old new) : SameRecords old new := by
  cases h with
  | intro => exact ⟨rfl, rfl, rfl, rfl, rfl⟩

theorem respond_records {seen : Db} {body : Request} (h : Responds seen db body new) :
    SameRecords db new := by
  cases h with
  | startAnalysis c cycle moved hcycle hmoved | startRun spec row cycle moved _ _ _ hmoved
  | stopLoop c cycle moved hcycle hmoved =>
    rcases hmoved with ⟨-, rfl⟩ | ⟨-, rfl⟩ <;> exact ⟨rfl, rfl, rfl, rfl, rfl⟩
  | resumeRun r run =>
    have h := SameRecords.of_administers (ensureRunning_administers seen
      (addJob (updateRunRow db r fun row => { row with status := .running })
        (createJob db (some run.cycleId) .executionRun
          { runRecordId := some r, resume := true } 10)) run.cycleId)
    exact ⟨h.reports, h.actions, h.postmortems, h.signals, h.recommendations⟩
  | retryRun r run =>
    have h := SameRecords.of_administers (ensureRunning_administers seen db run.cycleId)
    exact ⟨h.reports, h.actions, h.postmortems, h.signals, h.recommendations⟩
  | _ => exact ⟨rfl, rfl, rfl, rfl, rfl⟩

theorem SameRecords.keeps (h : SameRecords old new) (hgrows : Grows old new) : Keeps old new where
  runs := hgrows.runs
  reports k row hrow := ⟨row, by rw [h.reports]; exact hrow, .refl row⟩
  actions row hrow := by rw [h.actions]; exact hrow
  postmortems row hrow := by rw [h.postmortems]; exact hrow
  signals k row hrow := ⟨row, by rw [h.signals]; exact hrow, rfl⟩
  recommendations k row hrow := ⟨row, by rw [h.recommendations]; exact hrow, rfl⟩

theorem archive_same (harchive : Archive old) (hsame : SameRecords old new) (hkeeps : Keeps old new)
    (hdecisions : ∀ row ∈ new.decisions, row ∈ old.decisions ∨ DecisionGrounds old row) :
    Archive new where
  reports row hrow := (harchive.reports row (hsame.reports ▸ hrow)).keeps hkeeps
  actions row hrow := (harchive.actions row (hsame.actions ▸ hrow)).keeps hkeeps
  postmortems row hrow := (harchive.postmortems row (hsame.postmortems ▸ hrow)).keeps hkeeps
  signals row hrow := (harchive.signals row (hsame.signals ▸ hrow)).keeps hkeeps
  recommendations row hrow :=
    (harchive.recommendations row (hsame.recommendations ▸ hrow)).keeps hkeeps
  decisions row hrow := by
    rcases hdecisions row hrow with hold | hgrounds
    · exact (harchive.decisions row hold).keeps hkeeps
    · exact hgrounds.keeps hkeeps

/-- A manual stop is filed for the run and the recommendation of the last row about its cycle. -/
theorem manualDecision_grounds (harchive : Archive db) (c : CycleId) (charter : CharterId) :
    ∀ row ∈ manualDecision db c charter, DecisionGrounds db row := by
  unfold manualDecision
  dsimp only
  split
  · rename_i last hlast
    obtain ⟨hmem, hc⟩ := List.mem_filter.mp (List.mem_of_getLast? hlast)
    have hgrounds := harchive.decisions last hmem
    rw [beq_iff_eq] at hc
    exact List.forall_mem_singleton.mpr ⟨hc ▸ hgrounds.run, hgrounds.cause⟩
  · split
    · rename_i recommendation place hlast
      obtain ⟨hmem, hc⟩ := List.mem_filter.mp (List.mem_of_getLast? hlast)
      have hrow := List.mk_mem_zipIdx_iff_getElem?.mp hmem
      obtain ⟨run, hrun, -, hcycle, -⟩ :=
        (harchive.recommendations recommendation (List.mem_of_getElem? hrow)).run
      exact List.forall_mem_singleton.mpr
        ⟨⟨run, hrun, (beq_iff_eq.mp hc).symm.trans hcycle⟩, recommendation, hrow, rfl⟩
    · exact List.forall_mem_nil _

theorem respond_decisions {seen : Db} {body : Request} (harchive : Archive db)
    (h : Responds seen db body new) :
    ∀ row ∈ new.decisions, row ∈ db.decisions ∨ DecisionGrounds db row := by
  intro row hrow
  rcases Loop.respond_ledger h with hunfiled | ⟨c, charter, -, -, hdecisions⟩
  · exact .inl (hunfiled.decisions ▸ hrow)
  · rw [hdecisions] at hrow
    exact (List.mem_append.mp hrow).imp_right (manualDecision_grounds harchive c charter row)

theorem compiledInCycle (howned : Owned sys) (hpc : sys.workers w = .executing j phase)
    (hj : sys.db.jobs[j]? = some job) (htype : job.jobType = .protocolCompile) :
    CompiledInCycle sys.db job phase := by
  intro specId spec hphase hspec
  have hstage : ∃ s, stage job = some s := by
    unfold stage
    rw [htype]
    exact ⟨_, rfl⟩
  obtain ⟨s, hs⟩ := hstage
  obtain ⟨c, hin⟩ := howned.inCycle hj hs
  have hown := howned.input hpc hj ⟨hin.cycle, s, hs⟩
  rw [(hown.compiled specId hphase).2 spec hspec]
  exact hin.cycle

theorem administers_records (h : Administers db new) :
    SameRecords db new ∧ ∀ row ∈ new.decisions, row ∈ db.decisions ∨ DecisionGrounds db row := by
  refine ⟨.of_administers h, fun row hrow => ?_⟩
  exact .inl ((Loop.Unfiled.of_administers h).decisions ▸ hrow)

/-- Rows about runs are filed by operators and by manual stops. -/
theorem step_records (harchive : Archive sys.db) (h : Step settings sys l sys') :
    ((∀ w world, l ≠ .exec w world) ∧ SameRecords sys.db sys'.db ∧
      ∀ row ∈ sys'.db.decisions, row ∈ sys.db.decisions ∨ DecisionGrounds sys.db row) ∨
    ∃ w world j phase job txn next, l = .exec w world ∧ sys.workers w = .executing j phase ∧
      sys.db.jobs[j]? = some job ∧
      execute sys.db (operatorInput j job) phase world = (txn, next) := by
  cases h with
  | exec w world j phase job txn next hpc hj hout =>
    exact .inr ⟨w, world, j, phase, job, txn, next, rfl, hpc, hj, hout⟩
  | respond q body seen db hpc hanswer =>
    exact .inl ⟨fun _ _ => nofun, respond_records hanswer, respond_decisions harchive hanswer⟩
  | writeOutcome => exact .inl ⟨fun _ _ => nofun, administers_records (writeOutcome_administers ..)⟩
  | writeStale => exact .inl ⟨fun _ _ => nofun, administers_records (reclaimStaleJobs_administers ..)⟩
  | start | acknowledge =>
    exact .inl ⟨fun _ _ => nofun, administers_records (.intro _ _ _ _ (charges_logged rfl))⟩
  | tick => exact .inl ⟨fun _ _ => nofun, ⟨rfl, rfl, rfl, rfl, rfl⟩, fun _ hrow => .inl hrow⟩
  | _ => exact .inl ⟨fun _ _ => nofun, administers_records (.intro _ _ _ _ rfl)⟩

theorem born_unprompted (h : Born sys l job) (hl : ∀ w world, l ≠ .exec w world) :
    Unprompted job := by
  cases h with
  | enqueued w world => exact absurd rfl (hl w world)
  | requested q body seen new hpc hnew => exact requested_unprompted hnew

theorem step_same (hprov : Provenance sys) (h : Step settings sys l sys')
    (hl : ∀ w world, l ≠ .exec w world) (hsame : SameRecords sys.db sys'.db)
    (hdecisions : ∀ row ∈ sys'.db.decisions,
      row ∈ sys.db.decisions ∨ DecisionGrounds sys.db row) : Provenance sys' := by
  have hkeeps := hsame.keeps (step_grows h)
  refine ⟨archive_same hprov.archive hsame hkeeps hdecisions, fun j job hj => ?_⟩
  rcases step_job h hj with ⟨old, hold, hsameJob, -⟩ | ⟨-, -, hborn⟩
  · exact (hprov.jobs j old hold).keeps hkeeps hsameJob
  · exact .of_unprompted (born_unprompted hborn hl)

theorem step_executed {world : External} (hprov : Provenance sys) (howned : Owned sys)
    (h : Step settings sys (.exec w world) sys') (hpc : sys.workers w = .executing j phase)
    (hj : sys.db.jobs[j]? = some job)
    (hout : execute sys.db (operatorInput j job) phase world = (txn, next)) : Provenance sys' := by
  have hdb : sys'.db = sys.db.commit txn := by
    rw [step_exec h hpc hj hout]
    rfl
  have hgrows := step_grows h
  rw [hdb] at hgrows
  have hfiled := execute_filed hout
  have hkeeps : Keeps sys.db (sys.db.commit txn) := commit_keeps hgrows (filed_links hfiled)
  have hgrounds := filed_grounds hfiled hkeeps (hprov.jobs j job hj) (compiledInCycle howned hpc hj)
  constructor
  · rw [hdb]
    exact commit_archive hprov.archive hkeeps hgrounds
  intro k new hk
  rw [hdb]
  rcases step_job h hk with ⟨old, hold, hsame, -⟩ | ⟨-, -, hborn⟩
  · exact (hprov.jobs k old hold).keeps hkeeps hsame
  generalize hl : Label.exec w world = l at hborn
  cases hborn with
  | enqueued w' world' j' phase' job' new txn' next' hpc' hj' hout' hnew =>
    obtain ⟨rfl, rfl⟩ := Label.exec.inj hl
    obtain ⟨rfl, rfl⟩ := WorkerPc.executing.inj (hpc.symm.trans hpc')
    obtain rfl := Option.some.inj (hj.symm.trans hj')
    obtain ⟨rfl, -⟩ := Prod.mk.inj (hout.symm.trans hout')
    refine filed_commissions hfiled hkeeps (hprov.jobs j job hj) new ?_
    rw [hnew]
    exact List.mem_singleton_self new
  | requested => exact absurd hl nofun

theorem provenance_step (hprov : Provenance sys) (howned : Owned sys)
    (h : Step settings sys l sys') : Provenance sys' := by
  rcases step_records hprov.archive h with ⟨hl, hsame, hdecisions⟩ |
    ⟨w, world, j, phase, job, txn, next, rfl, hpc, hj, hout⟩
  · exact step_same hprov h hl hsame hdecisions
  · exact step_executed hprov howned h hpc hj hout

/-- Nothing is recorded about runs before the first request. -/
structure Unfiled (db : Db) : Prop where
  actions : db.actions = []
  postmortems : db.postmortems = []
  signals : db.signals = []

theorem provenance_initial (hstart : start.Initial) (hunfiled : Unfiled start.db) :
    Provenance start where
  archive := {
    reports := by rw [hstart.reports]; exact List.forall_mem_nil _
    actions := by rw [hunfiled.actions]; exact List.forall_mem_nil _
    postmortems := by rw [hunfiled.postmortems]; exact List.forall_mem_nil _
    signals := by rw [hunfiled.signals]; exact List.forall_mem_nil _
    recommendations := by rw [hstart.recommendations]; exact List.forall_mem_nil _
    decisions := by rw [hstart.decisions]; exact List.forall_mem_nil _ }
  jobs j job hj := by
    rw [hstart.jobs] at hj
    exact absurd hj nofun

/-- Followed back, a decision of the loop rests on a report that is not a failure, or on a failure
that was remediated in vain. -/
theorem Archive.decision_rests (harchive : Archive db) {row : LoopDecision}
    (hrow : row ∈ db.decisions) : Assessed db row.runRecordId ∨
      Explained db row.runRecordId ∧ Declined db row.runRecordId ∧ Failed db row.runRecordId := by
  obtain ⟨recommendation, hrecommendation, hrun⟩ := (harchive.decisions row hrow).cause
  rw [← hrun]
  rcases (harchive.recommendations recommendation (List.mem_of_getElem? hrecommendation)).cause with
    hassessed | ⟨postmortem, hpostmortem, hsame⟩
  · exact .inl hassessed
  rw [← hsame]
  have hdeclined := (harchive.postmortems postmortem hpostmortem).cause
  obtain ⟨action, haction, htarget, hretry⟩ := hdeclined
  refine .inr ⟨⟨postmortem, hpostmortem, rfl⟩, ⟨action, haction, htarget, hretry⟩, ?_⟩
  rw [← htarget]
  exact (harchive.actions action haction).cause

theorem records_rest_on_rows (hstart : start.Initial) (hunfiled : Unfiled start.db)
    (hrun : Reaches Unguarded (Runtime.step settings) start sys) :
    Archive sys.db ∧
      (∀ (j : JobId) (job : Job), sys.db.jobs[j]? = some job → Commissioned sys.db job) ∧
      ∀ row ∈ sys.db.decisions, Assessed sys.db row.runRecordId ∨
        Explained sys.db row.runRecordId ∧ Declined sys.db row.runRecordId ∧
          Failed sys.db row.runRecordId := by
  have hinv : Provenance sys ∧ Owned sys := by
    refine hrun.invariant (fun sys => Provenance sys ∧ Owned sys) (fun s l t hinv _ hstep => ?_)
      ⟨provenance_initial hstart hunfiled, owned_initial hstart⟩
    have hstep' : Step settings s l t := step_cases hstep
    exact ⟨provenance_step hinv.1 hinv.2 hstep', owned_step hinv.2 hstep'⟩
  exact ⟨hinv.1.archive, hinv.1.jobs, fun _ => hinv.1.archive.decision_rests⟩

/-- The container of the first run exits with code 1, and no fix is found. -/
def failedRun : List Label :=
  [.receive 0 (.startRun 0), .respond 0] ++ Runtime.work [{}] ++
    Runtime.work [{}, {}, {}, { observation := .ok (.exited 1) }, {}] ++ Runtime.work [{}] ++
    Runtime.work [{ debugProducedFix := false }] ++ Runtime.work [{}] ++ Runtime.work [{}] ++
    Runtime.work [{}]

theorem records_rest_on_rows_failed : ∃ sys : Runtime,
    Reaches Unguarded (Runtime.step {}) (Loop.gatedCycle {}) sys ∧ sys.db.decisions.length = 1 ∧
      sys.db.postmortems.length = 1 ∧ Archive sys.db ∧
      ∀ row ∈ sys.db.decisions, Assessed sys.db row.runRecordId ∨
        Explained sys.db row.runRecordId ∧ Declined sys.db row.runRecordId ∧
          Failed sys.db row.runRecordId := by
  obtain ⟨sys, hrun, htest⟩ := Runtime.run_of_anyone
    (show (perform Runtime.anyone (Runtime.step {}) (Loop.gatedCycle {}) failedRun).any (fun sys =>
      sys.db.decisions.length == 1 && sys.db.postmortems.length == 1) = true by decide +kernel)
  simp only [Bool.and_eq_true, beq_iff_eq] at htest
  obtain ⟨harchive, -, hdecisions⟩ :=
    records_rest_on_rows (Loop.gatedCycle_initial {}) ⟨rfl, rfl, rfl⟩ hrun
  exact ⟨sys, hrun, htest.1, htest.2, harchive, hdecisions⟩

end Synthetos.Runs
