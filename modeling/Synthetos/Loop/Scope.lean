import Synthetos.Loop.Lifecycle

/-!
# Cycles and the rows of their hypotheses

A spec is compiled in the cycle of its card, and a run of it is created in that cycle, whoever
creates it.
-/

namespace Synthetos.Loop

open Synthetos.Core Storage Lib Worker Api Autonomy Protocols

/-- A card is of the cycle of its session. -/
def CardScoped (db : Db) (card : HypothesisCard) : Prop :=
  ∃ session, db.sessions[card.hypothesisSessionId]? = some session ∧ session.cycleId = card.cycleId

/-- A spec is of the cycle of its card. -/
def SpecScoped (db : Db) (spec : ExperimentSpec) : Prop :=
  ∃ card, db.cards[spec.hypothesisCardId]? = some card ∧ card.cycleId = spec.cycleId

/-- A run is of the cycle of its spec. -/
def RunScoped (db : Db) (run : RunRecord) : Prop :=
  ∃ spec, db.specs[run.experimentSpecId]? = some spec ∧ spec.cycleId = run.cycleId

structure Scoped (db : Db) : Prop where
  cards : ∀ (id : CardId) (card : HypothesisCard), db.cards[id]? = some card → CardScoped db card
  specs : ∀ (s : SpecId) (spec : ExperimentSpec), db.specs[s]? = some spec → SpecScoped db spec
  runs : ∀ (r : RunId) (run : RunRecord), db.runs[r]? = some run → RunScoped db run

/-- The transaction adds specs and runs of the cycles they belong to. -/
structure Confined (db : Db) (txn : Txn) : Prop where
  specs : ∀ spec ∈ txn.newSpecs, SpecScoped db spec
  runs : ∀ run ∈ txn.newRuns, RunScoped db run

/-- A card keeps everything but its status. -/
def KeepsCard (old new : HypothesisCard) : Prop := new = { old with status := new.status }

variable {settings : Settings} {sys sys' : Runtime} {l : Label} {db new : Db}
  {input : OperatorInput} {phase : Phase} {world : External} {txn : Txn} {next : Core.Next}
  {it it' : Iteration} {spec : ExperimentSpec} {run : RunRecord} {card : HypothesisCard}
  {cards : List HypothesisCard} {writes : List (CardId × CardStatus)} {id : CardId}
  {cycle : CycleId}

/-! ### The card a pivot selects -/

theorem rankLe_total (a b : Option Int) : rankLe a b = true ∨ rankLe b a = true := by
  cases a <;> cases b <;> simp [rankLe]
  omega

theorem rankLe_trans {a b c : Option Int} (hab : rankLe a b = true) (hbc : rankLe b c = true) :
    rankLe a c = true := by
  cases a <;> cases b <;> cases c <;> simp_all [rankLe]
  omega

theorem nextViableCard_ranking (cards : List HypothesisCard) (cycle : CycleId) :
    ∃ ranking : List (HypothesisCard × CardId), nextViableCard cards cycle = ranking.head? ∧
      (∀ row, row ∈ ranking ↔ cards[row.2]? = some row.1 ∧ viable cycle row.1 = true) ∧
      ranking.Pairwise fun a b => rankLe a.1.rank b.1.rank = true := by
  have htotal : Std.Total fun a b : HypothesisCard × CardId =>
      rankLe a.1.rank b.1.rank = true := ⟨fun a b => rankLe_total a.1.rank b.1.rank⟩
  have htrans : IsTrans (HypothesisCard × CardId) fun a b =>
      rankLe a.1.rank b.1.rank = true := ⟨fun _ _ _ hab hbc => rankLe_trans hab hbc⟩
  refine ⟨_, rfl, fun row => ?_, List.pairwise_insertionSort _ _⟩
  rw [List.mem_insertionSort, List.mem_filter, List.mem_zipIdx_iff_getElem?]

theorem nextViableCard_row (h : nextViableCard cards cycle = some (card, id)) :
    cards[id]? = some card ∧ viable cycle card = true := by
  obtain ⟨ranking, hhead, hmem, -⟩ := nextViableCard_ranking cards cycle
  exact (hmem _).mp (List.mem_of_mem_head? (hhead.symm.trans h))

theorem nextViableCard_least (h : nextViableCard cards cycle = some (card, id)) {k : CardId}
    {other : HypothesisCard} (hother : cards[k]? = some other)
    (hviable : viable cycle other = true) : rankLe card.rank other.rank = true := by
  obtain ⟨ranking, hhead, hmem, hsorted⟩ := nextViableCard_ranking cards cycle
  have hother := (hmem (other, k)).mpr ⟨hother, hviable⟩
  rw [hhead] at h
  cases ranking with
  | nil => cases h
  | cons first rest =>
    obtain rfl := Option.some.inj h
    rcases List.mem_cons.mp hother with heq | hother
    · obtain ⟨rfl, -⟩ := Prod.mk.inj heq
      exact or_self_iff.mp (rankLe_total other.rank other.rank)
    · exact List.rel_of_pairwise_cons hsorted hother

theorem validatedSpecOf_row {s : SpecId} (h : validatedSpecOf db id = some (spec, s)) :
    db.specs[s]? = some spec ∧ spec.hypothesisCardId = id := by
  obtain ⟨hrow, hspec⟩ := List.mem_filter.mp (List.mem_of_getLast? h)
  exact ⟨List.mem_zipIdx_iff_getElem?.mp hrow, by simpa using (Bool.and_eq_true _ _).mp hspec |>.1⟩

/-! ### The loop -/

theorem confined_nil (hspecs : txn.newSpecs = []) (hruns : txn.newRuns = []) : Confined db txn where
  specs _ hspec := absurd (hspecs ▸ hspec) List.not_mem_nil
  runs _ hrun := absurd (hruns ▸ hrun) List.not_mem_nil

theorem confined_single (hspecs : txn.newSpecs = []) (hruns : txn.newRuns = [run])
    (hrun : RunScoped db run) : Confined db txn where
  specs _ hspec := absurd (hspecs ▸ hspec) List.not_mem_nil
  runs run' hmem := by
    rw [hruns] at hmem
    obtain rfl := List.mem_singleton.mp hmem
    exact hrun

theorem confined_rejects {error : String} (h : rejectWith error = (txn, next)) : Confined db txn := by
  obtain ⟨rfl, -⟩ := Prod.mk.inj h
  exact confined_nil rfl rfl

theorem stopLoopWith_confined {decision : Decision} {reasoning : String}
    (h : stopLoopWith db it decision reasoning = (txn, next)) (hit : Iterates db input it) :
    Confined db txn := by
  obtain ⟨rfl, -⟩ := Prod.mk.inj h
  exact confined_nil hit.specs hit.runs

theorem pauseForGate_confined {gate : GateResult} (h : pauseForGate it gate = (txn, next))
    (hit : Iterates db input it) : Confined db txn := by
  obtain ⟨rfl, -⟩ := Prod.mk.inj h
  exact confined_nil hit.specs hit.runs

theorem launchRun_confined {s : SpecId} {decision : Decision} {reasoning : String}
    {nextCard : Option CardId} (hspec : db.specs[s]? = some spec) (hcycle : spec.cycleId = it.cycleId)
    (h : launchRun db it s decision reasoning nextCard = (txn, next)) (hit : Iterates db input it) :
    Confined db txn := by
  obtain ⟨rfl, -⟩ := Prod.mk.inj h
  exact confined_single hit.specs rfl ⟨spec, hspec, hcycle⟩

theorem varyParameters_confined (h : varyParameters db it spec = (txn, next))
    (hit : Iterates db input it) : Confined db txn := by
  unfold varyParameters at h
  split at h
  · exact confined_rejects h
  · obtain ⟨rfl, -⟩ := Prod.mk.inj h
    exact confined_nil hit.specs hit.runs

theorem setCardStatuses_keeps (h : (Db.setCardStatuses cards writes)[id]? = some card) :
    ∃ old, cards[id]? = some old ∧ KeepsCard old card := by
  induction writes generalizing cards with
  | nil => exact ⟨card, h, rfl⟩
  | cons write rest ih =>
    have hrest : (Db.setCardStatuses (Db.setCardStatuses cards [write]) rest)[id]? = some card := h
    obtain ⟨mid, hmid, hkeeps⟩ := ih hrest
    rw [setCardStatuses_single] at hmid
    split at hmid
    · obtain ⟨old, hold, rfl⟩ := Option.map_eq_some_iff.mp hmid
      exact ⟨old, hold, hkeeps⟩
    · exact ⟨mid, hmid, hkeeps⟩

theorem pivotHypothesis_confined (hscoped : Scoped db) (h : pivotHypothesis db it = .ok (txn, next))
    (hit : Iterates db input it) : Confined db txn := by
  cases pivotHypothesis_path h with
  | exhausted reasoning _ hstop => exact stopLoopWith_confined hstop hit.dropped
  | paused card k spec s gate _ _ _ hpause => exact pauseForGate_confined hpause (hit.selected k)
  | launched next k spec s hnext hexisting _ hlaunch =>
    -- the spec is of the cycle of its card, and the card of the cycle of the run
    obtain ⟨hspec, hcard⟩ := validatedSpecOf_row hexisting
    obtain ⟨card, hrow, hcycle⟩ := hscoped.specs s spec hspec
    obtain ⟨hselected, hviable⟩ := nextViableCard_row hnext
    obtain ⟨mid, hmid, hkeeps⟩ := setCardStatuses_keeps hselected
    obtain ⟨old, hold, hkeeps'⟩ := setCardStatuses_keeps hmid
    have hsame : old = card := Option.some.inj (hold.symm.trans (hcard ▸ hrow))
    have hcycle' : next.cycleId = it.cycleId :=
      beq_iff_eq.mp ((Bool.and_eq_true _ _).mp hviable).1
    refine launchRun_confined hspec ?_ hlaunch (hit.selected k)
    calc
      spec.cycleId = old.cycleId := by rw [hsame, hcycle]
      _ = next.cycleId := by rw [hkeeps, hkeeps']
      _ = it.cycleId := hcycle'
  | sessionless card k reasoning _ _ hstop => exact stopLoopWith_confined hstop (hit.selected k)
  | compiled card k session _ _ hcompile =>
    obtain ⟨rfl, -⟩ := Prod.mk.inj hcompile
    exact confined_nil hit.specs hit.runs

theorem actOnRecommendation_confined (hscoped : Scoped db)
    (h : actOnRecommendation db it = .ok (txn, next)) (hit : Iterates db input it) :
    Confined db txn := by
  cases actOnRecommendation_path h with
  | stopped reasoning _ hstop => exact stopLoopWith_confined hstop hit
  | repeated spec _ _ _ hvary => exact varyParameters_confined hvary hit.repeated
  | paused spec gate _ _ _ hpause => exact pauseForGate_confined hpause hit
  | continued spec _ _ _ hlaunch =>
    obtain ⟨current, hspec, hcycle⟩ := hscoped.runs _ _ hit.run
    exact launchRun_confined hspec hcycle hlaunch hit
  | pivoted _ hpivot => exact pivotHypothesis_confined hscoped hpivot hit
  | varied spec _ _ hvary => exact varyParameters_confined hvary hit

theorem proceed_confined (hscoped : Scoped db) (h : proceed db it world = .ok (txn, next))
    (hit : Iterates db input it) : Confined db txn := by
  obtain ⟨summarized, updated, hsummarized, hupdated, h⟩ := proceed_eq_ok.mp h
  have hit := summarizeContext_iterates hsummarized hit
  exact actOnRecommendation_confined hscoped h (updateHypothesisStatus_iterates hupdated hit)

theorem loopDecide_confined (hscoped : Scoped db) (htype : input.jobType = .loopDecide)
    (h : loopDecideOperator db input world = .ok (txn, next)) : Confined db txn := by
  cases loopDecide_path h with
  | rejected error hreject => exact confined_rejects hreject
  | prepared prepared run _ _ hlaunch =>
    obtain ⟨rfl, -⟩ := Prod.mk.inj hlaunch
    exact confined_nil rfl rfl
  | fresh it hopens _ hstep =>
    have hcounted := countRun_iterates (opens_iterates htype hopens)
    cases decideFresh_path hstep with
    | exhausted exceeded _ hstop => exact stopLoopWith_confined hstop hcounted
    | paused gate _ _ hpause => exact pauseForGate_confined hpause hcounted
    | proceeds _ _ hproceed => exact proceed_confined hscoped hproceed hcounted
  | resumed it gateDecision hopens _ hstep =>
    exact proceed_confined hscoped hstep ((opens_iterates htype hopens).resumed gateDecision)

/-! ### The compiler -/

theorem selectCards_cycle (hscoped : Scoped db) {sessionId : SessionId}
    {session : HypothesisSession} {payload : Payload} {cards : List (HypothesisCard × CardId)}
    (hsession : db.sessions[sessionId]? = some session)
    (h : selectCards db payload sessionId session = .ok cards) :
    ∀ row ∈ cards, row.1.cycleId = session.cycleId := by
  intro row hrow
  have hcard := selectCards_rows h row hrow
  unfold selectCards at h
  split at h
  · -- by default the cards of the session, whose cycle is theirs
    obtain rfl := Except.ok.inj h
    have hmem := (List.mem_insertionSort _).mp (List.mem_of_mem_take hrow)
    have hof := ((Bool.and_eq_true _ _).mp (List.mem_filter.mp hmem).2).1
    obtain ⟨own, hown, hcycle⟩ := hscoped.cards row.2 row.1 hcard
    rw [beq_iff_eq.mp hof] at hown
    obtain rfl := Option.some.inj (hown.symm.trans hsession)
    exact hcycle.symm
  · dsimp only at h
    split at h
    · obtain rfl := Except.ok.inj h
      have hin := (List.mem_filter.mp hrow).2
      simp only [Bool.and_eq_true, beq_iff_eq] at hin
      exact hin.1.2
    · cases h

theorem compileSpecs_confined (hscoped : Scoped db)
    (h : compileSpecs db input world = .ok (txn, next)) :
    ∀ spec ∈ txn.newSpecs, SpecScoped db spec := by
  cases compileSpecs_path h with
  | rejected error hreject => exact (confined_rejects hreject).specs
  | drafted sessionId session cards drafted _ hsession hcards _ hstep =>
    obtain ⟨rfl, -⟩ := Prod.mk.inj hstep
    intro spec hspec
    obtain ⟨row, hrow, rfl⟩ := List.mem_map.mp hspec
    have hcard := (List.of_mem_zip hrow).1
    exact ⟨row.1.1, selectCards_rows hcards row.1 hcard,
      selectCards_cycle hscoped hsession hcards row.1 hcard⟩

theorem prepareRun_confined {s : SpecId} (h : prepareRun db input s = .ok (txn, next)) :
    Confined db txn := by
  cases prepareRun_path h with
  | missing error hreject => exact confined_rejects hreject
  | gated spec gate hspec _ hstep =>
    obtain ⟨rfl, -⟩ := Prod.mk.inj hstep
    exact confined_single rfl rfl ⟨spec, hspec, rfl⟩
  | launched spec hspec _ hstep =>
    obtain ⟨rfl, -⟩ := Prod.mk.inj hstep
    exact confined_single rfl rfl ⟨spec, hspec, rfl⟩

/-! ### Steps -/

theorem exit_retries (h : Exit db input phase txn next) :
    (∀ new ∈ txn.newRuns, ∃ (r : RunId) (run : RunRecord), db.runs[r]? = some run ∧
        new.experimentSpecId = run.experimentSpecId ∧ new.cycleId = run.cycleId) ∨
      input.jobType = .loopDecide ∨
        ∃ s, phase = .compiled s ∧ input.jobType = .protocolCompile := by
  have quiet (hnone : txn.newRuns = []) : ∀ new ∈ txn.newRuns,
      ∃ (r : RunId) (run : RunRecord), db.runs[r]? = some run ∧
        new.experimentSpecId = run.experimentSpecId ∧ new.cycleId = run.cycleId := by
    rw [hnone]
    exact fun new hnew => absurd hnew List.not_mem_nil
  cases h with
  | retried _ _ r run htype hr hrun hjob =>
    refine .inl fun new hnew => ⟨_, _, hrun, ?_⟩
    rw [hjob.runs] at hnew
    obtain rfl := List.mem_singleton.mp hnew
    exact ⟨rfl, rfl⟩
  | loopPaused | loopLaunched | loopRecompiles | loopStopped | preparedLaunch =>
    exact .inr (.inl ‹input.jobType = .loopDecide›)
  | runPrepared | runGated => exact .inr (.inr ⟨_, rfl, ‹input.jobType = .protocolCompile›⟩)
  | loopClosed | relayed => exact .inl (quiet ‹txn.newRuns = []›)
  | _ =>
    first
      | exact .inl (quiet rfl)
      | exact .inl (quiet ‹Quiet _›.runs)
      | exact .inl (quiet ‹Enqueues _ _›.runs)

theorem execute_confined (hscoped : Scoped db) (h : execute db input phase world = (txn, next)) :
    Confined db txn := by
  rcases execute_cases h with hok | ⟨error, hreject⟩
  case inr => exact confined_rejects hreject
  constructor
  · rcases handler_plain hok with hplain | ⟨htype, h⟩ | ⟨s, -, -, h⟩ | ⟨-, -, h⟩
    · rw [hplain.unspecified]
      exact fun spec hspec => absurd hspec List.not_mem_nil
    · exact (loopDecide_confined hscoped htype h).specs
    · exact (prepareRun_confined h).specs
    · exact compileSpecs_confined hscoped h
  · rcases exit_retries (handler_exit hok) with hretries | htype | ⟨s, rfl, htype⟩
    · intro new hnew
      obtain ⟨r, run, hrun, hspec, hcycle⟩ := hretries new hnew
      unfold RunScoped
      rw [hspec, hcycle]
      exact hscoped.runs r run hrun
    · unfold handler at hok
      rw [htype] at hok
      exact (loopDecide_confined hscoped htype hok).runs
    · unfold handler at hok
      rw [htype] at hok
      exact (prepareRun_confined hok).runs

/-- The rows a step keeps, as far as cycles are concerned. -/
structure Carries (old new : Db) : Prop extends Grows old new where
  cards : ∀ (id : CardId) (card : HypothesisCard), old.cards[id]? = some card →
    ∃ now, new.cards[id]? = some now ∧ KeepsCard card now

theorem Carries.specScoped (h : Carries db new) (hspec : SpecScoped db spec) : SpecScoped new spec := by
  obtain ⟨card, hcard, hcycle⟩ := hspec
  obtain ⟨now, hnow, hkeeps⟩ := h.cards _ card hcard
  exact ⟨now, hnow, by rw [hkeeps]; exact hcycle⟩

theorem Carries.runScoped (h : Carries db new) (hrun : RunScoped db run) : RunScoped new run := by
  obtain ⟨spec, hspec, hcycle⟩ := hrun
  obtain ⟨now, hnow, hsame⟩ := h.specs _ spec hspec
  exact ⟨now, hnow, hsame.cycleId.trans hcycle⟩

theorem length_cards_step (h : Step settings sys l sys') :
    sys'.db.cards.length = sys.db.cards.length := by
  rcases step_cards h with ⟨hcards, -⟩ | ⟨w, world, j, phase, job, txn, next, -, -, -, -, hdb, -⟩
  · rw [hcards]
  · rw [hdb]
    exact length_setCardStatuses

theorem step_keepsCard (h : Step settings sys l sys') (hcard : sys'.db.cards[id]? = some card) :
    ∃ old, sys.db.cards[id]? = some old ∧ KeepsCard old card := by
  rcases step_cards h with ⟨hcards, -⟩ | ⟨w, world, j, phase, job, txn, next, -, -, -, -, hdb, -⟩
  · rw [hcards] at hcard
    exact ⟨card, hcard, rfl⟩
  · rw [hdb] at hcard
    exact setCardStatuses_keeps hcard

theorem step_carries (h : Step settings sys l sys') : Carries sys.db sys'.db where
  toGrows := step_grows h
  cards id card hcard := by
    have hlt := Table.lt_length_of_getElem? hcard
    rw [← length_cards_step h] at hlt
    obtain ⟨old, hold, hkeeps⟩ := step_keepsCard h (List.getElem?_eq_getElem hlt)
    obtain rfl := Option.some.inj (hold.symm.trans hcard)
    exact ⟨_, List.getElem?_eq_getElem hlt, hkeeps⟩

theorem step_spec (h : Step settings sys l sys') {s : SpecId}
    (hspec : sys'.db.specs[s]? = some spec) :
    (∃ old, sys.db.specs[s]? = some old ∧ SameSpec old spec) ∨
      ∃ w world j phase job txn next, l = .exec w world ∧ sys.workers w = .executing j phase ∧
        sys.db.jobs[j]? = some job ∧
        execute sys.db (operatorInput j job) phase world = (txn, next) ∧ spec ∈ txn.newSpecs := by
  have kept (hsame : sys'.db.specs = sys.db.specs) : ∃ old, sys.db.specs[s]? = some old ∧
      SameSpec old spec := ⟨spec, by rw [← hsame]; exact hspec, .refl spec⟩
  revert hspec kept
  cases h with
  | exec w world j phase job txn next hpc hj hout =>
    intro hspec _
    rcases Table.getElem?_append_cases hspec with hold | hborn
    · exact .inl ⟨spec, hold, .refl spec⟩
    · exact .inr ⟨w, world, j, phase, job, txn, next, rfl, hpc, hj, hout,
        List.mem_of_getElem? hborn.2⟩
  | writeOutcome w j result seen cycleSeen runSeen job =>
    exact fun _ kept => .inl (kept (writeOutcome_administers ..).designs.2)
  | writeStale w stale => exact fun _ kept => .inl (kept (reclaimStaleJobs_administers ..).designs.2)
  | respond q body seen db hpc hanswer =>
    intro hspec kept
    rcases (respond_designs hanswer).2 with ⟨-, hsame⟩ | ⟨k, -, hupdate⟩
    · exact .inl (kept hsame)
    · rw [Runtime.moveRequest_db, hupdate] at hspec
      rw [Table.getElem?_update] at hspec
      split at hspec
      · obtain ⟨old, hold, rfl⟩ := Option.map_eq_some_iff.mp hspec
        exact .inl ⟨old, hold, rfl⟩
      · exact .inl ⟨spec, hspec, .refl spec⟩
  | _ => exact fun _ kept => .inl (kept rfl)

theorem born_scoped (hpast : ReadsPast sys) (hscoped : Scoped sys.db) (h : RunBorn sys l run) :
    RunScoped sys.db run := by
  cases h with
  | prepared w world j phase job txn next new hpc hj hout hnew =>
    exact (execute_confined hscoped hout).runs _ (hnew ▸ List.mem_singleton_self _)
  | started q s seen row cycle new hpc hspec hcycle hnew =>
    obtain ⟨now, hnow, hsame⟩ := (hpast q _ seen hpc).specs s row hspec
    obtain ⟨hid, hown, -⟩ := hnew
    exact ⟨now, hid ▸ hnow, hsame.cycleId.trans hown.symm⟩
  | retried q r seen old new hpc hrun hallowed hnew =>
    obtain ⟨now, hnow, hsame⟩ := (hpast q _ seen hpc).runs r old hrun
    obtain ⟨spec, hspec, hcycle⟩ := hscoped.runs r now hnow
    obtain ⟨hid, hown, -⟩ := hnew
    rw [hsame.spec, ← hid] at hspec
    exact ⟨spec, hspec, hcycle.trans (hsame.cycle.trans hown.symm)⟩

theorem scoped_step (hpast : ReadsPast sys) (hscoped : Scoped sys.db)
    (h : Step settings sys l sys') : Scoped sys'.db := by
  have hcarries := step_carries h
  constructor
  · intro id card hcard
    obtain ⟨old, hold, hkeeps⟩ := step_keepsCard h hcard
    obtain ⟨session, hsession, hcycle⟩ := hscoped.cards id old hold
    unfold CardScoped
    rw [hkeeps]
    exact ⟨session, hcarries.sessions _ session hsession, hcycle⟩
  · intro s spec hspec
    rcases step_spec h hspec with
      ⟨old, hold, hsame⟩ | ⟨w, world, j, phase, job, txn, next, -, -, -, hout, hborn⟩
    · have hspec := hcarries.specScoped (hscoped.specs s old hold)
      rw [hsame]
      exact hspec
    · exact hcarries.specScoped ((execute_confined hscoped hout).specs spec hborn)
  · intro r run hrun
    cases hold : sys.db.runs[r]? with
    | some old =>
      obtain ⟨new, hnew, hsame, -⟩ := step_run h hold
      obtain rfl := Option.some.inj (hnew.symm.trans hrun)
      have hown := hcarries.runScoped (hscoped.runs r old hold)
      unfold RunScoped
      rw [hsame.spec, hsame.cycle]
      exact hown
    | none => exact hcarries.runScoped (born_scoped hpast hscoped (step_runBorn h hold hrun).2)

theorem iteration_card (hscoped : Scoped db) (hit : iterationOf db input = some it) :
    ∃ id card, it.cardId = some id ∧ db.cards[id]? = some card ∧ card.cycleId = it.cycleId := by
  obtain ⟨recId, runId, recommendation, run, cycle, -, -, -, hrun, -, rfl⟩ := iterationOf_cases hit
  obtain ⟨spec, hspec, hcycle⟩ := hscoped.runs runId run hrun
  obtain ⟨card, hcard, hcycle'⟩ := hscoped.specs _ spec hspec
  refine ⟨spec.hypothesisCardId, card, ?_, hcard, hcycle'.trans hcycle⟩
  rw [Iteration.cardId, hspec]
  rfl

end Synthetos.Loop
