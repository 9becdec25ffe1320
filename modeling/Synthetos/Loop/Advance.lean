import Synthetos.Loop.Resume
import Synthetos.Protocols.LoopPaths

/-!
# When a resumed iteration advances
-/

namespace Synthetos.Loop

open Synthetos.Core Storage Lib Worker Autonomy Protocols

variable {db : Db} {input : OperatorInput} {phase : Phase} {world : External} {it it' : Iteration}
  {spec : ExperimentSpec}

/-! ### The steps an iteration takes -/

theorem stopLoopWith_advances {decision : Decision} {reasoning : String}
    (hpause : it.txn.pausedJob = none) (hdecision : decision ≠ .stopGate) :
    Advances (stopLoopWith db it decision reasoning) :=
  .stops _ _ rfl rfl hpause (gateFree_single rfl hdecision)

theorem launchRun_advances {target : SpecId} {decision : Decision} {reasoning : String}
    {nextCard : Option CardId} (hpause : it.txn.pausedJob = none)
    (hdecision : decision ≠ .stopGate) :
    Advances (launchRun db it target decision reasoning nextCard) :=
  .launches _ _ rfl (.inl rfl) hpause (gateFree_single rfl hdecision)

theorem varyParameters_advances (hpause : it.txn.pausedJob = none) :
    Advances (varyParameters db it spec) ↔ (sessionOf db it.cycleId).isSome = true := by
  unfold varyParameters
  cases sessionOf db it.cycleId with
  | none => simp [not_advances_rejectWith]
  | some session =>
    exact iff_of_true (.launches _ _ rfl (.inr rfl) hpause (gateFree_single rfl nofun)) rfl

def launchOrPause (it : Iteration) (launch : Txn × Next)
    (gate : Except String (Option GateResult)) : Except String (Txn × Next) := do
  match ← gate with
  | some gate => return pauseForGate it gate
  | none => return launch

theorem launchOrPause_acts {gate : Except String (Option GateResult)} {launch : Txn × Next}
    (hlaunch : Advances launch) : Acts (launchOrPause it launch gate) ↔ gate = .ok none := by
  unfold launchOrPause
  rw [acts_bind]
  constructor
  · rintro ⟨result, hgate, hacts⟩
    cases result with
    | none => exact hgate
    | some fired => exact absurd (acts_pure.mp hacts) (not_advances_pauseForGate fired)
  · intro hgate
    exact ⟨none, hgate, acts_pure.mpr hlaunch⟩

/-! ### The recommendation -/

/-- What the recommendation of an iteration makes it do. -/
inductive Course (db : Db) (it : Iteration) : Except String (Txn × Next) → Prop where
  | acts (step : Txn × Next) (hstep : Advances step) (htarget : launchTarget db it = none)
      (hsession : recompiles db it = true → (sessionOf db it.cycleId).isSome = true) :
      Course db it (.ok step)
  | lacksSession (error : String) (hcompile : recompiles db it = true)
      (hsession : (sessionOf db it.cycleId).isSome = false) : Course db it (.ok (rejectWith error))
  | launches (spec : ExperimentSpec) (launch : Txn × Next) (it' : Iteration)
      (htarget : launchTarget db it = some spec) (hcompile : recompiles db it = false)
      (hlaunch : Advances launch) (hrun : it'.runId = it.runId) :
      Course db it (launchOrPause it' launch (gateBefore it spec))

theorem varyParameters_course (hsame : it'.cycleId = it.cycleId) (hpause : it'.txn.pausedJob = none)
    (htarget : launchTarget db it = none) (hcompile : recompiles db it = true) :
    Course db it (.ok (varyParameters db it' spec)) := by
  cases hsession : (sessionOf db it.cycleId).isSome with
  | true =>
    refine .acts _ ?_ htarget fun _ => hsession
    exact (varyParameters_advances hpause).mpr (by rw [hsame, hsession])
  | false =>
    have hnone : sessionOf db it'.cycleId = none := by
      rw [hsame]
      exact Option.isNone_iff_eq_none.mp (Option.isSome_eq_false_iff.mp hsession)
    unfold varyParameters
    rw [hnone]
    exact .lacksSession _ hcompile hsession

theorem pivotHypothesis_course (hown : OwnWrites it)
    (htype : it.recommendation.recommendationType = .hypothesisPivot) :
    Course db it (pivotHypothesis db it) := by
  have hpivot : launchTarget db it = pivotTarget db it := by
    cases hspec : it.spec <;> simp [launchTarget, htype, hspec]
  have hcompile : recompiles db it = false := by
    cases hspec : it.spec <;> simp [recompiles, htype, hspec]
  have other (step : Txn × Next) (hstep : Advances step) (htarget : pivotTarget db it = none) :
      Course db it (.ok step) :=
    .acts step hstep (hpivot.trans htarget) fun h => absurd (hcompile.symm.trans h) nofun
  have hnext := nextViableCard_pivot db hown
  unfold pivotHypothesis
  unfold pivotTarget at hpivot other
  dsimp only [Iteration.cycleId] at hnext hpivot other ⊢
  rw [hnext]
  cases hcard : nextViableCard (otherCards db it) it.run.cycleId with
  | none =>
    rw [hcard] at other
    exact other _ (stopLoopWith_advances hown.pause (by decide)) rfl
  | some found =>
    obtain ⟨next, nextId⟩ := found
    have htarget : (if next.status = .compiled then (validatedSpecOf db nextId).map Prod.fst
        else none) = (if next.status = .compiled then validatedSpecOf db nextId
          else none).map Prod.fst := by
      split <;> rfl
    rw [hcard] at hpivot other
    dsimp only [Option.bind_eq_bind, Option.bind_some] at hpivot other ⊢
    rw [htarget] at hpivot other
    cases hspec : (if next.status = .compiled then validatedSpecOf db nextId else none) with
    | none =>
      rw [hspec] at other
      dsimp only
      split
      · exact other _ (stopLoopWith_advances hown.pause (by decide)) rfl
      · have hrow : Decision.pivotHypothesis ≠ .stopGate := by decide
        exact other _ (.launches _ _ rfl (.inr rfl) hown.pause (gateFree_single rfl hrow)) rfl
    | some target =>
      obtain ⟨spec, specId⟩ := target
      rw [hspec] at hpivot
      exact .launches spec _ _ hpivot hcompile (launchRun_advances hown.pause (by decide)) rfl

theorem actOnRecommendation_course (hown : OwnWrites it) :
    Course db it (actOnRecommendation db it) := by
  have stops (decision : Decision) (reasoning : String) (hdecision : decision ≠ .stopGate)
      (htarget : launchTarget db it = none) (hcompile : recompiles db it = false) :
      Course db it (.ok (stopLoopWith db it decision reasoning)) :=
    .acts _ (stopLoopWith_advances hown.pause hdecision) htarget
      fun h => absurd (hcompile.symm.trans h) nofun
  unfold actOnRecommendation
  cases htype : it.recommendation.recommendationType with
  | halt =>
    apply stops _ _ (by decide)
    · simp [launchTarget, htype]
    · simp [recompiles, htype]
  | hypothesisPivot => exact pivotHypothesis_course hown htype
  | parameterVariation =>
    cases hspec : it.spec with
    | none =>
      apply stops _ _ (by decide)
      · simp [launchTarget, htype, hspec]
      · simp [recompiles, htype, hspec]
    | some spec =>
      apply varyParameters_course rfl hown.pause
      · simp [launchTarget, htype, hspec]
      · simp [recompiles, htype, hspec]
  | continueCurrent =>
    cases hspec : it.spec with
    | none =>
      apply stops _ _ (by decide)
      · simp [launchTarget, htype, hspec]
      · simp [recompiles, htype, hspec]
    | some spec =>
      dsimp only
      by_cases hrepeats : repeats db it spec = true
      · rw [if_pos hrepeats]
        refine varyParameters_course rfl hown.pause ?_ ?_
        · simp [launchTarget, htype, hspec, hrepeats]
        · simp [recompiles, htype, hspec, hrepeats]
      · rw [if_neg hrepeats]
        have hgate : gateBefore it spec = launchGate it.policy spec.hardwareProfile spec := by
          rw [gateBefore, hspec, Option.bind_some]
        unfold continueOrPause
        rw [← hgate]
        refine .launches spec _ it ?_ ?_ (launchRun_advances hown.pause (by decide)) rfl
        · simp [launchTarget, htype, hspec, hrepeats]
        · simp [recompiles, htype, hspec, hrepeats]

/-- The launch meets no gate, and a spec to compile has a session. -/
structure Clear (db : Db) (it : Iteration) : Prop where
  gate : ∀ spec, launchTarget db it = some spec → gateBefore it spec = .ok none
  session : recompiles db it = true → (sessionOf db it.cycleId).isSome = true

theorem clear_iff : Clear db it ↔
    (∀ spec, launchTarget db it = some spec → ∃ gate, gateBefore it spec = .ok gate) ∧
      (recompiles db it = true → (sessionOf db it.cycleId).isSome = true) ∧ Ungated db it := by
  constructor
  · intro h
    refine ⟨fun spec hspec => ⟨none, h.gate spec hspec⟩, h.session, fun spec gate hspec hgate => ?_⟩
    exact absurd ((h.gate spec hspec).symm.trans hgate) nofun
  · rintro ⟨hgates, hsession, hungated⟩
    refine ⟨fun spec hspec => ?_, hsession⟩
    obtain ⟨gate, hgate⟩ := hgates spec hspec
    cases gate with
    | none => exact hgate
    | some fired => exact absurd hgate (hungated spec fired hspec)

theorem course_acts {out : Except String (Txn × Next)} (h : Course db it out) :
    Acts out ↔ Clear db it := by
  cases h with
  | acts step hstep htarget hsession =>
    refine iff_of_true ⟨step, rfl, hstep⟩ ⟨fun spec hspec => ?_, hsession⟩
    exact absurd (htarget.symm.trans hspec) nofun
  | lacksSession error hcompile hsession =>
    refine iff_of_false (fun h => not_advances_rejectWith error (acts_pure.mp h)) fun h => ?_
    exact absurd (hsession.symm.trans (h.session hcompile)) nofun
  | launches spec launch it' htarget hcompile hlaunch =>
    rw [launchOrPause_acts hlaunch]
    constructor
    · intro hgate
      refine ⟨fun spec' hspec => ?_, fun h => absurd (hcompile.symm.trans h) nofun⟩
      obtain rfl := Option.some.inj (htarget.symm.trans hspec)
      exact hgate
    · intro h
      exact h.gate spec htarget

/-! ### Before the recommendation is acted on -/

/-- The iteration may have written more, but it will make the same decision. -/
def SameDecision (it it' : Iteration) : Prop :=
  ∃ number path txn,
    it' = { it with iterationNumber := number, contextSummaryPath := path, txn := txn }

theorem SameDecision.refl (it : Iteration) : SameDecision it it := ⟨_, _, _, rfl⟩

theorem SameDecision.clear (h : SameDecision it it') : Clear db it' ↔ Clear db it := by
  obtain ⟨number, path, txn, rfl⟩ := h
  exact ⟨fun h => ⟨h.gate, h.session⟩, fun h => ⟨h.gate, h.session⟩⟩

theorem summarizeContext_ok :
    (∃ it', summarizeContext it world = .ok it') ↔
      (it.contextSummaryPath = none →
        shouldGenerateSummary it.budget.totalRuns it.policy.summaryInterval = true →
          ∃ path, world.summaryPath = .ok path) := by
  unfold summarizeContext
  by_cases hdue : (it.contextSummaryPath.isNone &&
      shouldGenerateSummary it.budget.totalRuns it.policy.summaryInterval) = true
  · rw [if_pos hdue]
    rw [Bool.and_eq_true, Option.isNone_iff_eq_none] at hdue
    constructor
    · rintro ⟨it', hout⟩ - -
      obtain ⟨path, hpath, -⟩ := bind_eq_ok.mp hout
      exact ⟨path, hpath⟩
    · intro h
      obtain ⟨path, hpath⟩ := h hdue.1 hdue.2
      exact ⟨_, bind_eq_ok.mpr ⟨path, hpath, rfl⟩⟩
  · rw [if_neg hdue]
    refine iff_of_true ⟨it, rfl⟩ fun hnone hboundary => ?_
    exact absurd (by simp [hnone, hboundary]) hdue

theorem summarizeContext_keeps (h : summarizeContext it world = .ok it') (hown : OwnWrites it) :
    SameDecision it it' ∧ OwnWrites it' := by
  rcases summarizeContext_cases h with rfl | ⟨path, rfl⟩
  · exact ⟨.refl it', hown⟩
  · exact ⟨⟨_, _, _, rfl⟩, hown.pause, hown.cards⟩

theorem updateHypothesisStatus_ok :
    (∃ it', updateHypothesisStatus db it = .ok it') ↔
      ∀ id card, it.cardId = some id → db.cards[id]? = some card →
        ∃ status, potentialStatus db it card = .ok status := by
  unfold updateHypothesisStatus
  cases hid : it.cardId with
  | none => exact iff_of_true ⟨it, rfl⟩ nofun
  | some id =>
    dsimp only
    cases hcard : db.cards[id]? with
    | none =>
      refine iff_of_true ⟨it, rfl⟩ ?_
      rintro id' card hid' hcard'
      obtain rfl := Option.some.inj hid'
      exact absurd (hcard.symm.trans hcard') nofun
    | some card =>
      constructor
      · rintro ⟨it', hout⟩ id' card' hid' hcard'
        obtain rfl := Option.some.inj hid'
        obtain rfl := Option.some.inj (hcard.symm.trans hcard')
        obtain ⟨status, hstatus, -⟩ := bind_eq_ok.mp hout
        exact ⟨status, hstatus⟩
      · intro h
        obtain ⟨status, hstatus⟩ := h id card rfl hcard
        cases status with
        | none => exact ⟨it, bind_eq_ok.mpr ⟨none, hstatus, rfl⟩⟩
        | some status =>
          by_cases hsame : status = card.status
          · exact ⟨it, bind_eq_ok.mpr ⟨some status, hstatus, if_pos hsame⟩⟩
          · exact ⟨_, bind_eq_ok.mpr ⟨some status, hstatus, if_neg hsame⟩⟩

theorem updateHypothesisStatus_keeps (h : updateHypothesisStatus db it = .ok it')
    (hown : OwnWrites it) : SameDecision it it' ∧ OwnWrites it' := by
  rcases updateHypothesisStatus_cases h with rfl | ⟨id, card, status, hid, -, rfl⟩
  · exact ⟨.refl it', hown⟩
  · refine ⟨⟨_, _, _, rfl⟩, hown.pause, ?_⟩
    intro change hchange
    rcases List.mem_append.mp hchange with hold | hnew
    · exact hown.cards change hold
    · obtain rfl := List.mem_singleton.mp hnew
      exact hid

theorem proceed_acts (hown : OwnWrites it) (hraised : world.raised = none) :
    Acts (proceed db it world) ↔ Undisturbed db it world ∧ Ungated db it := by
  unfold proceed
  constructor
  · intro h
    obtain ⟨summarized, hsummarized, h⟩ := acts_bind.mp h
    obtain ⟨hsame, hown'⟩ := summarizeContext_keeps hsummarized hown
    obtain ⟨updated, hupdated, h⟩ := acts_bind.mp h
    obtain ⟨hsame', hown'⟩ := updateHypothesisStatus_keeps hupdated hown'
    have hclear := hsame.clear.mp (hsame'.clear.mp ((course_acts (actOnRecommendation_course hown')).mp h))
    obtain ⟨hgates, hsession, hungated⟩ := clear_iff.mp hclear
    refine ⟨⟨hraised, summarizeContext_ok.mp ⟨_, hsummarized⟩, ?_, hgates, hsession⟩, hungated⟩
    have hstatus := updateHypothesisStatus_ok.mp ⟨updated, hupdated⟩
    obtain ⟨number, path, txn, rfl⟩ := hsame
    exact hstatus
  · rintro ⟨h, hungated⟩
    obtain ⟨summarized, hsummarized⟩ := summarizeContext_ok.mpr h.summary
    obtain ⟨hsame, hown'⟩ := summarizeContext_keeps hsummarized hown
    have hstatus : ∃ updated, updateHypothesisStatus db summarized = .ok updated := by
      obtain ⟨number, path, txn, rfl⟩ := hsame
      exact updateHypothesisStatus_ok.mpr h.status
    obtain ⟨updated, hupdated⟩ := hstatus
    obtain ⟨hsame', hown'⟩ := updateHypothesisStatus_keeps hupdated hown'
    have hclear : Clear db updated := by
      rw [hsame'.clear, hsame.clear]
      exact clear_iff.mpr ⟨h.gates, h.session, hungated⟩
    exact acts_bind.mpr ⟨summarized, hsummarized, acts_bind.mpr ⟨updated, hupdated,
      (course_acts (actOnRecommendation_course hown')).mpr hclear⟩⟩

/-! ### The operator -/

theorem iterationOf_cases (hit : iterationOf db input = some it) :
    ∃ recId runId recommendation run cycle, input.payload.recommendationId = some recId ∧
      input.payload.runRecordId = some runId ∧
      db.recommendations[recId]? = some recommendation ∧ db.runs[runId]? = some run ∧
      db.cycles[run.cycleId]? = some cycle ∧
      it = { jobId := input.jobId, runId, run, recId, recommendation
             spec := db.specs[run.experimentSpecId]?, policy := cycle.autonomy
             budget := loadOrCreateBudget db run.cycleId
             iterationNumber := (Remediation.decisionsOf db run.cycleId).length + 1
             txn := { budget := some (loadOrCreateBudget db run.cycleId) } } := by
  simp only [iterationOf, Option.bind_eq_bind, Option.bind_eq_some_iff] at hit
  obtain ⟨recId, hrec, runId, hrun, recommendation, hrow, run, hr, cycle, hcycle, hit⟩ := hit
  obtain rfl := Option.some.inj hit
  exact ⟨recId, runId, recommendation, run, cycle, hrec, hrun, hrow, hr, hcycle, rfl⟩

theorem iterationOf_opens (h : Opens db input it) : iterationOf db input = some it := by
  cases h with
  | rows recId runId recommendation run cycle hfresh hrec hr hrow hrun hcycle =>
    simp [iterationOf, hrec, hr, hrow, hrun, hcycle]

theorem iterationOf_own (hit : iterationOf db input = some it) : OwnWrites it := by
  obtain ⟨recId, runId, recommendation, run, cycle, -, -, -, -, -, rfl⟩ := iterationOf_cases hit
  exact ⟨rfl, nofun⟩

theorem loopDecide_iteration (hfresh : input.payload.preparedRunRecordId = none)
    (hit : iterationOf db input = some it) :
    loopDecideOperator db input world =
      match gateDecisionsOf db it.runId with
      | [] => decideFresh db it world
      | [gateDecision] => decideResumed db it gateDecision world
      | _ => .error "MultipleResultsFound" := by
  obtain ⟨recId, runId, recommendation, run, cycle, hrec, hrun, hrow, hr, hcycle, rfl⟩ :=
    iterationOf_cases hit
  unfold loopDecideOperator
  rw [hfresh, hrec, hrun]
  dsimp only
  rw [hrow, hr]
  dsimp only
  rewrite [hcycle]
  rfl

theorem execute_advances (hphase : Phase.guarded phase = false) :
    Advances (execute db input phase world) ↔
      world.raised = none ∧ Acts (handler db input phase world) := by
  unfold execute
  rw [hphase]
  cases hraised : world.raised with
  | some error => exact iff_of_false (not_advances_rejectWith _) nofun
  | none =>
    cases hout : handler db input phase world with
    | error error =>
      refine iff_of_false (not_advances_rejectWith _) ?_
      rintro ⟨-, step, hstep, -⟩
      exact absurd hstep nofun
    | ok out => exact ⟨fun h => ⟨rfl, out, rfl, h⟩, fun h => acts_pure.mp h.2⟩

theorem resumed_advances {gateDecision : LoopDecision} (htype : input.jobType = .loopDecide)
    (hphase : Phase.guarded phase = false) (hfresh : input.payload.preparedRunRecordId = none)
    (hit : iterationOf db input = some it) (hgate : gateDecisionsOf db it.runId = [gateDecision]) :
    Advances (execute db input phase world) ↔
      Undisturbed db (resumed it gateDecision) world ∧ Ungated db it := by
  have hhandler : handler db input phase world = proceed db (resumed it gateDecision) world := by
    unfold handler
    rw [htype]
    dsimp only
    rw [loopDecide_iteration hfresh hit, hgate]
    rfl
  have hown : OwnWrites (resumed it gateDecision) :=
    ⟨(iterationOf_own hit).pause, (iterationOf_own hit).cards⟩
  rw [execute_advances hphase, hhandler]
  constructor
  · rintro ⟨hraised, h⟩
    exact (proceed_acts hown hraised).mp h
  · rintro ⟨h, hungated⟩
    exact ⟨h.raised, (proceed_acts hown h.raised).mpr ⟨h, hungated⟩⟩

theorem prepared_advances {prepared : RunId} {run : RunRecord}
    (htype : input.jobType = .loopDecide) (hphase : Phase.guarded phase = false)
    (hprepared : input.payload.preparedRunRecordId = some prepared)
    (hrun : db.runs[prepared]? = some run) :
    Advances (execute db input phase world) ↔ world.raised = none := by
  have hhandler : handler db input phase world = .ok (decidePrepared db prepared) := by
    unfold handler loopDecideOperator
    rw [htype, hprepared]
  rw [execute_advances hphase, hhandler]
  refine and_iff_left ⟨_, rfl, ?_⟩
  unfold decidePrepared
  rw [hrun]
  exact .launches _ _ rfl (.inl rfl) rfl fun row hrow => absurd hrow List.not_mem_nil

end Synthetos.Loop
