import Synthetos.Cycles.Moves
import Synthetos.Loop.Advance

/-!
# Where gate decisions are filed

`stop_gate` rows come from a pause of `loop_decide`, for its own run, and from the compiler, for the
run whose loop asked for the compilation.
-/

namespace Synthetos.Loop

open Synthetos.Core Storage Lib Worker Autonomy Protocols

variable {db : Db} {input : OperatorInput} {phase : Phase} {world : External} {txn : Txn}
  {next : Next} {it it' : Iteration} {spec : ExperimentSpec}

/-- The transaction files one decision, about run `r`. -/
def Files (txn : Txn) (r : RunId) : Prop :=
  ∃ row, txn.newDecisions = [row] ∧ row.runRecordId = r

inductive Gates (db : Db) (input : OperatorInput) (phase : Phase) (txn : Txn) : Prop where
  | free (hfree : GateFree txn)
  | paused (it : Iteration) (htype : input.jobType = .loopDecide)
      (hfresh : input.payload.preparedRunRecordId = none) (hit : iterationOf db input = some it)
      (hfiles : Files txn it.runId)
      (hgate : gateDecisionsOf db it.runId = [] ∨
        (gateDecisionsOf db it.runId).length = 1 ∧ ¬ Ungated db it)
  | compiled (specId : SpecId) (spec : ExperimentSpec) (context : LoopContext) (gate : GateResult)
      (htype : input.jobType = .protocolCompile) (hphase : phase = .compiled specId)
      (hcontext : input.payload.loopContext = some context)
      (hspec : db.specs[specId]? = some spec)
      (hgate : launchGate (policyOf db spec.cycleId) (currentProfile input.payload) spec
        = .ok (some gate))
      (hfiles : Files txn context.runRecordId)

theorem gateFree_nil (h : txn.newDecisions = []) : GateFree txn := by
  intro row hrow
  rw [h] at hrow
  exact absurd hrow List.not_mem_nil

theorem gateFree_of_advances (h : Advances (txn, next)) : GateFree txn := by
  cases h with
  | launches => assumption
  | stops => assumption

/-! ### The loop -/

theorem course_gates (h : Course db it (.ok (txn, next))) :
    GateFree txn ∨ Files txn it.runId ∧ ¬ Ungated db it := by
  generalize hout : Except.ok (txn, next) = out at h
  cases h with
  | acts step hstep =>
    obtain rfl := Except.ok.inj hout
    exact .inl (gateFree_of_advances hstep)
  | lacksSession error =>
    obtain ⟨rfl, -⟩ := Prod.mk.inj (Except.ok.inj hout)
    exact .inl (gateFree_nil rfl)
  | launches spec launch it' htarget hcompile hlaunch hrun =>
    obtain ⟨result, hgate, hout⟩ := bind_eq_ok.mp hout.symm
    cases result with
    | none =>
      obtain rfl := pure_eq_ok.mp hout
      exact .inl (gateFree_of_advances hlaunch)
    | some fired =>
      obtain ⟨rfl, -⟩ := Prod.mk.inj (pure_eq_ok.mp hout)
      exact .inr ⟨⟨_, rfl, hrun⟩, fun h => h spec fired htarget hgate⟩

theorem SameDecision.runId (h : SameDecision it it') : it'.runId = it.runId := by
  obtain ⟨number, path, txn, rfl⟩ := h
  rfl

theorem SameDecision.ungated (h : SameDecision it it') : Ungated db it' ↔ Ungated db it := by
  obtain ⟨number, path, txn, rfl⟩ := h
  exact Iff.rfl

theorem proceed_gates (h : proceed db it world = .ok (txn, next)) (hown : OwnWrites it) :
    GateFree txn ∨ Files txn it.runId ∧ ¬ Ungated db it := by
  obtain ⟨summarized, updated, hsummarized, hupdated, h⟩ := proceed_eq_ok.mp h
  obtain ⟨hsame, hown'⟩ := summarizeContext_keeps hsummarized hown
  obtain ⟨hsame', hown'⟩ := updateHypothesisStatus_keeps hupdated hown'
  have hcourse : Course db updated (actOnRecommendation db updated) :=
    actOnRecommendation_course hown'
  rw [h] at hcourse
  rw [← hsame.runId, ← hsame'.runId, ← hsame.ungated, ← hsame'.ungated]
  exact course_gates hcourse

theorem countRun_keeps (db : Db) (hown : OwnWrites it) :
    (countRun db it).runId = it.runId ∧ OwnWrites (countRun db it) := by
  unfold countRun
  split
  · exact ⟨rfl, hown⟩
  · exact ⟨rfl, hown.pause, hown.cards⟩

theorem decideFresh_gates (h : decideFresh db it world = .ok (txn, next)) (hown : OwnWrites it) :
    GateFree txn ∨ Files txn it.runId := by
  obtain ⟨hrun, hcounted⟩ := countRun_keeps db hown
  cases decideFresh_path h with
  | exhausted exceeded _ hstop =>
    obtain ⟨rfl, -⟩ := Prod.mk.inj hstop
    exact .inl (gateFree_single rfl (show Decision.stopBudget ≠ .stopGate by decide))
  | paused gate _ _ hpause =>
    obtain ⟨rfl, -⟩ := Prod.mk.inj hpause
    exact .inr ⟨_, rfl, hrun⟩
  | proceeds _ _ hproceed =>
    rw [← hrun]
    exact (proceed_gates hproceed hcounted).imp_right And.left

theorem loopDecide_gates (htype : input.jobType = .loopDecide)
    (h : loopDecideOperator db input world = .ok (txn, next)) : Gates db input phase txn := by
  cases loopDecide_path h with
  | rejected _ hstep | prepared _ _ _ _ hstep =>
    obtain ⟨rfl, -⟩ := Prod.mk.inj hstep
    exact .free (gateFree_nil rfl)
  | fresh it hopens hnone hstep =>
    have hit := iterationOf_opens hopens
    rcases decideFresh_gates hstep (iterationOf_own hit) with hfree | hfiles
    · exact .free hfree
    · exact .paused it htype hopens.fresh hit hfiles (.inl hnone)
  | resumed it gateDecision hopens hone hstep =>
    have hit := iterationOf_opens hopens
    have hown := iterationOf_own hit
    have hown' : OwnWrites (resumed it gateDecision) := ⟨hown.pause, hown.cards⟩
    rcases proceed_gates hstep hown' with hfree | ⟨hfiles, hgate⟩
    · exact .free hfree
    · exact .paused it htype hopens.fresh hit hfiles (.inr ⟨by rw [hone]; rfl, hgate⟩)

/-! ### The compiler and the dispatcher -/

theorem loopGateDecision_cases (db : Db) (spec : ExperimentSpec) (budget : AutonomyBudget)
    (context : Option LoopContext) (gate : GateResult) :
    loopGateDecision db spec budget context gate = [] ∨
      ∃ asked row, context = some asked ∧
        loopGateDecision db spec budget context gate = [row] ∧
          row.runRecordId = asked.runRecordId := by
  unfold loopGateDecision
  split
  · exact .inr ⟨_, _, rfl, rfl, rfl⟩
  · exact .inl rfl

theorem prepareRun_gates {specId : SpecId} (htype : input.jobType = .protocolCompile)
    (h : prepareRun db input specId = .ok (txn, next)) :
    Gates db input (.compiled specId) txn := by
  cases prepareRun_path h with
  | missing error hreject =>
    obtain ⟨rfl, -⟩ := Prod.mk.inj hreject
    exact .free (gateFree_nil rfl)
  | gated spec fired hspec hgate hstep =>
    obtain ⟨rfl, -⟩ := Prod.mk.inj hstep
    rcases loopGateDecision_cases db spec (loadOrCreateBudget db spec.cycleId)
      input.payload.loopContext fired with hnone | ⟨context, row, hcontext, hone, hrun⟩
    · exact .free (gateFree_nil hnone)
    · exact .compiled specId spec context fired htype rfl hcontext hspec hgate ⟨row, hone, hrun⟩
  | launched spec _ _ hstep =>
    obtain ⟨rfl, -⟩ := Prod.mk.inj hstep
    exact .free (gateFree_nil rfl)

theorem execute_gates (h : execute db input phase world = (txn, next)) :
    Gates db input phase txn := by
  rcases execute_cases h with h | ⟨error, h⟩
  · rcases handler_plain h with hplain | ⟨htype, h⟩ | ⟨specId, rfl, htype, h⟩ | ⟨-, -, h⟩
    · exact .free (gateFree_nil hplain.undecided)
    · exact loopDecide_gates htype h
    · exact prepareRun_gates htype h
    · exact .free (gateFree_nil (compileSpecs_bare h).undecided)
  · obtain ⟨rfl, -⟩ := Prod.mk.inj h
    exact .free (gateFree_nil rfl)

end Synthetos.Loop
