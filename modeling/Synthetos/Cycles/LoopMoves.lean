import Synthetos.Cycles.Moves

/-!
# Transition events of the loop
-/

namespace Synthetos.Worker

open Synthetos.Core Storage Lib Autonomy Execution Protocols Remediation Verification

variable {db : Db} {input : OperatorInput} {phase : Phase} {world : External} {txn : Txn}
  {next : Next} {it it' : Iteration}

theorem still_of_eq {out : Txn × Next} (h : out = (txn, next)) (hout : Still out.1.events) :
    Still txn.events := by
  rw [h] at hout
  exact hout

theorem stopLoopWith_still {decision : Decision} {reasoning : String} (hit : Still it.txn.events) :
    Still (stopLoopWith db it decision reasoning).1.events := by
  refine .append (.append hit ?_) fun _ => rfl
  split <;> exact fun _ => rfl

theorem pauseForGate_still {gate : GateResult} (hit : Still it.txn.events) :
    Still (pauseForGate it gate).1.events :=
  hit.append fun _ => rfl

theorem launchRun_still {spec : SpecId} {decision : Decision} {reasoning : String}
    {nextCard : Option CardId} (hit : Still it.txn.events) :
    Still (launchRun db it spec decision reasoning nextCard).1.events :=
  hit.append fun _ => rfl

theorem varyParameters_still {spec : ExperimentSpec} (hit : Still it.txn.events) :
    Still (varyParameters db it spec).1.events := by
  unfold varyParameters
  split
  · exact fun _ => rfl
  · exact hit.append fun _ => rfl

theorem pivotHypothesis_still (h : pivotHypothesis db it = .ok (txn, next))
    (hit : Still it.txn.events) : Still txn.events := by
  have hselected (k : CardId) : Still (selectedCard db it k).txn.events := hit.append fun _ => rfl
  cases pivotHypothesis_path h with
  | exhausted reasoning _ hstop => exact still_of_eq hstop (stopLoopWith_still hit)
  | paused card k spec s gate _ _ _ hpause =>
    exact still_of_eq hpause (pauseForGate_still (hselected k))
  | launched card k spec s _ _ _ hlaunch =>
    exact still_of_eq hlaunch (launchRun_still (hselected k))
  | sessionless card k reasoning _ _ hstop =>
    exact still_of_eq hstop (stopLoopWith_still (hselected k))
  | compiled card k session _ _ hcompile =>
    exact still_of_eq hcompile ((hselected k).append fun _ => rfl)

theorem actOnRecommendation_still (h : actOnRecommendation db it = .ok (txn, next))
    (hit : Still it.txn.events) : Still txn.events := by
  cases actOnRecommendation_path h with
  | stopped reasoning _ hstop => exact still_of_eq hstop (stopLoopWith_still hit)
  | repeated spec _ _ _ hvary =>
    exact still_of_eq hvary (varyParameters_still (hit.append fun _ => rfl))
  | paused spec gate _ _ _ hpause => exact still_of_eq hpause (pauseForGate_still hit)
  | continued spec _ _ _ hlaunch => exact still_of_eq hlaunch (launchRun_still hit)
  | pivoted _ hpivot => exact pivotHypothesis_still hpivot hit
  | varied spec _ _ hvary => exact still_of_eq hvary (varyParameters_still hit)

theorem summarizeContext_still (h : summarizeContext it world = .ok it')
    (hit : Still it.txn.events) : Still it'.txn.events := by
  rcases summarizeContext_cases h with rfl | ⟨path, rfl⟩
  · exact hit
  · exact hit.append fun _ => rfl

theorem updateHypothesisStatus_still (h : updateHypothesisStatus db it = .ok it')
    (hit : Still it.txn.events) : Still it'.txn.events := by
  rcases updateHypothesisStatus_cases h with rfl | ⟨id, card, status, -, -, rfl⟩
  · exact hit
  · exact hit.append fun _ => rfl

theorem proceed_still (h : proceed db it world = .ok (txn, next)) (hit : Still it.txn.events) :
    Still txn.events := by
  obtain ⟨summarized, updated, hsummarized, hupdated, h⟩ := proceed_eq_ok.mp h
  have hit := summarizeContext_still hsummarized hit
  exact actOnRecommendation_still h (updateHypothesisStatus_still hupdated hit)

theorem countRun_still (hit : Still it.txn.events) : Still (countRun db it).txn.events := by
  unfold countRun
  split
  · exact hit
  · exact hit.append fun _ => rfl

theorem decideFresh_still (h : decideFresh db it world = .ok (txn, next))
    (hit : Still it.txn.events) : Still txn.events := by
  have hcounted : Still (countRun db it).txn.events := countRun_still hit
  cases decideFresh_path h with
  | exhausted exceeded _ hstop => exact still_of_eq hstop (stopLoopWith_still hcounted)
  | paused gate _ _ hpause => exact still_of_eq hpause (pauseForGate_still hcounted)
  | proceeds _ _ hproceed => exact proceed_still hproceed hcounted

theorem opens_still (h : Opens db input it) : Still it.txn.events := by
  rw [h.txn_eq]
  exact fun _ => rfl

theorem loopDecide_still (h : loopDecideOperator db input world = .ok (txn, next)) :
    Still txn.events := by
  cases loopDecide_path h with
  | rejected error hreject => exact still_of_eq hreject fun _ => rfl
  | prepared prepared run _ _ hlaunch => exact still_of_eq hlaunch fun _ => rfl
  | fresh it hopens _ hstep => exact decideFresh_still hstep (opens_still hopens)
  | resumed it gateDecision hopens _ hstep =>
    exact proceed_still hstep ((opens_still hopens).append fun _ => rfl)

theorem prepareRun_still {specId : SpecId} (h : prepareRun db input specId = .ok (txn, next)) :
    Still txn.events := by
  cases prepareRun_path h with
  | missing error hreject => exact still_of_eq hreject fun _ => rfl
  | gated spec gate _ _ hstep => exact still_of_eq hstep fun _ => rfl
  | launched spec _ _ hstep => exact still_of_eq hstep fun _ => rfl

theorem execute_still (h : execute db input phase world = (txn, next)) : Still txn.events := by
  rcases execute_cases h with h | ⟨error, h⟩
  · rcases handler_plain h with hplain | ⟨-, h⟩ | ⟨specId, -, -, h⟩ | ⟨-, -, h⟩
    · exact hplain.still
    · exact loopDecide_still h
    · exact prepareRun_still h
    · exact (compileSpecs_bare h).still
  · exact still_of_eq h fun _ => rfl

end Synthetos.Worker
